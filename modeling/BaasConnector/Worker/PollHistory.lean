import BaasConnector.Lib.Threads
import BaasConnector.Worker.Entries

namespace BaasConnector.Worker.PollHistory

open BaasConnector.Lib.Effects BaasConnector.Lib.Keyed BaasConnector.Taxonomy.Status
open BaasConnector.Taxonomy.Errors BaasConnector.Connector.Records BaasConnector.Connector.Calls
open BaasConnector.Connector.Database BaasConnector.Webhooks.Apply BaasConnector.Webhooks.Matching
open BaasConnector.Webhooks.Footprint BaasConnector.Worker.Poll BaasConnector.Worker.Entries

/-- What a poller has done: the entry it has claimed and is applying, with the
credit it has got for it, the statement it reads, and the credits it is through
with. An application is broken when a call of it fails or its lock is refused. -/
structure History where
  poller : Bool
  applying : Option StatementEntry
  credited : Bool
  broken : Bool
  window : Option StatementQuery
  done : List StatementEntry

def History.start (poller : Bool) : History := ⟨poller, none, false, false, none, []⟩

/-- The entry has its transaction. -/
def History.landed (h : History) (entry : StatementEntry) : History :=
  { h with applying := none, credited := false, done := entry :: h.done }

/-- What a reply means for the entry that is being applied. -/
def History.proceed (h : History) (entry : StatementEntry) :
    (q : Call) → Except Thrown (Answer q) → History
  | .lockAcquire _, .ok false => { h with broken := true }
  | .transactionFindByProviderTransactionId .., .ok (some _) => h.landed entry
  | .transactionFindByEndToEndId _, .ok (some _) => h.landed entry
  | .ledger _, .ok _ => { h with credited := true }
  | .transactionCreate _, .ok _ => h.landed entry
  | _, .ok _ => h
  | _, .error _ => { h with broken := true }

def History.base (h : History) (q : Call) (r : Except Thrown (Answer q)) : History :=
  match h.applying with
  | none => h
  | some entry => h.proceed entry q r

def next (h : History) : (q : PollCall) → Except Thrown (PollAnswer q) → History
  | .base q, r => h.base q r
  | .eventClaim _ _ payload, .ok true => { h with applying := some payload, credited := false }
  | .eventClaim _ _ payload, .ok false => { h with done := payload :: h.done }
  | .statementList query, _ => { h with window := some { query with cursor := none } }
  | _, _ => h

/-- The pages of a statement, each reached over the cursor of the one before. -/
def nthPage (statement : Statement) (query : StatementQuery) : Nat → Option StatementPage
  | 0 => some (statement { query with cursor := none })
  | k + 1 => ((nthPage statement query k).bind StatementPage.next).map fun cursor =>
      statement { query with cursor := some cursor }

/-- The provider's statement holds the entry for the days of the query. -/
def Holds (statement : Statement) (query : StatementQuery) (entry : StatementEntry) : Prop :=
  ∃ k page, nthPage statement query k = some page ∧ entry ∈ page.data

def Listed (statement : Statement) (a : Polled) (entry : StatementEntry) : Prop :=
  ∃ query, query.providerAccountId = a.providerAccountId ∧ entry ∈ (statement query).data

/-- The poller is through with every credit that the statement holds. -/
def Drained (statement : Statement) (query : StatementQuery) (done : List StatementEntry) : Prop :=
  ∀ entry, Holds statement query entry → entry.direction = .credit → entry ∈ done

/-- Calls until the entry has its transaction. -/
def Landing (a : Polled) (entry : StatementEntry) (h : History) : Call → Prop
  | .lockAcquire _ | .accountFindByProviderAccountId .. | .newId .transaction => True
  | .transactionFindByProviderTransactionId provider id => provider = a.slug ∧ id = entry.reference
  | .transactionFindByEndToEndId endToEndId => entry.endToEndId = some endToEndId
  | .ledger command => ∃ externalRef, command =
      .creditIn a.availableId entry.amountCents (receiptKey entry.reference) externalRef
  | .transactionCreate t => h.credited = true ∧ t.direction = .CREDIT ∧ t.provider = a.slug ∧
      t.providerTransactionId = some entry.reference
  | _ => False

def guar (statement : Statement) (a : Polled) (h : History) : PollCall → Prop
  | .base q =>
    match h.applying with
    | none => Polling q
    | some entry => Landing a entry h q
  | .cursorEnsure _ | .cursorRecordFailure .. => h.applying = none
  | .cursorAdvance .. =>
    h.applying = none ∧ h.poller = true ∧ ∃ query, h.window = some query ∧ Drained statement query h.done
  | .eventClaim connectionId key entry =>
    h.applying = none ∧ h.poller = true ∧ connectionId = a.connectionId ∧ key = dedupeKey entry ∧
      Listed statement a entry
  | .statementList _ => h.applying = none

/-- What a reply tells about the account and the provider. -/
def Known (a : Polled) : (q : Call) → Except Thrown (Answer q) → Prop
  | .providerResolve _, .ok bound => bound.slug = a.slug
  | .accountFindById id, .ok found => id = a.accountId →
      ∃ record, found = some record ∧ record.providerAccountId = some a.providerAccountId
  | .accountFindByProviderAccountId provider id, .ok found =>
      provider = a.slug → id = a.providerAccountId →
        ∃ record, found = some record ∧ record.ledgerAvailableAccountId = some a.availableId
  | _, _ => True

def rely (statement : Statement) (a : Polled) (h : History) :
    (q : PollCall) → Except Thrown (PollAnswer q) → Prop
  | .base q, r => Known a q r ∧ (h.base q r).broken = false
  | .statementList query, r => (∀ page, r = .ok page → page = statement query) ∧
      nthPage statement { query with cursor := none } maxPages = none
  | _, _ => True

def polling (statement : Statement) (a : Polled) : Protocol PollCall PollAnswer Thrown History where
  next := next
  rely := rely statement a
  guar := guar statement a

/-- The same for the calls of the code that the poller shares. -/
def shared (a : Polled) : Protocol Call Answer Thrown History where
  next h q r := h.base q r
  rely h q r := Known a q r ∧ (h.base q r).broken = false
  guar h q := match h.applying with
    | none => Polling q
    | some entry => Landing a entry h q

variable {statement : Statement} {a : Polled} {h : History} {entry : StatementEntry} {α : Type}

theorem follows_lift {p : Flow α} {post : History → Except Thrown α → Prop} :
    (lift p).Follows (polling statement a) post h ↔ p.Follows (shared a) post h := by
  induction p generalizing h with
  | pure a => rfl
  | throw e => rfl
  | call q k ih => exact and_congr_right fun _ => forall_congr' fun r => imp_congr_right fun _ => ih r

/-- With no entry under way, the shared code leaves the history alone. -/
theorem quiet_follows {p : Flow α} (post : History → Except Thrown α → Prop)
    (hp : p.Within Polling) (hidle : h.applying = none) (hpost : ∀ r, post h r) :
    p.Follows (shared a) post h := by
  refine Prog.follows_of_within hp (fun q hq => ⟨?_, fun r => ?_⟩) hpost
  · simpa only [shared, hidle] using hq
  · change h.base q r = h
    rw [History.base, hidle]

/-- A call while an entry is under way. It is answered. -/
theorem landing_call {q : Call} {f : Answer q → Flow α} {post : History → Except Thrown α → Prop}
    (hentry : h.applying = some entry) (hguar : Landing a entry h q)
    (hok : ∀ x, Known a q (.ok x) → (h.proceed entry q (.ok x)).broken = false →
      (f x).Follows (shared a) post (h.proceed entry q (.ok x))) :
    ((ask q).bind f).Follows (shared a) post h := by
  have hnext : ∀ r, h.base q r = h.proceed entry q r := by
    intro r
    rw [History.base, hentry]
  refine Prog.follows_perform_bind.mpr ⟨?_, fun x hx => ?_, fun e he => ?_⟩
  · simpa only [shared, hentry] using hguar
  · have hb : (h.base q (.ok x)).broken = false := hx.2
    rw [hnext] at hb
    change (f x).Follows (shared a) post (h.base q (.ok x))
    rw [hnext]
    exact hok x hx.1 hb
  · have hb : (h.base q (.error e)).broken = false := he.2
    rw [hnext] at hb
    cases q <;> simp [History.proceed] at hb

/-- The entry has landed, whatever the outcome. -/
def Lands (entry : StatementEntry) (h : History) (p : Flow α) : Prop :=
  p.Follows (shared a) (fun h' _ => h' = h.landed entry) h

theorem polling_of_applying {p : Flow α} (hp : p.Within Applying) : p.Within Polling :=
  Prog.meets_mono (fun _ _ h => h) (fun _ h => .inl h) (fun _ h => h) hp

theorem landed_follows {p : Flow α} (hp : p.Within Applying) :
    p.Follows (shared a) (fun h' _ => h' = h.landed entry) (h.landed entry) :=
  quiet_follows _ (polling_of_applying hp) rfl fun _ => rfl

section Entry

variable {ctx : ApplyContext} {pid : String} (hentry : h.applying = some entry)
  (hctx : ctx.provider = a.slug)

include hentry hctx

theorem creditInbound_lands (account : AccountRecord) :
    Lands (a := a) entry h (creditInbound ctx (toInboundDraft entry pid) (inboundData entry pid) account
      a.availableId) := by
  unfold creditInbound
  refine landing_call hentry ⟨_, rfl⟩ fun posted _ _ => ?_
  change Prog.Follows (shared a) _ _ { h with credited := true }
  refine landing_call hentry trivial fun id _ _ => ?_
  change Prog.Follows (shared a) _ _ { h with credited := true }
  refine landing_call hentry ⟨rfl, rfl, hctx, rfl⟩ fun stored _ _ => ?_
  refine landed_follows ?_
  refine Prog.meets_perform_bind.mpr ⟨trivial, fun _ _ => ?_, fun _ _ => trivial⟩
  exact Prog.meets_perform_bind.mpr ⟨trivial, fun _ _ => trivial, fun _ _ => trivial⟩

theorem receiveInbound_lands :
    Lands (a := a) entry h (receiveInbound ctx (toInboundDraft entry a.providerAccountId)
      (inboundData entry a.providerAccountId)) := by
  unfold receiveInbound
  refine landing_call hentry trivial fun found hknown _ => ?_
  change Prog.Follows (shared a) _ _ h
  obtain ⟨record, rfl, hl⟩ := hknown hctx rfl
  have hrest : Lands (a := a) entry h (creditInbound ctx (toInboundDraft entry a.providerAccountId)
      (inboundData entry a.providerAccountId) record a.availableId) :=
    creditInbound_lands hentry hctx record
  simp only [hl]
  have hdata : (inboundData entry a.providerAccountId).endToEndId = entry.endToEndId := rfl
  cases he : (inboundData entry a.providerAccountId).endToEndId with
  | none => exact hrest
  | some endToEndId =>
    refine landing_call hentry (hdata.symm.trans he) fun duplicate _ _ => ?_
    cases duplicate with
    | none => exact hrest
    | some t =>
      refine landed_follows ?_
      have hd := onDuplicate_within (fun _ => bookkeeping_applying) ctx "e2eid ja registrado"
      simpa [creditOnce, Prog.meets_bind] using hd

theorem applyDraft_lands :
    Lands (a := a) entry h (applyDraft ctx (toInboundDraft entry a.providerAccountId)) := by
  change Lands (a := a) entry h (applyTransaction ctx (toInboundDraft entry a.providerAccountId)
    .SETTLED (inboundData entry a.providerAccountId))
  unfold applyTransaction findTransaction
  have hexisting : ∀ existing, (applyToExisting ctx (toInboundDraft entry a.providerAccountId)
      (inboundData entry a.providerAccountId) .SETTLED existing).Follows (shared a)
        (fun h' _ => h' = h.landed entry) (h.landed entry) :=
    fun existing => landed_follows (applyToExisting_applying ctx _ _ _ existing)
  simp only [Prog.bind_eq, Prog.bind_assoc]
  refine landing_call hentry ⟨hctx, rfl⟩ fun found _ _ => ?_
  cases found with
  | some existing => exact hexisting existing
  | none =>
    have hdata : (inboundData entry a.providerAccountId).endToEndId = entry.endToEndId := rfl
    change Prog.Follows (shared a) _ _ h
    cases he : (inboundData entry a.providerAccountId).endToEndId with
    | none => exact receiveInbound_lands hentry hctx
    | some endToEndId =>
      refine landing_call hentry (hdata.symm.trans he) fun found _ _ => ?_
      cases found with
      | some existing => exact hexisting existing
      | none => exact receiveInbound_lands hentry hctx

omit hctx in
/-- A poller that works on an entry holds the lock. -/
theorem lockRun_lands {key : String} {body : Flow α} (hbody : Lands (a := a) entry h body) :
    Lands (a := a) entry h (lockRun key body) := by
  have hnext : ∀ r, h.base (.lockAcquire key) r = h.proceed entry (.lockAcquire key) r := by
    intro r
    rw [History.base, hentry]
  unfold lockRun
  refine Prog.follows_perform_attempt_bind.mpr ⟨?_, fun r hr => ?_⟩
  · simp only [shared, hentry, Landing]
  · have hb : (h.base (.lockAcquire key) r).broken = false := hr.2
    rw [hnext] at hb
    obtain e | granted := r
    · simp [History.proceed] at hb
    cases granted with
    | false => simp [History.proceed] at hb
    | true =>
      have hsame : (shared a).next h (.lockAcquire key) (.ok true) = h := hnext (.ok true)
      rw [hsame]
      refine Prog.follows_bind.mpr (Prog.follows_attempt.mpr (Prog.follows_mono (fun h' result hr => ?_)
        hbody))
      rw [onResult_ok, hr]
      refine landed_follows (Prog.meets_perform_attempt_bind.mpr ⟨trivial, fun _ _ => ?_⟩)
      cases result <;> trivial

theorem applyDrafts_lands :
    Lands (a := a) entry h (applyDrafts ctx [toInboundDraft entry a.providerAccountId]) := by
  unfold applyDrafts
  refine Prog.follows_bind.mpr (Prog.follows_mono (fun h' r hr => ?_)
    (lockRun_lands hentry (applyDraft_lands hentry hctx)))
  obtain e | _ | outcome := r
  · exact hr
  · exact hr
  · exact hr

end Entry

/-- The poller goes on without an entry under way, and takes nothing back. -/
structure Moved (h h' : History) : Prop where
  idle : h'.applying = none
  poller : h'.poller = h.poller
  window : h'.window = h.window
  done : ∀ entry ∈ h.done, entry ∈ h'.done

theorem Moved.trans {h₁ h₂ : History} (h' : Moved h h₁) (h'' : Moved h₁ h₂) : Moved h h₂ :=
  ⟨h''.idle, h''.poller.trans h'.poller, h''.window.trans h'.window,
    fun entry he => h''.done entry (h'.done entry he)⟩

theorem applyEntry_follows {bound : BoundProvider} (hslug : bound.slug = a.slug)
    (hidle : h.applying = none) (hpoller : h.poller = true) (hlisted : Listed statement a entry) :
    (applyEntry bound entry a.providerAccountId a.connectionId).Follows (polling statement a)
      (fun h' r => Moved h h' ∧ ∀ b, r = .ok b → entry.direction = .credit → entry ∈ h'.done) h := by
  have hstay : Moved h h := ⟨hidle, rfl, rfl, fun _ he => he⟩
  unfold applyEntry
  split
  · next hdebit => exact ⟨hstay, fun _ _ hc => absurd hc hdebit⟩
  · refine Prog.follows_bind.mpr (follows_lift.mpr (quiet_follows (fun h' r =>
      onResult _ _ r) ?_ hidle fun r => ?_))
    · exact Prog.meets_perform.mpr ⟨.inl trivial, fun _ _ => trivial⟩
    · cases r with
      | error e => exact ⟨hstay, fun _ hb => by cases hb⟩
      | ok now =>
        refine Prog.follows_perform_bind.mpr ⟨⟨hidle, hpoller, rfl, rfl, hlisted⟩, fun inserted _ => ?_,
          fun e _ => ⟨hstay, fun _ hb => by cases hb⟩⟩
        cases inserted with
        | false => exact ⟨⟨hidle, rfl, rfl, fun _ he => List.mem_cons_of_mem _ he⟩,
            fun _ _ _ => List.mem_cons_self⟩
        | true =>
          refine Prog.follows_bind.mpr (follows_lift.mpr (Prog.follows_mono (fun h' r hr => ?_)
            (applyDrafts_lands (h := { h with applying := some entry, credited := false }) rfl hslug)))
          rw [hr]
          have hmoved : Moved h (History.landed { h with applying := some entry, credited := false }
              entry) := ⟨rfl, rfl, rfl, fun _ he => List.mem_cons_of_mem _ he⟩
          cases r with
          | error e => exact ⟨hmoved, fun _ hb => by cases hb⟩
          | ok result => exact ⟨hmoved, fun _ _ _ => List.mem_cons_self⟩

theorem applyEntries_follows {bound : BoundProvider} (hslug : bound.slug = a.slug)
    (entries : List StatementEntry) (hidle : h.applying = none) (hpoller : h.poller = true)
    (hlisted : ∀ entry ∈ entries, Listed statement a entry) :
    (applyEntries bound a.providerAccountId a.connectionId entries).Follows (polling statement a)
      (fun h' r => Moved h h' ∧
        ∀ n, r = .ok n → ∀ entry ∈ entries, entry.direction = .credit → entry ∈ h'.done) h := by
  induction entries generalizing h with
  | nil => exact ⟨⟨hidle, rfl, rfl, fun _ he => he⟩, fun _ _ _ he => by cases he⟩
  | cons entry entries ih =>
    unfold applyEntries
    refine Prog.follows_bind.mpr (Prog.follows_mono (fun h' r hr => ?_)
      (applyEntry_follows hslug hidle hpoller (hlisted entry List.mem_cons_self)))
    obtain ⟨hmoved, hdone⟩ := hr
    cases r with
    | error e => exact ⟨hmoved, fun _ hn => by cases hn⟩
    | ok applied =>
      refine Prog.follows_bind.mpr (Prog.follows_mono (fun h'' r hr => ?_)
        (ih hmoved.idle (hmoved.poller.trans hpoller) fun other ho =>
          hlisted other (List.mem_cons_of_mem _ ho)))
      obtain ⟨hmoved', hrest⟩ := hr
      cases r with
      | error e => exact ⟨hmoved.trans hmoved', fun _ hn => by cases hn⟩
      | ok rest =>
        refine ⟨hmoved.trans hmoved', fun _ _ other ho hc => ?_⟩
        obtain rfl | ho := List.mem_cons.mp ho
        · exact hmoved'.done _ (hdone applied rfl hc)
        · exact hrest rest rfl other ho hc

theorem nthPage_none {query : StatementQuery} {k j : Nat} (hk : nthPage statement query k = none)
    (hj : k ≤ j) : nthPage statement query j = none := by
  induction j, hj using Nat.le_induction with
  | base => exact hk
  | succ j _ ih => rw [nthPage, ih, Option.bind_none, Option.map_none]

theorem nthPage_next {query : StatementQuery} {k : Nat} {page : StatementPage}
    (hk : nthPage statement query k = some page) :
    nthPage statement query (k + 1) =
      page.next.map fun cursor => statement { query with cursor := some cursor } := by
  rw [nthPage, hk, Option.bind_some]

theorem drain_follows {bound : BoundProvider} {query : StatementQuery} (hslug : bound.slug = a.slug)
    (hquery : query.cursor = none) (hpid : query.providerAccountId = a.providerAccountId) (pages : Nat)
    {k : Nat} {cursor : Option String} (hk : k + pages = maxPages) (hidle : h.applying = none)
    (hpoller : h.poller = true)
    (hpage : nthPage statement query k = some (statement { query with cursor }))
    (hbefore : ∀ j < k, ∀ page, nthPage statement query j = some page →
      ∀ entry ∈ page.data, entry.direction = .credit → entry ∈ h.done)
    (hwindow : 0 < k → h.window = some query ∧ nthPage statement query maxPages = none) :
    (drain bound query a.connectionId pages cursor).Follows (polling statement a)
      (fun h' r => h'.applying = none ∧ h'.poller = true ∧
        ∀ n, r = .ok n → h'.window = some query ∧ Drained statement query h'.done) h := by
  induction pages generalizing h k cursor with
  | zero =>
    have hfew := (hwindow (by unfold maxPages at hk; omega)).2
    rw [← hk, Nat.add_zero, hpage] at hfew
    cases hfew
  | succ pages ih =>
    unfold drain
    refine Prog.follows_perform_bind.mpr ⟨hidle, fun page hlist => ?_,
      fun e _ => ⟨hidle, hpoller, fun _ hn => by cases hn⟩⟩
    obtain ⟨hpage', hfew⟩ := hlist
    have hcursor : ({ { query with cursor } with cursor := none } : StatementQuery) = query := by
      cases query
      simp only at hquery
      rw [hquery]
    rw [hcursor] at hfew
    have hdata := hpage' page rfl
    rw [← hdata] at hpage
    have hnext : (polling statement a).next h (.statementList { query with cursor }) (.ok page) =
        { h with window := some query } := by
      change ({ h with window := some { { query with cursor } with cursor := none } } : History) = _
      rw [hcursor]
    have hlisted : ∀ entry ∈ page.data, Listed statement a entry := fun entry he =>
      ⟨{ query with cursor }, hpid, hdata ▸ he⟩
    have hentries := applyEntries_follows (h := { h with window := some query }) hslug page.data hidle
      hpoller hlisted
    rw [← hpid] at hentries
    rw [hnext]
    refine Prog.follows_bind.mpr (Prog.follows_mono (fun h' r hr => ?_) hentries)
    obtain ⟨hmoved, hdone⟩ := hr
    have hpoller' : h'.poller = true := hmoved.poller.trans hpoller
    cases r with
    | error e => exact ⟨hmoved.idle, hpoller', fun _ hn => by cases hn⟩
    | ok applied =>
      have hupto : ∀ j < k + 1, ∀ page, nthPage statement query j = some page →
          ∀ entry ∈ page.data, entry.direction = .credit → entry ∈ h'.done := by
        intro j hj page hp entry he hc
        by_cases hjk : j = k
        · rw [hjk, hpage, Option.some.injEq] at hp
          subst hp
          exact hdone applied rfl entry he hc
        · exact hmoved.done entry (hbefore j (by omega) page hp entry he hc)
      rw [onResult_ok]
      cases hn : page.next with
      | none =>
        refine ⟨hmoved.idle, hpoller', fun _ _ => ⟨hmoved.window, ?_⟩⟩
        rintro entry ⟨j, page, hp, he⟩ hc
        have hlast : nthPage statement query (k + 1) = none := by rw [nthPage_next hpage, hn, Option.map_none]
        by_cases hj : j < k + 1
        · exact hupto j hj page hp entry he hc
        · rw [nthPage_none hlast (by omega)] at hp
          cases hp
      | some cursor' =>
        have hpage'' : nthPage statement query (k + 1) =
            some (statement { query with cursor := some cursor' }) := by
          rw [nthPage_next hpage, hn, Option.map_some]
        refine Prog.follows_bind.mpr (Prog.follows_mono (fun h'' r hr => ?_)
          (ih (k := k + 1) (by omega) hmoved.idle hpoller' hpage'' hupto fun _ => ⟨hmoved.window, hfew⟩))
        cases r with
        | error e => exact ⟨hr.1, hr.2.1, fun _ hn => by cases hn⟩
        | ok rest => exact ⟨hr.1, hr.2.1, fun _ _ => hr.2.2 rest rfl⟩

/-- A call of the shared code with no entry under way. -/
theorem idle_call {q : Call} {f : Answer q → PollFlow α} {post : History → Except Thrown α → Prop}
    (hidle : h.applying = none) (hq : Polling q)
    (hok : ∀ x, Known a q (.ok x) → (f x).Follows (polling statement a) post h)
    (herror : ∀ e, post h (.error e)) :
    ((lift (ask q)).bind f).Follows (polling statement a) post h := by
  have hsame : ∀ r, (shared a).next h q r = h := by
    intro r
    change h.base q r = h
    rw [History.base, hidle]
  refine Prog.follows_bind.mpr (follows_lift.mpr (Prog.follows_perform.mpr ⟨?_, fun r hr => ?_⟩))
  · simpa only [shared, hidle] using hq
  · rw [hsame]
    cases r with
    | error e => exact herror e
    | ok x => exact hok x hr.1

theorem poll_follows : (poll a.connectionId a.accountId).Follows (polling statement a)
    (fun h' _ => h'.applying = none) (.start true) := by
  unfold poll
  refine idle_call rfl (.inl trivial) (fun bound hslug => ?_) fun _ => rfl
  split
  · rfl
  refine idle_call rfl (.inr ⟨_, rfl⟩) (fun found hknown => ?_) fun _ => rfl
  obtain ⟨account, rfl, hpid⟩ := hknown rfl
  simp only [hpid]
  refine idle_call rfl (.inl trivial) (fun opened _ => ?_) fun _ => rfl
  refine Prog.follows_perform_bind.mpr ⟨rfl, fun cursor _ => ?_, fun _ _ => rfl⟩
  refine idle_call rfl (.inl trivial) (fun now _ => ?_) fun _ => rfl
  have hdrain : (drainAndAdvance bound a.providerAccountId a.connectionId cursor now).Follows
      (polling statement a) (fun h' _ => h'.applying = none) (.start true) := by
    unfold drainAndAdvance
    refine Prog.follows_bind.mpr (Prog.follows_mono (fun h' r hr => ?_)
      (drain_follows (k := 0) hslug rfl rfl maxPages (by omega) rfl rfl rfl
        (fun j hj => absurd hj (by omega)) (fun h0 => absurd h0 (by omega))))
    cases r with
    | error e => exact hr.1
    | ok applied =>
      obtain ⟨hidle, hpoller, hdone⟩ := hr
      obtain ⟨hw, hdrained⟩ := hdone applied rfl
      exact Prog.follows_perform_bind.mpr ⟨⟨hidle, hpoller, _, hw, hdrained⟩, fun _ _ => hidle,
        fun _ _ => hidle⟩
  refine Prog.follows_bind.mpr (Prog.follows_attempt.mpr (Prog.follows_mono (fun h' r hr => ?_) hdrain))
  rw [onResult_ok]
  cases r with
  | ok applied => exact hr
  | error e => exact Prog.follows_perform_bind.mpr ⟨hr, fun _ _ => hr, fun _ _ => hr⟩

end BaasConnector.Worker.PollHistory
