import BaasConnector.Worker.PollHistory

namespace BaasConnector.Worker.PollRuns

open BaasConnector.Lib.Effects BaasConnector.Lib.Keyed BaasConnector.Taxonomy.Errors
open BaasConnector.Ledger.Receipts BaasConnector.Connector.Records BaasConnector.Connector.Calls
open BaasConnector.Connector.Database BaasConnector.Connector.Replies BaasConnector.Webhooks.Apply
open BaasConnector.Webhooks.Footprint BaasConnector.Worker.Poll BaasConnector.Worker.Entries
open BaasConnector.Worker.PollHistory

abbrev Polls := Pool PollCall PollAnswer Thrown Unit History PollWorld

/-- Runs of the account's poller, one after the other, with events beside them. -/
def polls (statement : Statement) (a : Polled) :
    System PollCall PollAnswer Thrown Unit History PollWorld where
  env := pollEnv statement
  next := next
  start h p :=
    (h = .start true ∧ p = (poll a.connectionId a.accountId).bind fun _ => .pure ()) ∨
      (h = .start false ∧ ∃ eventId, p = lift (apply eventId))
  allowed s i := ∀ j h h' q q' k k', j ≠ i → s.threads i = some (h, .call q k) →
    s.threads j = some (h', .call q' k') → ¬ (h.poller = true ∧ h'.poller = true)

/-- The application of a claimed entry is not broken off, and nothing that is
stored is mistaken for its payment. -/
structure Smooth (statement : Statement) (a : Polled) (s s' : Polls) : Prop where
  unbroken : ∀ i h, s'.histories i = some h → h.broken = false
  kept : ∀ i h entry, s.histories i = some h → h.applying = some entry → s'.histories i ≠ none
  own : ∀ i h entry, s.histories i = some h → h.applying = some entry → ∀ id t,
    s.world.world.transactions.get id = some t → Matches a entry t →
      CreditedRow a entry s.world.world t
  key : ∀ i h entry, s.histories i = some h → h.applying = some entry →
    s.world.world.ledger.byIdempotencyKey.get (receiptKey entry.reference) = none ∨
      Credited s.world.world.ledger (receiptKey entry.reference) a.availableId entry.amountCents
  same : ∀ stored entry, s.world.claimed.get (a.connectionId, dedupeKey entry) = some stored →
    Listed statement a entry → stored = entry
  few : ∀ i h query, s'.histories i = some h → h.window = some query →
    nthPage statement query maxPages = none
  stable : KeepsEndToEnd s.world.world s'.world.world

/-- Every claimed entry has been applied, or a poller is about to. -/
structure Accounted (a : Polled) (v : PollWorld) (g : Nat → Option History) : Prop where
  opened : Open a v.world
  claimed : ∀ key entry, v.claimed.get (a.connectionId, key) = some entry →
    Applied a v.world entry ∨ ∃ j h, g j = some h ∧ h.applying = some entry
  known : ∀ j h entry, g j = some h → entry ∈ h.done ∨ h.applying = some entry →
    ∃ key, v.claimed.get (a.connectionId, key) = some entry
  receipt : ∀ j h entry, g j = some h → h.applying = some entry → h.credited = true →
    Credited v.world.ledger (receiptKey entry.reference) a.availableId entry.amountCents
  pollers : ∀ j h, g j = some h → h.applying ≠ none → h.poller = true

variable {statement : Statement} {a : Polled} {v v' : PollWorld} {g : Nat → Option History} {i : Nat}
  {h h' : History} {entry : StatementEntry}

/-- One thread moves on: what it leaves has been applied, what is new it takes on. -/
theorem Accounted.move (ha : Accounted a v g) (v' : PollWorld) (h' : History) (hi : g i = some h)
    (hopen : Open a v'.world)
    (happlied : ∀ entry, Applied a v.world entry → Applied a v'.world entry)
    (hcredited : ∀ key availableId amountCents, Credited v.world.ledger key availableId amountCents →
      Credited v'.world.ledger key availableId amountCents)
    (hnew : ∀ key entry, v'.claimed.get (a.connectionId, key) = some entry →
      v.claimed.get (a.connectionId, key) = some entry ∨ h'.applying = some entry)
    (hold : ∀ key entry, v.claimed.get (a.connectionId, key) = some entry →
      v'.claimed.get (a.connectionId, key) = some entry)
    (hgone : ∀ entry, h.applying = some entry → h'.applying = some entry ∨ Applied a v'.world entry)
    (hknown : ∀ entry, entry ∈ h'.done ∨ h'.applying = some entry →
      ∃ key, v'.claimed.get (a.connectionId, key) = some entry)
    (hreceipt : ∀ entry, h'.applying = some entry → h'.credited = true →
      Credited v'.world.ledger (receiptKey entry.reference) a.availableId entry.amountCents)
    (hpoller : h'.applying ≠ none → h'.poller = true) :
    Accounted a v' (Function.update g i (some h')) := by
  have hcases : ∀ j k, Function.update g i (some h') j = some k →
      (j = i ∧ k = h') ∨ (j ≠ i ∧ g j = some k) := by
    intro j k hj
    by_cases hji : j = i
    · subst hji
      rw [Function.update_self, Option.some.injEq] at hj
      exact .inl ⟨rfl, hj.symm⟩
    · rw [Function.update_of_ne hji] at hj
      exact .inr ⟨hji, hj⟩
  have hself : Function.update g i (some h') i = some h' := Function.update_self _ _ _
  refine ⟨hopen, fun key entry hc => ?_, fun j k entry hj he => ?_, fun j k entry hj he hcr => ?_,
    fun j k hj he => ?_⟩
  · obtain hc | hap := hnew key entry hc
    · obtain hap | ⟨j, k, hj, hk⟩ := ha.claimed key entry hc
      · exact .inl (happlied entry hap)
      · by_cases hji : j = i
        · subst hji
          rw [hi, Option.some.injEq] at hj
          subst hj
          obtain hk' | hap := hgone entry hk
          · exact .inr ⟨j, h', hself, hk'⟩
          · exact .inl hap
        · exact .inr ⟨j, k, by rw [Function.update_of_ne hji]; exact hj, hk⟩
    · exact .inr ⟨i, h', hself, hap⟩
  · obtain ⟨_, rfl⟩ | ⟨_, hj'⟩ := hcases j k hj
    · exact hknown entry he
    · obtain ⟨key, hkey⟩ := ha.known j k entry hj' he
      exact ⟨key, hold key entry hkey⟩
  · obtain ⟨_, rfl⟩ | ⟨_, hj'⟩ := hcases j k hj
    · exact hreceipt entry he hcr
    · exact hcredited _ _ _ (ha.receipt j k entry hj' he hcr)
  · obtain ⟨_, rfl⟩ | ⟨_, hj'⟩ := hcases j k hj
    · exact hpoller he
    · exact ha.pollers j k hj' he

/-- The replies about the account and the provider are what the poller relies on. -/
theorem known_of_open {w w' : World} {q : Call} {r : Except Thrown (Answer q)} (ho : Open a w)
    (he : env w q r w') : Known a q r := by
  cases q with
  | providerResolve id =>
    obtain ⟨_, rfl | ⟨_, rfl⟩⟩ := env_read (fun _ => rfl) he
    · exact ho.slug
    · trivial
  | accountFindById id =>
    obtain ⟨_, rfl | ⟨_, rfl⟩⟩ := env_read (fun _ => rfl) he
    · rintro rfl
      obtain ⟨record, hr, _, hpid, _⟩ := ho.row
      exact ⟨record, hr, hpid⟩
    · trivial
  | accountFindByProviderAccountId provider id =>
    obtain ⟨_, rfl | ⟨_, rfl⟩⟩ := env_read (fun _ => rfl) he
    · rintro rfl rfl
      exact open_search ho
    · trivial
  | _ => cases r <;> trivial

theorem polling_of_landing {q : Call} (hq : Landing a entry h q) : Polling q := by
  refine .inl ?_
  cases q with
  | ledger command =>
    obtain ⟨externalRef, rfl⟩ := hq
    exact ⟨_, rfl⟩
  | newId kind => cases kind <;> trivial
  | _ => trivial

/-- What one call does for the entry that is under way. -/
theorem landing_step {w w' : World} {q : Call} {r : Except Thrown (Answer q)}
    (hq : Landing a entry h q) (he : env w q r w') (hb : (h.proceed entry q r).broken = false)
    (hown : ∀ id t, w.transactions.get id = some t → Matches a entry t → CreditedRow a entry w t)
    (hkey : w.ledger.byIdempotencyKey.get (receiptKey entry.reference) = none ∨
      Credited w.ledger (receiptKey entry.reference) a.availableId entry.amountCents)
    (hcredited : h.credited = true →
      Credited w.ledger (receiptKey entry.reference) a.availableId entry.amountCents) :
    h.proceed entry q r = h ∨
      (h.proceed entry q r = { h with credited := true } ∧
        Credited w'.ledger (receiptKey entry.reference) a.availableId entry.amountCents) ∨
      (h.proceed entry q r = h.landed entry ∧ Applied a w' entry) := by
  have hfound : ∀ t : TransactionRecord, w.transactions.get t.id = some t → Matches a entry t →
      Applied a w entry := fun t ht hm => ⟨t.id, t, ht, hm, hown t.id t ht hm⟩
  cases r with
  | error e =>
    cases q <;> simp [History.proceed] at hb
  | ok x =>
    cases q with
    | lockAcquire key =>
      cases x with
      | true => exact .inl rfl
      | false => simp [History.proceed] at hb
    | accountFindByProviderAccountId provider id => exact .inl rfl
    | newId kind => exact .inl rfl
    | transactionFindByProviderTransactionId provider id =>
      obtain ⟨rfl, rfl⟩ := hq
      obtain ⟨rfl, hx | ⟨_, hx⟩⟩ := env_read (fun _ => rfl) he
      · cases x with
        | none => exact .inl rfl
        | some t =>
          obtain ⟨hp, ht⟩ := Rows.search_some (Except.ok.inj hx).symm
          simp only [Bool.and_eq_true, beq_iff_eq] at hp
          exact .inr (.inr ⟨rfl, hfound t ht (.inl hp)⟩)
      · cases hx
    | transactionFindByEndToEndId endToEndId =>
      obtain ⟨rfl, hx | ⟨_, hx⟩⟩ := env_read (fun _ => rfl) he
      · cases x with
        | none => exact .inl rfl
        | some t =>
          obtain ⟨hp, ht⟩ := Rows.search_some (Except.ok.inj hx).symm
          simp only [beq_iff_eq] at hp
          exact .inr (.inr ⟨rfl, hfound t ht (.inr ⟨endToEndId, hq, hp⟩)⟩)
      · cases hx
    | ledger command =>
      obtain ⟨externalRef, rfl⟩ := hq
      obtain ⟨⟨_, hx⟩, _⟩ | ⟨mint, hfresh, hx, rfl⟩ := env_ledger_command.mp he
      · cases hx
      · exact .inr (.inl ⟨rfl, creditIn_credited hkey hfresh (Prod.ext hx.symm rfl)⟩)
    | transactionCreate t =>
      obtain ⟨hc, hdirection, hprovider, hid⟩ := hq
      obtain ⟨_, ⟨_, hx⟩, _⟩ | ⟨c, _, hcreate⟩ := env_iff.mp he
      · cases hx
      · obtain ⟨hx, _⟩ | ⟨_, _, rfl⟩ := createTransaction_cases hcreate
        · cases hx
        · refine .inr (.inr ⟨rfl, t.id, storedTransaction t, Rows.get_put_self _ (storedTransaction t),
            .inl ⟨hprovider, hid⟩, hdirection, _, hid, hcredited hc⟩)
    | _ => exact hq.elim

/-- A call of the shared code. -/
theorem Accounted.base {q : Call} {r : Except Thrown (Answer q)} {s s' : Polls}
    (ha : Accounted a s.world s.histories) (hi : s.histories i = some h)
    (hguar : guar statement a h (.base q)) (he : pollEnv statement s.world (.base q) r s'.world)
    (hb : (h.base q r).broken = false) (hok : Smooth statement a s s') :
    Accounted a s'.world (Function.update s.histories i (some (h.base q r))) := by
  obtain ⟨henv, hw⟩ := pollEnv_base he
  have hclaimed : s'.world.claimed = s.world.claimed := by rw [hw]
  have hpolling : Polling q := by
    cases hap : h.applying with
    | none => simpa only [guar, hap] using hguar
    | some entry =>
      have hlanding : Landing a entry h q := by simpa only [guar, hap] using hguar
      exact polling_of_landing hlanding
  have hmove := ha.move s'.world (h.base q r) hi (open_stays hpolling henv ha.opened)
    (fun _ => applied_stays hpolling henv hok.stable) (fun _ _ _ => credited_stays hpolling henv)
    (fun _ _ hc => .inl (hclaimed ▸ hc)) (fun _ _ hc => hclaimed ▸ hc)
  rw [hclaimed] at hmove
  have hstay : ∀ entry, entry ∈ h.done ∨ h.applying = some entry →
      ∃ key, s.world.claimed.get (a.connectionId, key) = some entry :=
    fun entry => ha.known i h entry hi
  have hreceipt : ∀ entry, h.applying = some entry → h.credited = true →
      Credited s'.world.world.ledger (receiptKey entry.reference) a.availableId entry.amountCents :=
    fun entry hap hc => credited_stays hpolling henv (ha.receipt i h entry hi hap hc)
  cases hap : h.applying with
  | none =>
    have hsame : h.base q r = h := by rw [History.base, hap]
    rw [hsame] at hmove ⊢
    exact hmove (fun _ => .inl) hstay hreceipt (ha.pollers i h hi)
  | some entry =>
    have hproceed : h.base q r = h.proceed entry q r := by rw [History.base, hap]
    rw [hproceed] at hmove hb ⊢
    have hlanding : Landing a entry h q := by simpa only [guar, hap] using hguar
    rcases landing_step hlanding henv hb (hok.own i h entry hi hap) (hok.key i h entry hi hap)
      (ha.receipt i h entry hi hap) with hsame | ⟨hsame, hcredited⟩ | ⟨hsame, happlied⟩ <;>
      rw [hsame] at hmove ⊢
    · exact hmove (fun _ => .inl) hstay hreceipt (ha.pollers i h hi)
    · refine hmove (fun _ => .inl) hstay (fun other ho _ => ?_) (ha.pollers i h hi)
      obtain rfl : entry = other := Option.some.inj (hap.symm.trans ho)
      exact hcredited
    · refine hmove (fun other ho => .inr ?_) (fun other ho => ?_) (fun _ ho => by cases ho)
        fun hne => absurd rfl hne
      · obtain rfl : entry = other := Option.some.inj (hap.symm.trans ho)
        exact happlied
      · obtain ho | ho := ho
        · obtain rfl | ho := List.mem_cons.mp ho
          · exact hstay other (.inr hap)
          · exact hstay other (.inl ho)
        · cases ho

/-- A call of the poller's own that stores no claim. -/
theorem Accounted.quiet (ha : Accounted a v g) (hi : g i = some h) (hidle : h.applying = none)
    (hw : v'.world = v.world) (hc : v'.claimed = v.claimed) (hidle' : h'.applying = none)
    (hdone : ∀ entry ∈ h'.done, entry ∈ h.done ∨ ∃ key, v.claimed.get (a.connectionId, key) = some entry) :
    Accounted a v' (Function.update g i (some h')) := by
  refine ha.move _ _ hi (hw ▸ ha.opened) (fun _ => hw ▸ id) (fun _ _ _ => hw ▸ id)
    (fun _ _ h => .inl (hc ▸ h)) (fun _ _ h => hc ▸ h) (fun _ h => ?_) (fun entry he => ?_)
    (fun _ h => ?_) fun h => absurd hidle' h
  · rw [hidle] at h
    cases h
  · rw [hc]
    obtain he | he := he
    · obtain he | hkey := hdone entry he
      · exact ha.known i h entry hi (.inl he)
      · exact hkey
    · rw [hidle'] at he
      cases he
  · rw [hidle'] at h
    cases h

/-- The claim of an entry: it is new and taken on, or it has been claimed before. -/
theorem Accounted.claim {r : Except Thrown Bool} (ha : Accounted a v g) (hi : g i = some h)
    (hidle : h.applying = none) (hpoller : h.poller = true)
    (he : pollEnv statement v (.eventClaim a.connectionId (dedupeKey entry) entry) r v')
    (hsame : ∀ stored, v.claimed.get (a.connectionId, dedupeKey entry) = some stored →
      stored = entry) :
    Accounted a v' (Function.update g i
      (some (next h (.eventClaim a.connectionId (dedupeKey entry) entry) r))) := by
  obtain ⟨⟨_, rfl⟩, rfl⟩ | ⟨rfl, rfl, stored, hs⟩ | ⟨rfl, hfree, rfl⟩ := pollEnv_claim he
  · exact ha.quiet hi hidle rfl rfl hidle fun _ => .inl
  · refine ha.quiet hi hidle rfl rfl hidle fun other ho => ?_
    obtain rfl | ho := List.mem_cons.mp ho
    · exact .inr ⟨_, hsame stored hs ▸ hs⟩
    · exact .inl ho
  · have hold : ∀ key other, v.claimed.get (a.connectionId, key) = some other →
        (v.claimed.set (a.connectionId, dedupeKey entry) entry).get (a.connectionId, key) =
          some other := by
      intro key other hg
      rw [Table.get_set_ne, hg]
      intro hk
      rw [hk, hfree] at hg
      cases hg
    refine ha.move _ _ hi ha.opened (fun _ => id) (fun _ _ _ => id) (fun key other hg => ?_) hold
      (fun _ ho => ?_) (fun other ho => ?_) (fun _ _ hc => by cases hc) fun _ => hpoller
    · change (v.claimed.set (a.connectionId, dedupeKey entry) entry).get _ = _ at hg
      rw [Table.get_set] at hg
      split at hg
      · exact .inr hg
      · exact .inl hg
    · rw [hidle] at ho
      cases ho
    · obtain ho | ho := ho
      · obtain ⟨key, hkey⟩ := ha.known i h other hi (.inl ho)
        exact ⟨key, hold key other hkey⟩
      · exact ⟨dedupeKey entry, (Table.get_set_self _ _ _).trans ho⟩

theorem accounted_maintained : (polls statement a).Maintains (polling statement a)
    (fun h _ => h.applying = none) (Smooth statement a) (Accounted a) where
  next := rfl
  start hs := by
    obtain ⟨rfl, rfl⟩ | ⟨rfl, eventId, rfl⟩ := hs
    · refine Prog.follows_bind.mpr (Prog.follows_mono (fun h r hr => ?_) poll_follows)
      cases r <;> exact hr
    · exact follows_lift.mpr (quiet_follows _ (polling_of_applying (apply_applying eventId)) rfl
        fun _ => rfl)
  spawn {s i h p} ha hi hs := by
    have hfresh : h.applying = none ∧ h.done = [] := by
      obtain ⟨rfl, _⟩ | ⟨rfl, _⟩ := hs <;> exact ⟨rfl, rfl⟩
    have hfree : s.histories i = none := by rw [Pool.histories, hi, Option.map_none]
    have hcases : ∀ j k, Function.update s.histories i (some h) j = some k →
        k = h ∨ s.histories j = some k := by
      intro j k hj
      by_cases hji : j = i
      · subst hji
        rw [Function.update_self, Option.some.injEq] at hj
        exact .inl hj.symm
      · rw [Function.update_of_ne hji] at hj
        exact .inr hj
    refine ⟨ha.opened, fun key entry hc => ?_, fun j k entry hj he => ?_, fun j k entry hj he => ?_,
      fun j k hj he => ?_⟩
    · obtain hap | ⟨j, k, hj, hk⟩ := ha.claimed key entry hc
      · exact .inl hap
      · refine .inr ⟨j, k, ?_, hk⟩
        rw [Function.update_of_ne, hj]
        rintro rfl
        rw [hfree] at hj
        cases hj
    · obtain rfl | hj := hcases j k hj
      · rw [hfresh.1, hfresh.2] at he
        obtain he | he := he <;> cases he
      · exact ha.known j k entry hj he
    · obtain rfl | hj := hcases j k hj
      · rw [hfresh.1] at he
        cases he
      · exact ha.receipt j k entry hj he
    · obtain rfl | hj := hcases j k hj
      · exact absurd hfresh.1 he
      · exact ha.pollers j k hj he
  drop {s i} ha hok := by
    have hgone : (⟨s.world, Function.update s.threads i none⟩ : Polls).histories =
        Function.update s.histories i none := Pool.histories_update _ _ _ _
    have hcases : ∀ j k, Function.update s.histories i none j = some k → s.histories j = some k := by
      intro j k hj
      by_cases hji : j = i
      · subst hji
        rw [Function.update_self] at hj
        cases hj
      · rwa [Function.update_of_ne hji] at hj
    refine ⟨ha.opened, fun key entry hc => ?_, fun j k entry hj => ha.known j k entry (hcases j k hj),
      fun j k entry hj => ha.receipt j k entry (hcases j k hj), fun j k hj => ha.pollers j k (hcases j k hj)⟩
    obtain hap | ⟨j, k, hj, hk⟩ := ha.claimed key entry hc
    · exact .inl hap
    · refine .inr ⟨j, k, ?_, hk⟩
      rw [Function.update_of_ne, hj]
      rintro rfl
      refine hok.kept j k entry hj hk ?_
      rw [hgone, Function.update_self]
  call {s i h q k r v'} ha hi _ hguar he hok := by
    have hh : s.histories i = some h := by rw [Pool.histories, hi, Option.map_some]
    have hh' : (⟨v', Function.update s.threads i (some (next h q r, k r))⟩ : Polls).histories i =
        some (next h q r) := by
      rw [Pool.histories_update, Function.update_self]
      rfl
    cases q with
    | base q =>
      have hb : (h.base q r).broken = false := hok.unbroken i _ hh'
      exact ⟨⟨known_of_open ha.opened (pollEnv_base he).1, hb⟩, ha.base hh hguar (by exact he) hb hok⟩
    | cursorEnsure cursor =>
      obtain ⟨hw, hc⟩ := pollEnv_cursor (.inl ⟨_, rfl⟩) he
      exact ⟨trivial, ha.quiet hh hguar hw hc hguar fun _ => .inl⟩
    | cursorAdvance id watermark =>
      obtain ⟨hw, hc⟩ := pollEnv_cursor (.inr (.inl ⟨_, _, rfl⟩)) he
      exact ⟨trivial, ha.quiet hh hguar.1 hw hc hguar.1 fun _ => .inl⟩
    | cursorRecordFailure id message =>
      obtain ⟨hw, hc⟩ := pollEnv_cursor (.inr (.inr ⟨_, _, rfl⟩)) he
      exact ⟨trivial, ha.quiet hh hguar hw hc hguar fun _ => .inl⟩
    | eventClaim connectionId key entry =>
      obtain ⟨hidle, hpoller, rfl, rfl, hlisted⟩ := hguar
      exact ⟨trivial, ha.claim hh hidle hpoller he fun stored hs => hok.same stored entry hs hlisted⟩
    | statementList query =>
      obtain ⟨hw, hpage⟩ := pollEnv_list he
      refine ⟨⟨hpage, hok.few i _ _ hh' rfl⟩, ?_⟩
      rw [hw]
      exact ha.quiet hh hguar rfl rfl hguar fun _ => .inl

/-- No program runs yet, and what has been claimed before has been applied. -/
structure Start (a : Polled) (s : Polls) : Prop where
  threads : ∀ i, s.threads i = none
  opened : Open a s.world.world
  claimed : ∀ key entry, s.world.claimed.get (a.connectionId, key) = some entry →
    Applied a s.world.world entry

/-- A poller that is about to advance the watermark has read a statement, and
every credit that the statement holds for those days has been applied. -/
def Complete (statement : Statement) (a : Polled) (s : Polls) (i : Nat) : Prop :=
  ∀ h id watermark k, s.threads i = some (h, .call (.cursorAdvance id watermark) k) →
    (polls statement a).allowed s i → ∃ query, h.window = some query ∧
      ∀ entry, Holds statement query entry → entry.direction = .credit → Applied a s.world.world entry

theorem Start.accounted {s : Polls} (hs : Start a s) : Accounted a s.world s.histories := by
  have hnone : ∀ j k, s.histories j ≠ some k := by
    intro j k hj
    rw [Pool.histories, hs.threads, Option.map_none] at hj
    cases hj
  exact ⟨hs.opened, fun key entry hc => .inl (hs.claimed key entry hc),
    fun j k _ hj => absurd hj (hnone j k), fun j k _ hj => absurd hj (hnone j k),
    fun j k hj => absurd hj (hnone j k)⟩

/-- In every smooth run, no poller advances past a credit that has not been applied. -/
theorem watermark_skips_nothing {s s' : Polls} (hs : Start a s)
    (hrun : (polls statement a).Under (Smooth statement a) s s') (i : Nat) :
    Complete statement a s' i := by
  have hends : System.Ends (polling statement a) (fun h _ => h.applying = none) s := by
    intro j h p hj
    rw [hs.threads] at hj
    cases hj
  obtain ⟨hends', ha⟩ := accounted_maintained.under hrun hends hs.accounted
  intro h id watermark k hi hallowed
  have hh : s'.histories i = some h := by rw [Pool.histories, hi, Option.map_some]
  obtain ⟨⟨hidle, hpoller, query, hw, hdrained⟩, _⟩ := hends' i h _ hi
  refine ⟨query, hw, fun entry hholds hc => ?_⟩
  obtain ⟨key, hkey⟩ := ha.known i h entry hh (.inl (hdrained entry hholds hc))
  obtain hap | ⟨j, h', hj, hap⟩ := ha.claimed key entry hkey
  · exact hap
  · have hne : j ≠ i := by
      rintro rfl
      rw [hh, Option.some.injEq] at hj
      rw [← hj, hidle] at hap
      cases hap
    have hpoller' := ha.pollers j h' hj (by simp [hap])
    obtain ⟨⟨h'', p⟩, ht, hfst⟩ := Option.map_eq_some_iff.mp hj
    obtain rfl : h'' = h' := hfst
    have hend := hends' j h'' p ht
    cases p with
    | call q' k' => exact absurd ⟨hpoller, hpoller'⟩ (hallowed j h h'' _ q' k k' hne hi ht)
    | pure x =>
      have hidle' : h''.applying = none := hend
      rw [hidle'] at hap
      cases hap
    | throw e =>
      have hidle' : h''.applying = none := hend
      rw [hidle'] at hap
      cases hap

section Sample

open BaasConnector.Pix.HoldResolution

/-- One program that runs alone. -/
def alone (v : PollWorld) (h : History) (p : PollFlow Unit) : Polls :=
  ⟨v, Function.update (fun _ => none) 0 (some (h, p))⟩

/-- Run one program against a script, with a condition on what it goes through. -/
def Scripted (statement : Statement) (good : PollWorld → History → Prop)
    (goal : PollWorld → History → PollFlow Unit → Prop) :
    List PollChoice → PollWorld → History → PollFlow Unit → Prop
  | [], v, h, p => goal v h p
  | c :: cs, v, h, .call q k =>
    match pollAnswer statement c q v with
    | some (r, v') => good v' (next h q r) ∧ Scripted statement good goal cs v' (next h q r) (k r)
    | none => False
  | _ :: _, _, _, _ => False

theorem alone_step {q : PollCall} {k : Except Thrown (PollAnswer q) → PollFlow Unit}
    {r : Except Thrown (PollAnswer q)} (he : pollEnv statement v q r v') :
    (polls statement a).Step (alone v h (.call q k)) (alone v' (next h q r) (k r)) := by
  have hallowed : (polls statement a).allowed (alone v h (.call q k)) 0 := by
    intro j _ _ _ _ _ _ hj _ ht
    simp only [alone, Function.update_of_ne hj] at ht
    cases ht
  have hstep : (polls statement a).Step (alone v h (.call q k)) _ := .resume 0 rfl hallowed he
  rw [alone, Function.update_idem] at hstep
  exact hstep

theorem under_of_scripted (a : Polled) (ok : Polls → Polls → Prop)
    (good : PollWorld → History → Prop) (goal : PollWorld → History → PollFlow Unit → Prop)
    (cs : List PollChoice) {p : PollFlow Unit}
    (hok : ∀ v h p v' h' p', good v h → good v' h' → ok (alone v h p) (alone v' h' p'))
    (hgood : good v h) (hs : Scripted statement good goal cs v h p) :
    ∃ v' h' p', (polls statement a).Under ok (alone v h p) (alone v' h' p') ∧ goal v' h' p' := by
  induction cs generalizing v h p with
  | nil => exact ⟨v, h, p, .refl, hs⟩
  | cons c cs ih =>
    cases p with
    | pure x => exact hs.elim
    | throw e => exact hs.elim
    | call q k =>
      rw [Scripted] at hs
      split at hs
      · next r v' hr =>
        obtain ⟨v'', h'', p'', hrun, hgoal⟩ := ih hs.1 hs.2
        exact ⟨v'', h'', p'', .head ⟨alone_step ⟨c, hr⟩, hok _ _ _ _ _ _ hgood hs.1⟩ hrun, hgoal⟩
      · exact hs.elim

def samplePolled : Polled := ⟨"con_1", "acc_1", "MOCK_BANK", "pac_1", "lac_1"⟩

/-- The 100.00 of the funded ledger, as the statement has it. -/
def sampleEntry : StatementEntry := ⟨"MB-1", 1900, .credit, 10000, some "E0", some "ptx_0"⟩

def sampleStatement : Statement := fun _ => ⟨[sampleEntry], false, none⟩

def sampleRow : TransactionRecord :=
  storedTransaction (inboundDraft ⟨"con_1", "MOCK_BANK", 2000, none⟩
    (toInboundDraft sampleEntry "pac_1") (inboundData sampleEntry "pac_1") "acc_1" "txn_0" "ltx_0" 1900)

/-- The entry has been claimed and applied by an earlier run. -/
def appliedWorld : PollWorld :=
  ⟨{ sampleWorld fundedLedger with transactions := Rows.empty.put sampleRow }, .empty,
    Table.empty.set ("con_1", "poll:MB-1") sampleEntry⟩

/-- Nothing has been claimed. -/
def freshWorld : PollWorld := ⟨sampleWorld fundedLedger, .empty, .empty⟩

def samplePoll : PollFlow Unit := (poll "con_1" "acc_1").bind fun _ => .pure ()

/-- The thread is about to advance the watermark. -/
def Advancing (_ : PollWorld) (_ : History) (p : PollFlow Unit) : Prop :=
  ∃ id watermark k, p = .call (.cursorAdvance id watermark) k

theorem sample_open {w : World} (hprovider : w.provider = sampleProvider)
    (haccounts : w.accounts = Rows.empty.put sampleAccount) : Open samplePolled w := by
  refine ⟨by rw [hprovider]; rfl, by rw [haccounts]; exact ⟨sampleAccount, rfl, rfl, rfl, rfl⟩, ?_⟩
  intro id record hr _ _
  rw [haccounts, Rows.get_put] at hr
  split at hr
  · next hid => exact hid
  · cases hr

theorem sample_applied : Applied samplePolled appliedWorld.world sampleEntry :=
  ⟨"txn_0", sampleRow, rfl, .inl ⟨rfl, rfl⟩, rfl, "ptx_0", rfl, "ltx_0", _, rfl, rfl, rfl, rfl, rfl,
    by decide⟩

def emptyPool (v : PollWorld) : Polls := ⟨v, fun _ => none⟩

theorem appliedWorld_start : Start samplePolled (emptyPool appliedWorld) where
  threads _ := rfl
  opened := sample_open rfl rfl
  claimed key entry h := by
    change (Table.empty.set ("con_1", "poll:MB-1") sampleEntry).get _ = _ at h
    rw [Table.get_set] at h
    split at h
    · rw [← Option.some.inj h]
      exact sample_applied
    · cases h

theorem alone_histories {p : PollFlow Unit} {j : Nat} {h' : History}
    (hj : (alone v h p).histories j = some h') : h' = h := by
  rw [alone, Pool.histories_update] at hj
  by_cases hj0 : j = 0
  · rw [hj0, Function.update_self] at hj
    exact (Option.some.inj hj).symm
  · rw [Function.update_of_ne hj0] at hj
    cases hj

/-- Nothing is under way, and the connector stays as it is. -/
theorem sample_smooth {s s' : Polls} (hidle : ∀ j h, s.histories j = some h → h.applying = none)
    (hbroken : ∀ j h, s'.histories j = some h → h.broken = false)
    (hclaimed : s.world.claimed = appliedWorld.claimed)
    (hworld : s'.world.world = s.world.world) : Smooth sampleStatement samplePolled s s' where
  unbroken := hbroken
  kept j h entry hj hap := by
    rw [hidle j h hj] at hap
    cases hap
  own j h entry hj hap := by
    rw [hidle j h hj] at hap
    cases hap
  key j h entry hj hap := by
    rw [hidle j h hj] at hap
    cases hap
  same stored entry hs hl := by
    obtain ⟨query, _, hentry⟩ := hl
    rw [List.mem_singleton.mp hentry]
    rw [hclaimed] at hs
    change (Table.empty.set ("con_1", "poll:MB-1") sampleEntry).get _ = _ at hs
    rw [Table.get_set] at hs
    split at hs
    · exact (Option.some.inj hs).symm
    · cases hs
  few _ _ query _ _ := nthPage_none (k := 1) rfl (by decide)
  stable id t t' e2e ht ht' _ he := by
    rw [hworld, ht, Option.some.injEq] at ht'
    exact ht' ▸ he

/-- Between the calls, nothing is under way and the world is as it was. -/
def Settled (v : PollWorld) (h : History) : Prop :=
  h.applying = none ∧ h.broken = false ∧ v.claimed = appliedWorld.claimed ∧
    v.world = appliedWorld.world

/-- A run that finds the entry claimed and applied. -/
theorem watermark_skips_nothing_applied :
    ∃ s, Complete sampleStatement samplePolled s 0 ∧
      ∃ h id watermark k, s.threads 0 = some (h, .call (.cursorAdvance id watermark) k) := by
  have hspawn : (polls sampleStatement samplePolled).Step (emptyPool appliedWorld)
      (alone appliedWorld (.start true) samplePoll) := .spawn 0 rfl (.inl ⟨rfl, rfl⟩)
  have hnone : ∀ j h, (emptyPool appliedWorld).histories j = some h → h.applying = none := by
    intro j h hj
    cases hj
  have hfirst : Smooth sampleStatement samplePolled (emptyPool appliedWorld)
      (alone appliedWorld (.start true) samplePoll) :=
    sample_smooth hnone (fun _ _ hj => by rw [alone_histories hj]; rfl) rfl rfl
  have hgood : ∀ v h (p : PollFlow Unit) v' h' (p' : PollFlow Unit), Settled v h → Settled v' h' →
      Smooth sampleStatement samplePolled (alone v h p) (alone v' h' p') := by
    intro v h p v' h' p' hs hs'
    refine sample_smooth (fun _ _ hj => ?_) (fun _ _ hj => ?_) hs.2.2.1 (hs'.2.2.2.trans hs.2.2.2.symm)
    · rw [alone_histories hj]
      exact hs.1
    · rw [alone_histories hj]
      exact hs'.2.1
  have hscript : Scripted sampleStatement Settled Advancing (List.replicate 8 {}) appliedWorld
      (.start true) samplePoll :=
    ⟨⟨rfl, rfl, rfl, rfl⟩, ⟨rfl, rfl, rfl, rfl⟩, ⟨rfl, rfl, rfl, rfl⟩, ⟨rfl, rfl, rfl, rfl⟩,
      ⟨rfl, rfl, rfl, rfl⟩, ⟨rfl, rfl, rfl, rfl⟩, ⟨rfl, rfl, rfl, rfl⟩, ⟨rfl, rfl, rfl, rfl⟩,
      _, _, _, rfl⟩
  obtain ⟨v, h, p, hrun, id, watermark, k, rfl⟩ := under_of_scripted samplePolled
    (Smooth sampleStatement samplePolled) Settled Advancing _ hgood ⟨rfl, rfl, rfl, rfl⟩ hscript
  exact ⟨_, watermark_skips_nothing appliedWorld_start (.head ⟨hspawn, hfirst⟩ hrun) 0, h, id, watermark,
    k, rfl⟩

/-- A poller that has drained the statement and stored no transaction. -/
def Skipping (v : PollWorld) (h : History) (p : PollFlow Unit) : Prop :=
  Advancing v h p ∧ v.world.transactions = .empty

/-- The lock of the entry is held elsewhere, and the watermark moves on past it. -/
theorem locked_entry_skipped :
    ¬ ∀ (statement : Statement) (a : Polled) (s s' : Polls), Start a s →
      (polls statement a).Reaches s s' → ∀ i, Complete statement a s' i := by
  intro hall
  have hstart : Start samplePolled (emptyPool freshWorld) :=
    ⟨fun _ => rfl, sample_open rfl rfl, fun _ _ h => by cases h⟩
  have hspawn : (polls sampleStatement samplePolled).Step (emptyPool freshWorld)
      (alone freshWorld (.start true) samplePoll) := .spawn 0 rfl (.inl ⟨rfl, rfl⟩)
  have hscript : Scripted sampleStatement (fun _ _ => True) Skipping
      (List.replicate 8 ({} : PollChoice) ++ [{ base := { granted := false } }]) freshWorld
        (.start true) samplePoll :=
    ⟨trivial, trivial, trivial, trivial, trivial, trivial, trivial, trivial, trivial, ⟨_, _, _, rfl⟩, rfl⟩
  obtain ⟨v, h, p, hrun, ⟨id, watermark, k, rfl⟩, hempty⟩ := under_of_scripted samplePolled
    (fun _ _ => True) (fun _ _ => True) Skipping _ (fun _ _ _ _ _ _ _ _ => trivial) trivial hscript
  have hreach : (polls sampleStatement samplePolled).Reaches (emptyPool freshWorld)
      (alone v h (.call (.cursorAdvance id watermark) k)) :=
    .head hspawn (Relation.ReflTransGen.mono (fun _ _ h => h.1) _ _ hrun)
  have hallowed : (polls sampleStatement samplePolled).allowed
      (alone v h (.call (.cursorAdvance id watermark) k)) 0 := by
    intro j _ _ _ _ _ _ hj _ ht
    simp only [alone, Function.update_of_ne hj] at ht
    cases ht
  obtain ⟨query, _, happlied⟩ := hall _ _ _ _ hstart hreach 0 h id watermark k rfl hallowed
  obtain ⟨_, t, ht, _⟩ := happlied sampleEntry ⟨0, _, rfl, List.mem_singleton_self _⟩ rfl
  change v.world.transactions.get _ = _ at ht
  rw [hempty] at ht
  cases ht

end Sample

end BaasConnector.Worker.PollRuns
