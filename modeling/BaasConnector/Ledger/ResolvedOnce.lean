import BaasConnector.Ledger.Commits
import BaasConnector.Ledger.Turns

namespace BaasConnector.Ledger.ResolvedOnce

open BaasConnector.Lib.Effects BaasConnector.Lib.Keyed BaasConnector.Ledger.Types
open BaasConnector.Ledger.Engine BaasConnector.Ledger.Outcomes BaasConnector.Ledger.Counters
open BaasConnector.Ledger.Postgres BaasConnector.Ledger.Resolvers BaasConnector.Ledger.Commits
open BaasConnector.Ledger.Turns

theorem stage_of_accounts {db db' : Database} {hold : String} {inputs : List LedgerEntryInput}
    {c : Resolve} {s : Session} (h : Stage db hold inputs c s)
    (hlocked : ∀ k ∈ s.locks, db'.accounts.get k = db.accounts.get k)
    (hnone : ∀ k, db.accounts.get k = none → db'.accounts.get k = none) :
    Stage db' hold inputs c s := by
  have htaken : ∀ {ids locks rows}, Taken db ids locks rows →
      (∀ k ∈ locks, db'.accounts.get k = db.accounts.get k) → Taken db' ids locks rows := by
    intro ids locks rows ht hl
    have hsame : ∀ k ∈ ids, db'.accounts.get k = db.accounts.get k := by
      intro k hk
      cases ha : db.accounts.get k with
      | none => exact hnone k ha
      | some a => rw [hl k (ht.locked k hk (by rw [ha]; rfl)), ha]
    constructor
    · intro k
      rw [ht.rows]
      split
      · next hk => exact (hsame k hk).symm
      · rfl
    · intro k hk hsome
      rw [hsame k hk] at hsome
      exact ht.locked k hk hsome
  have hbuilt : ∀ {pending entries after locks}, Built db hold inputs c pending entries after locks →
      (∀ k ∈ locks, db'.accounts.get k = db.accounts.get k) →
      Built db' hold inputs c pending entries after locks := by
    intro pending entries after locks ⟨hid, rows, ht, hb⟩ hl
    exact ⟨hid, rows, htaken ht hl, hb⟩
  cases h with
  | asking => exact .asking
  | answered r => exact .answered r
  | failed e locks => exact .failed e locks
  | finding => exact .finding
  | reading pending hid => exact .reading pending hid
  | locking pending hid => exact .locking pending hid
  | collecting pending hid ids rest locks rows hids ht =>
    exact .collecting pending hid ids rest locks rows hids (htaken ht hlocked)
  | writing pending entries after locks hb =>
    exact .writing pending entries after locks (hbuilt hb hlocked)
  | settling pending entries after locks hb =>
    exact .settling pending entries after locks (hbuilt hb hlocked)
  | closing r pending entries after locks hb =>
    exact .closing r pending entries after locks (hbuilt hb hlocked)
  | committed prog writes => exact .committed prog writes
  | rolledBack prog => exact .rolledBack prog

section Session

variable {db : Database} {hold : String} {inputs : List LedgerEntryInput} {c : Resolve} {s s' : Session}
  {locked : String → Prop} {written : LedgerTransaction → Prop}

theorem step_progress (h : SessionStep db locked written s s') :
    s.progress = .running ∧ s'.progress ≠ .committed := by
  cases h <;> exact ⟨rfl, by simp⟩

theorem step_locks (h : SessionStep db locked written s s') {k : String} (hk : k ∈ s'.locks) :
    k ∈ s.locks ∨ ¬ locked k := by
  cases h with
  | lockRow hrow hfree =>
    obtain rfl | hk := List.mem_cons.mp hk
    · exact .inr hfree
    · exact .inl hk
  | write hadmits hfree hclear =>
    obtain hk | hk := List.mem_append.mp hk
    · obtain ⟨a, ha, rfl⟩ := List.mem_map.mp hk
      exact .inr (hfree a ha)
    · exact .inl hk
  | rollBack => cases hk
  | read hread => exact .inl hk
  | beginLock => exact .inl hk
  | skipRow hrow => exact .inl hk
  | endLock => exact .inl hk

/-- The first write of a call finds the hold resolved by nobody. -/
theorem step_writes (hstage : Stage db hold inputs c s) (h : SessionStep db locked written s s')
    (hw : s'.writes ≠ []) : s.writes ≠ [] ∨ ∃ pending,
      (db.transactions.get c.mint.transactionId = none → db.UniqueIn (c.row hold pending)) ∧
      ∀ u, written u → ¬ Clash (c.row hold pending) u := by
  cases hstage with
  | settling => exact .inl (by simp)
  | closing => exact .inl (by simp)
  | writing pending entries after locks hbuilt =>
    cases h with
    | read hread => cases hread
    | write hadmits hfree hclear => exact .inr ⟨pending, hadmits.1, hclear⟩
    | rollBack => exact absurd rfl hw
  | committed => cases h
  | rolledBack => cases h
  | collecting =>
    cases h with
    | lockRow => exact absurd rfl hw
    | skipRow => exact absurd rfl hw
    | endLock => exact absurd rfl hw
    | rollBack => exact absurd rfl hw
  | locking =>
    cases h with
    | read => exact absurd rfl hw
    | beginLock => exact absurd rfl hw
    | rollBack => exact absurd rfl hw
  | answered =>
    cases h with
    | rollBack => exact absurd rfl hw
  | failed =>
    cases h with
    | rollBack => exact absurd rfl hw
  | _ =>
    cases h with
    | read => exact absurd rfl hw
    | rollBack => exact absurd rfl hw

/-- Whoever has written has written the resolution of the hold. -/
theorem stage_resolution (h : Stage db hold inputs c s) (hrunning : s.progress = .running)
    (hw : s.writes ≠ []) : ∃ w ∈ s.writes, w.transaction.pendingTransactionId = some hold := by
  cases h with
  | settling => exact ⟨_, List.mem_cons_self, rfl⟩
  | closing => exact ⟨_, List.mem_cons_self, rfl⟩
  | committed => cases hrunning
  | _ => exact absurd rfl hw

theorem stage_rolledBack (h : Stage db hold inputs c s) (hback : s.progress = .rolledBack) :
    s.writes = [] := by
  cases h with
  | rolledBack => rfl
  | _ => cases hback

end Session

variable {ι : Type} {base : Database} {hold : String} {calls : ι → Resolve}
  {σ τ : State ι}

def started (base : Database) (hold : String) (calls : ι → Resolve) : State ι :=
  ⟨base, fun i => .start ((calls i).prog hold)⟩

/-- The call has committed a resolution of its own. -/
def Resolved (σ : State ι) (i : ι) : Prop :=
  (σ.sessions i).progress = .committed ∧ (σ.sessions i).writes ≠ []

/-- The hold is there, and no call draws an id that is in use. -/
structure Fresh (base : Database) (hold : String) (calls : ι → Resolve) : Prop where
  hold : base.transactions.get hold ≠ none
  unused : ∀ i, base.transactions.get (calls i).mint.transactionId = none
  distinct : ∀ i j, (calls i).mint.transactionId = (calls j).mint.transactionId → i = j

/-- At most one call has written, and the committed accounts are the first ones
until it commits, and then those with the hold resolved. -/
structure Safe (base : Database) (hold : String) (calls : ι → Resolve) (σ : State ι) : Prop where
  stages : ∀ i, Stage σ.db hold (holdInputs base hold) (calls i) (σ.sessions i)
  inputs : holdInputs σ.db hold = holdInputs base hold
  exclusive : ∀ i j k, i ≠ j → k ∈ (σ.sessions i).locks → k ∉ (σ.sessions j).locks
  single : ∀ i j, (σ.sessions i).writes ≠ [] → (σ.sessions j).writes ≠ [] → i = j
  unused : ∀ i, ¬ Resolved σ i → σ.db.transactions.get (calls i).mint.transactionId = none
  recorded : ∀ i, Resolved σ i → ∃ t, σ.db.transactions.get (calls i).mint.transactionId = some t ∧
    t.pendingTransactionId = some hold
  untouched : (∀ i, ¬ Resolved σ i) → σ.db = base
  settled : ∀ i, Resolved σ i → Settled base σ.db (holdInputs base hold) (calls i).commit

theorem Fresh.ne_hold (h : Fresh base hold calls) (i : ι) : (calls i).mint.transactionId ≠ hold := by
  intro he
  exact h.hold (he ▸ h.unused i)

theorem Safe.start (hfresh : Fresh base hold calls) : Safe base hold calls (started base hold calls) := by
  have hnone : ∀ i, ¬ Resolved (started base hold calls) i := fun i hr => hr.2 rfl
  refine ⟨fun i => ?_, rfl, fun i j k _ hk => ?_, fun i j hw => absurd rfl hw, fun i _ => hfresh.unused i,
    fun i hr => absurd hr (hnone i), fun _ => rfl, fun i hr => absurd hr (hnone i)⟩
  · change Stage base hold _ _ (.start ((calls i).prog hold))
    rw [prog_eq]
    exact .asking
  · cases hk

/-- A call that comes to write its resolution is the first to do so. -/
theorem Safe.first (hsafe : Safe base hold calls σ) {i : ι} {s : Session}
    (h : SessionStep σ.db (σ.Locked i) (σ.Written i) (σ.sessions i) s) (hw : s.writes ≠ []) {j : ι}
    (hwj : (σ.sessions j).writes ≠ []) : j = i := by
  obtain ⟨hrunning, -⟩ := step_progress h
  by_contra hj
  obtain hwi | ⟨pending, hunique, hclear⟩ := step_writes (hsafe.stages i) h hw
  · exact hj (hsafe.single j i hwj hwi)
  · cases hp : (σ.sessions j).progress with
    | running =>
      obtain ⟨w, hmem, hhold⟩ := stage_resolution (hsafe.stages j) hp hwj
      exact hclear w.transaction ⟨j, hj, hp, w, hmem, rfl⟩ (.inr (.inr ⟨rfl, hhold.symm⟩))
    | committed =>
      obtain ⟨t, ht, hhold⟩ := hsafe.recorded j ⟨hp, hwj⟩
      have hopen : ¬ Resolved σ i := fun hr => by simp [Resolved, hrunning] at hr
      have hkeys := hunique (hsafe.unused i hopen) t (Table.mem_values.mpr ⟨_, ht⟩)
      exact hkeys.2 rfl hhold
    | rolledBack => exact hwj (stage_rolledBack (hsafe.stages j) hp)

variable [DecidableEq ι]

theorem Safe.session (hsafe : Safe base hold calls σ) {i : ι} {s : Session}
    (h : SessionStep σ.db (σ.Locked i) (σ.Written i) (σ.sessions i) s) :
    Safe base hold calls ⟨σ.db, Function.update σ.sessions i s⟩ := by
  obtain ⟨hrunning, hopen⟩ := step_progress h
  have hresolved : ∀ j, Resolved ⟨σ.db, Function.update σ.sessions i s⟩ j ↔ Resolved σ j := by
    intro j
    by_cases hj : j = i
    · subst hj
      simp [Resolved, hrunning, hopen]
    · simp [Resolved, hj]
  have hlocks : ∀ j k, j ≠ i → k ∈ s.locks → k ∉ (σ.sessions j).locks := by
    intro j k hj hk
    obtain hk | hfree := step_locks h hk
    · exact hsafe.exclusive i j k (Ne.symm hj) hk
    · exact fun hkj => hfree ⟨j, hj, hkj⟩
  refine ⟨fun j => ?_, hsafe.inputs, fun j j' k hne hk => ?_, fun j j' hw hw' => ?_, fun j hr => ?_,
    fun j hr => ?_, fun hr => ?_, fun j hr => ?_⟩
  · by_cases hj : j = i
    · subst hj
      simpa using (hsafe.stages j).step hsafe.inputs h
    · simpa [hj] using hsafe.stages j
  · by_cases hj : j = i
    · subst hj
      simp only [Function.update_self] at hk
      simpa [Ne.symm hne] using hlocks j' k (Ne.symm hne) hk
    · simp only [Function.update_of_ne hj] at hk
      by_cases hj' : j' = i
      · subst hj'
        simp only [Function.update_self]
        exact fun hk' => hlocks j k hj hk' hk
      · simpa [hj'] using hsafe.exclusive j j' k hne hk
  · by_cases hj : j = i
    · subst hj
      by_cases hj' : j' = j
      · exact hj'.symm
      · simp only [Function.update_self] at hw
        simp only [Function.update_of_ne hj'] at hw'
        exact (hsafe.first h hw hw').symm
    · simp only [Function.update_of_ne hj] at hw
      by_cases hj' : j' = i
      · subst hj'
        simp only [Function.update_self] at hw'
        exact hsafe.first h hw' hw
      · simp only [Function.update_of_ne hj'] at hw'
        exact hsafe.single j j' hw hw'
  · exact hsafe.unused j fun hr' => hr ((hresolved j).mpr hr')
  · exact hsafe.recorded j ((hresolved j).mp hr)
  · exact hsafe.untouched fun j hr' => hr j ((hresolved j).mpr hr')
  · exact hsafe.settled j ((hresolved j).mp hr)

theorem Safe.commitRead (hsafe : Safe base hold calls σ) {i : ι} {r : PostTransactionResult}
    (hs : σ.sessions i = ⟨.pure r, none, [], [], .running⟩) :
    Safe base hold calls
      ⟨σ.db, Function.update σ.sessions i ⟨.pure r, none, [], [], .committed⟩⟩ := by
  have hresolved : ∀ j, Resolved ⟨σ.db, Function.update σ.sessions i ⟨.pure r, none, [], [], .committed⟩⟩ j ↔
      Resolved σ j := by
    intro j
    by_cases hj : j = i
    · subst hj
      simp [Resolved, hs]
    · simp [Resolved, hj]
  have hlocks : ∀ j, (Function.update σ.sessions i ⟨.pure r, none, [], [], .committed⟩ j).locks =
      (σ.sessions j).locks := by
    intro j
    by_cases hj : j = i
    · subst hj
      simp [hs]
    · simp [hj]
  have hwrites : ∀ j, (Function.update σ.sessions i ⟨.pure r, none, [], [], .committed⟩ j).writes =
      (σ.sessions j).writes := by
    intro j
    by_cases hj : j = i
    · subst hj
      simp [hs]
    · simp [hj]
  refine ⟨fun j => ?_, hsafe.inputs, fun j j' k => ?_, fun j j' => ?_, fun j hr => ?_, fun j hr => ?_,
    fun hr => ?_, fun j hr => ?_⟩
  · by_cases hj : j = i
    · subst hj
      simpa using Stage.committed (.pure r) []
    · simpa [hj] using hsafe.stages j
  · simpa only [hlocks] using hsafe.exclusive j j' k
  · simpa only [hwrites] using hsafe.single j j'
  · exact hsafe.unused j fun hr' => hr ((hresolved j).mpr hr')
  · exact hsafe.recorded j ((hresolved j).mp hr)
  · exact hsafe.untouched fun j hr' => hr j ((hresolved j).mpr hr')
  · exact hsafe.settled j ((hresolved j).mp hr)

theorem Safe.commitWrite (hfresh : Fresh base hold calls) (hsafe : Safe base hold calls σ) {i : ι}
    {r : PostTransactionResult} {pending : LedgerTransaction} {entries : List LedgerEntry}
    {after : Accounts} {locks : List String} {writes : List Write}
    (hwrites : writes = [firstWrite hold (calls i) pending entries after, secondWrite (calls i) pending])
    (hbuilt : Built σ.db hold (holdInputs base hold) (calls i) pending entries after locks)
    (hs : σ.sessions i = ⟨.pure r, none, locks, writes, .running⟩) :
    Safe base hold calls
      ⟨σ.db.view writes, Function.update σ.sessions i ⟨.pure r, none, [], writes, .committed⟩⟩ := by
  have hne := hfresh.ne_hold i
  have hwrote : (σ.sessions i).writes ≠ [] := by simp [hs, hwrites]
  have hother : ∀ j, j ≠ i → (σ.sessions j).writes = [] := by
    intro j hj
    by_contra hw
    exact hj (hsafe.single j i hw hwrote)
  have hnone : ∀ j, ¬ Resolved σ j := by
    intro j hr
    by_cases hj : j = i
    · subst hj
      simp [Resolved, hs] at hr
    · exact hr.2 (hother j hj)
  have hresolved : ∀ j, Resolved ⟨σ.db.view writes,
      Function.update σ.sessions i ⟨.pure r, none, [], writes, .committed⟩⟩ j ↔ j = i := by
    intro j
    by_cases hj : j = i
    · subst hj
      simp [Resolved, hwrites]
    · simp [Resolved, hj, hother j hj]
  have hbase := hsafe.untouched hnone
  refine ⟨fun j => ?_, ?_, fun j j' k hjj hk => ?_, fun j j' hw hw' => ?_, fun j hr => ?_, fun j hr => ?_,
    fun hr => ?_, fun j hr => ?_⟩
  · by_cases hj : j = i
    · subst hj
      simpa using Stage.committed (.pure r) writes
    · have hkept : Stage (σ.db.view writes) hold (holdInputs base hold) (calls j) (σ.sessions j) := by
        apply stage_of_accounts (hsafe.stages j)
        · intro k hk
          have hout := hsafe.exclusive j i k hj hk
          rw [hs] at hout
          rw [hwrites]
          exact commit_unlocked hbuilt hout
        · intro k hk
          rw [hwrites]
          change (after.values.foldl updateAccount σ.db.accounts).get k = none
          exact updateAccounts_none hk
      simpa [hj] using hkept
  · rw [← hsafe.inputs, hwrites]
    exact commit_inputs hbuilt hne
  · by_cases hj : j = i
    · subst hj
      simp at hk
    · simp only [Function.update_of_ne hj] at hk
      by_cases hj' : j' = i
      · subst hj'
        simp
      · simpa [hj'] using hsafe.exclusive j j' k hjj hk
  · have hself : ∀ l, (Function.update σ.sessions i ⟨.pure r, none, [], writes, .committed⟩ l).writes ≠ [] →
        l = i := by
      intro l hl
      by_contra hli
      simp only [Function.update_of_ne hli] at hl
      exact hl (hother l hli)
    rw [hself j hw, hself j' hw']
  · have hj : j ≠ i := fun he => hr ((hresolved j).mpr he)
    rw [hwrites, commit_transactions hbuilt.1 (hfresh.ne_hold j) fun he => hj (hfresh.distinct j i he)]
    exact hsafe.unused j (hnone j)
  · rw [(hresolved j).mp hr, hwrites]
    exact ⟨_, commit_recorded hbuilt.1 hne (hsafe.unused i (hnone i)), rfl⟩
  · exact absurd ((hresolved i).mpr rfl) (hr i)
  · rw [(hresolved j).mp hr, hwrites]
    have hsettled := commit_settled hbuilt
    rw [hbase] at hsettled ⊢
    exact hsettled

theorem Safe.commit (hfresh : Fresh base hold calls) (hsafe : Safe base hold calls σ) {i : ι}
    {r : PostTransactionResult} {locks : List String} {writes : List Write}
    (hs : σ.sessions i = ⟨.pure r, none, locks, writes, .running⟩) :
    Safe base hold calls
      ⟨σ.db.view writes, Function.update σ.sessions i ⟨.pure r, none, [], writes, .committed⟩⟩ := by
  have hstage := hsafe.stages i
  rw [hs] at hstage
  cases hstage with
  | answered => exact hsafe.commitRead hs
  | closing _ pending entries after _ hbuilt => exact hsafe.commitWrite hfresh rfl hbuilt hs

theorem Safe.run (hfresh : Fresh base hold calls) (hrun : Runs (started base hold calls) σ) :
    Safe base hold calls σ := by
  induction hrun with
  | refl => exact Safe.start hfresh
  | tail _ hstep ih =>
    cases hstep with
    | session i h => exact ih.session h
    | commit i hs _ => exact ih.commit hfresh hs

/-- At most one call resolves the hold, and the committed counters are the first
ones, without the amounts of the hold as soon as a call has resolved it, and
with its posted amounts added if that call was a commit. -/
theorem resolved_at_most_once (hfresh : Fresh base hold calls)
    (hrun : Runs (started base hold calls) σ) :
    (∀ i j, Resolved σ i → Resolved σ j → i = j) ∧
    ((∀ i, ¬ Resolved σ i) → σ.db = base) ∧
    ∀ i, Resolved σ i → ∀ accountId phase direction,
      (σ.db.accounts.get accountId).map (counter · phase direction) =
        (base.accounts.get accountId).map fun a => counter a phase direction +
          match phase with
          | .PENDING => -inputsOn accountId direction (holdInputs base hold)
          | .POSTED =>
            if (calls i).commit then inputsOn accountId direction (holdInputs base hold) else 0 := by
  have hsafe := Safe.run hfresh hrun
  refine ⟨fun i j hi hj => hsafe.single i j hi.2 hj.2, hsafe.untouched,
    fun i hi accountId phase direction => ?_⟩
  rw [hsafe.settled i hi accountId phase direction]
  cases phase <;> simp only [changeOn_resolveDelta]

def sampleAccount (id : String) (normalBalance : NormalBalance) (allowsNegative : Bool)
    (creditsPosted debitsPending creditsPending : Int) : LedgerAccount :=
  { id, code := id, normalBalance, allowsNegative, debitsPosted := 0, creditsPosted, debitsPending,
    creditsPending, entryCount := 1, version := 1 }

def sampleHold : LedgerTransaction :=
  { id := "hold", type := .PIX_OUT_AUTHORIZE, status := .PENDING, currency := "BRL", amountCents := 60,
    idempotencyKey := "key", externalRef := none, description := none, pendingTransactionId := none,
    effectiveAt := 0, postedAt := none, voidedAt := none, metadata := [] }

def sampleEntry (accountId : String) (direction : EntryDirection) (sequence : Nat) : LedgerEntry :=
  { accountId, direction, amountCents := 60, id := accountId, transactionId := "hold", phase := .PENDING,
    currency := "BRL", sequence, resultingPostedCents := 0, effectiveAt := 0 }

/-- A customer with 100 of which 60 are held. -/
def sampleBase : Database where
  accounts := (Rows.empty.put (sampleAccount "customer" .CREDIT false 100 60 0)).put
    (sampleAccount "world" .DEBIT true 0 0 60)
  transactions := Rows.empty.put sampleHold
  entries := [sampleEntry "customer" .DEBIT 0, sampleEntry "world" .CREDIT 1]

/-- A commit and a void of the same hold. -/
def sampleCalls (i : Fin 2) : Resolve :=
  if i = 0 then ⟨⟨"r0", fun _ => "e0", 0⟩, ⟨"k0", none⟩, true⟩
  else ⟨⟨"r1", fun _ => "e1", 0⟩, ⟨"k1", none⟩, false⟩

/-- Both calls find the hold pending, and the second one waits for the locks. -/
def sampleTurns : List (Fin 2) := [0, 0, 0, 1, 1, 1, 0, 0, 1, 1, 0, 0, 0, 0, 0, 1, 1, 1, 1]

theorem sampleTurns_resolved :
    (Resolved (turns (started sampleBase "hold" sampleCalls) sampleTurns) 0 ∧
      ((turns (started sampleBase "hold" sampleCalls) sampleTurns).sessions 1).progress = .rolledBack ∧
      ((turns (started sampleBase "hold" sampleCalls) sampleTurns).db.accounts.get "customer").map
        (fun a => (a.debitsPosted, a.debitsPending)) = some (60, 0)) ∧
    ∀ i j, Resolved (turns (started sampleBase "hold" sampleCalls) sampleTurns) i →
      Resolved (turns (started sampleBase "hold" sampleCalls) sampleTurns) j → i = j :=
  ⟨by unfold Resolved; decide,
    (resolved_at_most_once ⟨by decide, by decide, by decide⟩ (turns_runs _ sampleTurns)).1⟩

end BaasConnector.Ledger.ResolvedOnce
