import BaasConnector.Ledger.Counters

namespace BaasConnector.Ledger.Books

open BaasConnector.Lib.Keyed BaasConnector.Ledger.Types BaasConnector.Ledger.Engine
open BaasConnector.Ledger.MemoryStore BaasConnector.Ledger.Outcomes BaasConnector.Ledger.Holds
open BaasConnector.Ledger.Adjustments BaasConnector.Ledger.Receipts
open BaasConnector.Ledger.Invariants BaasConnector.Ledger.Counters

/-- The entries of a phase count, those of a hold only while it is pending. -/
def Counts (status : Option LedgerTransactionStatus) (phase : PostPhase) : Prop :=
  phase = .PENDING → status = some .PENDING

instance (status : Option LedgerTransactionStatus) (phase : PostPhase) :
    Decidable (Counts status phase) := by
  unfold Counts
  infer_instance

/-- What the entries of one transaction account for in a counter. -/
def share (status : Option LedgerTransactionStatus) (phase : PostPhase) (direction : EntryDirection)
    (accountId : String) (entries : List LedgerEntry) : Int :=
  if Counts status phase then sumOn accountId direction (entries.filter (·.phase = phase.entryPhase))
  else 0

/-- What all entries account for in a counter. -/
def standing (s : LedgerStore) (phase : PostPhase) (direction : EntryDirection) (accountId : String) :
    Int :=
  s.entries.total fun k entries => share (holdStatus s k) phase direction accountId entries

/-- Every list of entries belongs to a transaction, is balanced and positive,
and names accounts that are there; a pending transaction has pending entries. -/
structure Filed (s : LedgerStore) : Prop where
  stored : ∀ k es, s.entries.get k = some es → (s.transactions.get k).isSome
  balanced : ∀ k es, s.entries.get k = some es → EntriesBalanced es
  owned : ∀ k es, s.entries.get k = some es → ∀ e ∈ es,
    e.transactionId = k ∧ 0 < e.amountCents ∧ (s.accounts.get e.accountId).isSome
  held : ∀ k es, s.entries.get k = some es → holdStatus s k = some .PENDING →
    ∀ e ∈ es, e.phase = .PENDING

structure Sound (s : LedgerStore) : Prop extends Filed s where
  counters : ∀ k a, s.accounts.get k = some a → ∀ phase direction,
    counter a phase direction = standing s phase direction k
  guarded : ∀ k a, s.accounts.get k = some a → violatesOverdraftGuard a = false

variable {s : LedgerStore} {t : LedgerTransaction} {es : List LedgerEntry}
  {accounts : List LedgerAccount} {phase : PostPhase} {direction : EntryDirection} {accountId : String}
  {delta : LedgerEntryInput → CounterDelta} {inputs : List LedgerEntryInput} {after : Accounts}

theorem sumOn_eq_inputsOn (hinputs : es.map (·.toLedgerEntryInput) = inputs) :
    sumOn accountId direction es = inputsOn accountId direction inputs := by
  rw [sumOn, sumOf, inputsOn, ← hinputs, List.filter_map]
  rfl

/-- Entries of one phase count in full in its counters, and not in the others. -/
theorem share_of_phase {status : Option LedgerTransactionStatus} {entryPhase : EntryPhase}
    (hinputs : es.map (·.toLedgerEntryInput) = inputs) (hphase : ∀ e ∈ es, e.phase = entryPhase) :
    share status phase direction accountId es =
      if Counts status phase ∧ entryPhase = phase.entryPhase then inputsOn accountId direction inputs
      else 0 := by
  unfold share
  by_cases hp : entryPhase = phase.entryPhase
  · have hall : es.filter (·.phase = phase.entryPhase) = es := by
      apply List.filter_eq_self.mpr
      intro e he
      simpa [hp] using hphase e he
    rw [hall, sumOn_eq_inputsOn hinputs]
    simp [hp]
  · have hnone : es.filter (·.phase = phase.entryPhase) = [] := by
      apply List.filter_eq_nil_iff.mpr
      intro e he
      simp [hphase e he, hp]
    rw [hnone]
    simp [hp, sumOn, sumOf, sumDirection]

theorem persist_holdStatus_self (t : LedgerTransaction) (es : List LedgerEntry)
    (accounts : List LedgerAccount) : holdStatus (s.persist t es accounts) t.id = some t.status := by
  have hget : (s.persist t es accounts).transactions.get t.id = some t := Rows.get_put_self _ t
  rw [holdStatus, hget, Option.map_some]

theorem persist_entries_get (hne : es ≠ [] ∨ s.entries.get t.id = none) (k : String) :
    (s.persist t es accounts).entries.get k =
      if k = t.id then (if es = [] then none else some es) else s.entries.get k := by
  unfold LedgerStore.persist
  by_cases he : es = []
  · have hnone := hne.resolve_left fun h => h he
    by_cases hk : k = t.id
    · simp [he, hk, hnone]
    · simp [he, hk]
  · have hempty : es.isEmpty = false := by simp [he]
    rw [if_neg (by simp [hempty]), Table.get_set]
    simp [he]

/-- A new transaction adds its own share to every counter. -/
theorem standing_persist (hnone : s.entries.get t.id = none) :
    standing (s.persist t es accounts) phase direction accountId =
      standing s phase direction accountId + share (some t.status) phase direction accountId es := by
  have hold : (s.entries.total fun k entries =>
      share (holdStatus (s.persist t es accounts) k) phase direction accountId entries) =
      standing s phase direction accountId := by
    apply Table.total_congr
    intro k entries hk
    have hne : k ≠ t.id := by
      rintro rfl
      rw [hnone] at hk
      cases hk
    rw [persist_holdStatus_of_ne es accounts hne]
  by_cases he : es = []
  · have hsame : (s.persist t es accounts).entries = s.entries := by simp [LedgerStore.persist, he]
    have hzero : share (some t.status) phase direction accountId es = 0 := by
      rw [share, he]
      simp [sumOn, sumOf, sumDirection]
    rw [hzero, Int.add_zero, ← hold, standing, hsame]
  · have hset : (s.persist t es accounts).entries = s.entries.set t.id es := by
      simp [LedgerStore.persist, he]
    rw [standing, hset, Table.total_set_new es hnone, hold, persist_holdStatus_self]

theorem Filed.entries_none (h : Filed s) (hfree : s.transactions.get t.id = none) :
    s.entries.get t.id = none := by
  cases hk : s.entries.get t.id with
  | none => rfl
  | some es =>
    have hsome := h.stored _ es hk
    rw [hfree] at hsome
    cases hsome

/-- What a new transaction must bring along. -/
structure Fits (s : LedgerStore) (t : LedgerTransaction) (inputs : List LedgerEntryInput)
    (es : List LedgerEntry) : Prop where
  fresh : s.transactions.get t.id = none
  given : es.map (·.toLedgerEntryInput) = inputs
  balanced : EntriesBalanced es
  positive : ∀ i ∈ inputs, 0 < i.amountCents
  owned : ∀ e ∈ es, e.transactionId = t.id
  held : t.status = .PENDING → ∀ e ∈ es, e.phase = .PENDING

theorem Filed.persist (h : Filed s) (hfits : Fits s t inputs es)
    (happly : applyDeltas delta inputs (s.lockAccounts (lockOrder inputs)) = some after) :
    Filed (s.persist t es after.values) := by
  have hnone := h.entries_none hfits.fresh
  have hget : ∀ {k es'}, (s.persist t es after.values).entries.get k = some es' →
      (k = t.id ∧ es' = es) ∨ (k ≠ t.id ∧ s.entries.get k = some es') := by
    intro k es' hk
    rw [persist_entries_get (.inr hnone)] at hk
    by_cases hkt : k = t.id
    · rw [if_pos hkt] at hk
      split at hk
      · cases hk
      · exact .inl ⟨hkt, (Option.some.inj hk).symm⟩
    · rw [if_neg hkt] at hk
      exact .inr ⟨hkt, hk⟩
  constructor
  · intro k es' hk
    obtain ⟨rfl, -⟩ | ⟨hne, hk⟩ := hget hk
    · have hself : (s.persist t es after.values).transactions.get t.id = some t :=
        Rows.get_put_self _ t
      rw [hself]
      rfl
    · rw [persist_get_of_ne es _ hne]
      exact h.stored k es' hk
  · intro k es' hk
    obtain ⟨-, rfl⟩ | ⟨-, hk⟩ := hget hk
    · exact hfits.balanced
    · exact h.balanced k es' hk
  · intro k es' hk e he
    obtain ⟨rfl, rfl⟩ | ⟨-, hk⟩ := hget hk
    · have hmem : e.toLedgerEntryInput ∈ inputs := by
        rw [← hfits.given]
        exact List.mem_map.mpr ⟨e, he, rfl⟩
      refine ⟨hfits.owned e he, hfits.positive _ hmem, setAccounts_isSome _ ?_⟩
      have hlocked := applyDeltas_exist (Option.isSome_iff_exists.mpr ⟨after, happly⟩) _ hmem
      rw [lockAccounts_get] at hlocked
      split at hlocked
      · exact hlocked
      · cases hlocked
    · obtain ⟨hid, hpos, hacc⟩ := h.owned k es' hk e he
      exact ⟨hid, hpos, setAccounts_isSome _ hacc⟩
  · intro k es' hk hpending
    obtain ⟨rfl, rfl⟩ | ⟨hne, hk⟩ := hget hk
    · rw [persist_holdStatus_self, Option.some.injEq] at hpending
      exact hfits.held hpending
    · rw [persist_holdStatus_of_ne es _ hne] at hpending
      exact h.held k es' hk hpending

theorem Sound.persist_account (h : Sound s) (t : LedgerTransaction) (es : List LedgerEntry)
    (happly : applyDeltas delta inputs (s.lockAccounts (lockOrder inputs)) = some after) {k : String}
    {a : LedgerAccount} (ha : (s.persist t es after.values).accounts.get k = some a) :
    violatesOverdraftGuard a = false ∧ ∀ phase direction, counter a phase direction =
      standing s phase direction k + changeOn delta k phase direction inputs := by
  obtain ⟨before, hbefore, hm⟩ := setAccounts_moved happly ha
  have hid : before.id = k := Rows.key_of_get hbefore
  refine ⟨hm.guarded (h.guarded k before hbefore), fun phase direction => ?_⟩
  rw [hm.counters, h.counters k before hbefore, hid]

/-- A posting keeps the books. -/
theorem Sound.post {posting : PostPhase} (h : Sound s) (hfits : Fits s t inputs es)
    (happly : applyDeltas (deltaFor posting) inputs (s.lockAccounts (lockOrder inputs)) = some after)
    (hphase : ∀ e ∈ es, e.phase = posting.entryPhase)
    (hstatus : posting = .PENDING → t.status = .PENDING) : Sound (s.persist t es after.values) := by
  refine ⟨h.toFiled.persist hfits happly, fun k a ha phase direction => ?_, fun k a ha => ?_⟩
  · rw [(h.persist_account t es happly ha).2, standing_persist (h.entries_none hfits.fresh),
      changeOn_deltaFor, share_of_phase hfits.given hphase]
    by_cases hp : phase = posting
    · have hcounts : Counts (some t.status) phase := fun he => by rw [hstatus (hp ▸ he)]
      simp [hp] at hcounts ⊢
      simp [hcounts]
    · have hne : posting.entryPhase ≠ phase.entryPhase := by
        cases posting <;> cases phase <;> simp_all [PostPhase.entryPhase]
      simp [hp, hne]
  · exact (h.persist_account t es happly ha).1

variable {id : String} {settled pending : LedgerTransaction}

theorem settle_holdStatus (hid : settled.id = id) (k : String) :
    holdStatus (s.persist settled [] []) k = if k = id then some settled.status else holdStatus s k := by
  by_cases hk : k = id
  · rw [if_pos hk, hk, ← hid]
    exact persist_holdStatus_self settled [] []
  · rw [if_neg hk]
    exact persist_holdStatus_of_ne [] [] (hid ▸ hk)

theorem Filed.settle (h : Filed s) (hid : settled.id = id) (hstatus : settled.status ≠ .PENDING) :
    Filed (s.persist settled [] []) := by
  refine ⟨fun k es hk => ?_, h.balanced, h.owned, fun k es hk hpending => ?_⟩
  · change ((s.transactions.put settled).get k).isSome
    rw [Rows.get_put]
    split
    · rfl
    · exact h.stored k es hk
  · rw [settle_holdStatus hid] at hpending
    split at hpending
    · exact absurd (Option.some.inj hpending) hstatus
    · exact h.held k es hk hpending

/-- A hold that is resolved takes its entries out of the pending counters. -/
theorem standing_settle (h : Filed s) (hid : settled.id = id) (hstatus : settled.status ≠ .PENDING)
    (hpending : holdStatus s id = some .PENDING) :
    standing (s.persist settled [] []) phase direction accountId =
      standing s phase direction accountId -
        if phase = .PENDING then inputsOn accountId direction (pendingInputs s id) else 0 := by
  have hother : ∀ k es, k ≠ id → s.entries.get k = some es →
      share (holdStatus (s.persist settled [] []) k) phase direction accountId es =
        share (holdStatus s k) phase direction accountId es := by
    intro k es hk _
    rw [settle_holdStatus hid, if_neg hk]
  change (s.entries.total fun k es =>
    share (holdStatus (s.persist settled [] []) k) phase direction accountId es) = _
  cases hes : s.entries.get id with
  | none =>
    have hnil : pendingInputs s id = [] := by simp [pendingInputs, LedgerStore.entriesOf, hes]
    have hsame : (s.entries.total fun k es =>
        share (holdStatus (s.persist settled [] []) k) phase direction accountId es) =
        standing s phase direction accountId := by
      apply Table.total_congr
      intro k es hk
      apply hother k es _ hk
      rintro rfl
      rw [hes] at hk
      cases hk
    rw [hsame, hnil]
    simp [inputsOn, sumDirection]
  | some es =>
    have hinputs : es.map (·.toLedgerEntryInput) = pendingInputs s id := by
      simp [pendingInputs, LedgerStore.entriesOf, hes]
    have hphase := h.held id es hes hpending
    rw [Table.total_replace hes hother, settle_holdStatus hid, if_pos rfl, hpending,
      share_of_phase hinputs hphase, share_of_phase hinputs hphase]
    change standing s phase direction accountId - _ + _ = _
    cases phase <;> simp [Counts, hstatus, PostPhase.entryPhase]

/-- The resolution of a hold keeps the books. -/
theorem Sound.resolve {mint : Mint} {options : ResolveOptions} {commit : Bool} (h : Sound s)
    (hp : s.transactions.get id = some pending) (hpending : pending.status = .PENDING)
    (hfresh : s.transactions.get mint.transactionId = none)
    (hb : resolveEntries mint id options commit pending s = .ok (es, after)) :
    Sound (resolved mint id options commit pending es after s) := by
  have hkey : pending.id = id := Rows.key_of_get hp
  have hid : (resolvedPending mint commit pending).id = id := hkey
  have hne : id ≠ mint.transactionId := fun he => by rw [← he, hp] at hfresh; cases hfresh
  have hstatus : holdStatus s id = some .PENDING := by rw [holdStatus, hp, Option.map_some, hpending]
  have hdone : (resolvedPending mint commit pending).status ≠ .PENDING := by
    cases commit <;> simp [resolvedPending]
  have hnew : (resolution mint id options commit pending).status ≠ .PENDING := by
    cases commit <;> simp [resolution]
  have hinputs := buildEntries_inputs _ _ _ _ hb
  have hphase := buildEntries_phase _ _ _ _ hb
  have happly := (deltas_of_buildEntries _ _ _ _ _ _ _ _ _ hb).1
  have hstored : ∀ i ∈ pendingInputs s id, 0 < i.amountCents := by
    intro i hi
    obtain ⟨e, he, rfl⟩ := List.mem_map.mp hi
    cases hes : s.entries.get id with
    | none => simp [LedgerStore.entriesOf, hes] at he
    | some es' =>
      rw [LedgerStore.entriesOf, hes, Option.getD_some] at he
      exact (h.owned id es' hes e he).2.1
  have hbalanced : EntriesBalanced es := by
    rw [EntriesBalanced, sumOf, sumOf, hinputs]
    cases hes : s.entries.get id with
    | none => simp [pendingInputs, LedgerStore.entriesOf, hes, sumDirection]
    | some es' =>
      have hbal := h.balanced id es' hes
      rw [pendingInputs, LedgerStore.entriesOf, hes, Option.getD_some]
      exact hbal
  have hfits : Fits s (resolution mint id options commit pending) (pendingInputs s id) es :=
    ⟨hfresh, hinputs, hbalanced, hstored, buildEntries_owned _ _ _ _ hb,
      fun hs => absurd hs hnew⟩
  have hfiled := h.toFiled.persist hfits happly
  have hnone := h.entries_none hfits.fresh
  have hkept : holdStatus (s.persist (resolution mint id options commit pending) es after.values) id =
      some .PENDING := (persist_holdStatus_of_ne es _ hne).trans hstatus
  have hkeptInputs : pendingInputs (s.persist (resolution mint id options commit pending) es
      after.values) id = pendingInputs s id := by
    rw [pendingInputs, persist_entriesOf_of_ne es _ hne]
    rfl
  refine ⟨hfiled.settle hid hdone, fun k a ha phase direction => ?_, fun k a ha => ?_⟩
  · have hcount := (h.persist_account (resolution mint id options commit pending) es happly ha).2 phase
      direction
    rw [hcount, resolved, standing_settle hfiled hid hdone hkept, standing_persist hnone, hkeptInputs,
      changeOn_resolveDelta, share_of_phase hinputs hphase]
    cases phase <;> cases commit <;>
      simp [Counts, resolution, resolvePhase, PostPhase.entryPhase] <;> omega
  · exact (h.persist_account (resolution mint id options commit pending) es happly ha).1

end BaasConnector.Ledger.Books
