import BaasConnector.Ledger.Reachable

namespace BaasConnector.Ledger.Consistency

open BaasConnector.Lib.Effects BaasConnector.Lib.Keyed BaasConnector.Ledger.Types
open BaasConnector.Ledger.Engine BaasConnector.Ledger.MemoryStore BaasConnector.Ledger.Holds
open BaasConnector.Ledger.ChartOfAccounts BaasConnector.Ledger.Invariants
open BaasConnector.Ledger.Counters BaasConnector.Ledger.Books BaasConnector.Ledger.Reachable

def postedEntries (s : LedgerStore) : List LedgerEntry := (allEntries s).filter (·.phase = .POSTED)

/-- The entries of holds that are neither committed nor voided. -/
def reservedEntries (s : LedgerStore) : List LedgerEntry :=
  (allEntries s).filter fun e =>
    e.phase = .PENDING ∧ holdStatus s e.transactionId = some .PENDING

structure Consistent (s : LedgerStore) : Prop where
  debitsPosted : ∀ a ∈ allAccounts s, a.debitsPosted = sumOn a.id .DEBIT (postedEntries s)
  creditsPosted : ∀ a ∈ allAccounts s, a.creditsPosted = sumOn a.id .CREDIT (postedEntries s)
  debitsPending : ∀ a ∈ allAccounts s, a.debitsPending = sumOn a.id .DEBIT (reservedEntries s)
  creditsPending : ∀ a ∈ allAccounts s, a.creditsPending = sumOn a.id .CREDIT (reservedEntries s)
  nonneg : ∀ a ∈ allAccounts s, 0 ≤ a.debitsPosted ∧ 0 ≤ a.creditsPosted ∧ 0 ≤ a.debitsPending ∧
    0 ≤ a.creditsPending
  available : ∀ a ∈ allAccounts s, a.allowsNegative = false → 0 ≤ (computeBalances a).available
  balanced : ∀ id, sumOf .DEBIT (s.entriesOf id) = sumOf .CREDIT (s.entriesOf id)
  checked : checkInvariants (allAccounts s) (allEntries s) = []

variable {s : LedgerStore}

theorem account_get {a : LedgerAccount} (ha : a ∈ allAccounts s) :
    s.accounts.get a.id = some a := by
  obtain ⟨k, hk⟩ := Table.mem_values.mp ha
  have hget : s.accounts.get k = some a := hk
  have hid : a.id = k := Rows.key_of_get hget
  rw [hid, hget]

theorem entries_get {es : List LedgerEntry} (hes : es ∈ s.entries.values) :
    ∃ k, s.entries.get k = some es := Table.mem_values.mp hes

/-- What is standing, entry by entry. -/
theorem standing_eq_sumOn (h : Sound s) (phase : PostPhase) (direction : EntryDirection)
    (accountId : String) :
    standing s phase direction accountId = sumOn accountId direction ((allEntries s).filter fun e =>
      e.phase = phase.entryPhase ∧ Counts (holdStatus s e.transactionId) phase) := by
  rw [allEntries, List.filter_flatten, sumOn_flatten, standing, Table.total, Table.values,
    List.map_map, List.map_map]
  apply congrArg List.sum
  apply List.map_congr_left
  intro r hr
  have hget : s.entries.get r.1 = some r.2 := (lookup_eq_some s.entries.nodup).mpr hr
  have howned : ∀ e ∈ r.2, e.transactionId = r.1 := fun e he => (h.owned r.1 r.2 hget e he).1
  change share (holdStatus s r.1) phase direction accountId r.2 = sumOn accountId direction
    (r.2.filter fun e => e.phase = phase.entryPhase ∧ Counts (holdStatus s e.transactionId) phase)
  unfold share
  by_cases hc : Counts (holdStatus s r.1) phase
  · rw [if_pos hc]
    refine congrArg (sumOn accountId direction) (List.filter_congr fun e he => ?_)
    simp [howned e he, hc]
  · have hnil : (r.2.filter fun e =>
        e.phase = phase.entryPhase ∧ Counts (holdStatus s e.transactionId) phase) = [] := by
      apply List.filter_eq_nil_iff.mpr
      intro e he
      simp [howned e he, hc]
    rw [if_neg hc, hnil]
    rfl

theorem standing_posted (h : Sound s) (direction : EntryDirection) (accountId : String) :
    standing s .POSTED direction accountId = sumOn accountId direction (postedEntries s) := by
  rw [standing_eq_sumOn h, postedEntries]
  refine congrArg (sumOn accountId direction) (List.filter_congr fun e _ => ?_)
  simp [Counts, PostPhase.entryPhase]

theorem standing_pending (h : Sound s) (direction : EntryDirection) (accountId : String) :
    standing s .PENDING direction accountId = sumOn accountId direction (reservedEntries s) := by
  rw [standing_eq_sumOn h, reservedEntries]
  refine congrArg (sumOn accountId direction) (List.filter_congr fun e _ => ?_)
  simp [Counts, PostPhase.entryPhase]

theorem standing_nonneg (h : Sound s) (phase : PostPhase) (direction : EntryDirection)
    (accountId : String) : 0 ≤ standing s phase direction accountId := by
  apply Table.total_nonneg
  intro k es hk
  unfold share
  split
  · apply sumOf_nonneg
    intro e he
    have hmem := List.mem_of_mem_filter (List.mem_of_mem_filter he)
    exact (h.owned k es hk e hmem).2.1
  · exact Int.le_refl 0

theorem available_le_posted (h : Sound s) {a : LedgerAccount} (ha : s.accounts.get a.id = some a) :
    (computeBalances a).available ≤ (computeBalances a).posted := by
  have hcredit := standing_nonneg h .PENDING .CREDIT a.id
  have hdebit := standing_nonneg h .PENDING .DEBIT a.id
  rw [← h.counters _ a ha] at hcredit hdebit
  change 0 ≤ a.creditsPending at hcredit
  change 0 ≤ a.debitsPending at hdebit
  unfold computeBalances
  cases a.normalBalance <;> dsimp only <;> omega

theorem available_nonneg (h : Sound s) {a : LedgerAccount} (ha : s.accounts.get a.id = some a)
    (hn : a.allowsNegative = false) : 0 ≤ (computeBalances a).available := by
  have hguard := h.guarded _ a ha
  rw [violatesOverdraftGuard, if_neg (by simp [hn]), decide_eq_false_iff_not] at hguard
  omega

theorem entries_balanced (h : Sound s) (id : String) :
    EntriesBalanced ((allEntries s).filter (·.transactionId = id)) := by
  rw [allEntries, List.filter_flatten]
  apply balanced_flatten
  intro es hes
  obtain ⟨all, hall, rfl⟩ := List.mem_map.mp hes
  obtain ⟨k, hk⟩ := entries_get hall
  by_cases hid : k = id
  · have hself : all.filter (·.transactionId = id) = all := by
      apply List.filter_eq_self.mpr
      intro e he
      simp [(h.owned k all hk e he).1, hid]
    rw [hself]
    exact h.balanced k all hk
  · have hnil : all.filter (·.transactionId = id) = [] := by
      apply List.filter_eq_nil_iff.mpr
      intro e he
      simp [(h.owned k all hk e he).1, hid]
    rw [hnil]
    rfl

theorem checkInvariants_eq_nil (h : Sound s) : checkInvariants (allAccounts s) (allEntries s) = [] := by
  have hbalanced : EntriesBalanced (allEntries s) := by
    apply balanced_flatten
    intro es hes
    obtain ⟨k, hk⟩ := entries_get hes
    exact h.balanced k es hk
  have hledger : ledgerBalanced (allEntries s) = [] := if_pos hbalanced
  have hposted : postedCountersMatchEntries (allAccounts s) (allEntries s) = [] := by
    apply postedCountersMatchEntries_eq_nil.mpr
    intro a ha
    have hget := account_get ha
    constructor
    · exact (h.counters _ a hget .POSTED .DEBIT).trans (standing_posted h .DEBIT a.id)
    · exact (h.counters _ a hget .POSTED .CREDIT).trans (standing_posted h .CREDIT a.id)
  have hpositive : entryAmountPositive (allEntries s) = [] := by
    apply entryAmountPositive_eq_nil
    intro e he
    obtain ⟨es, hes, hmem⟩ := List.mem_flatten.mp he
    obtain ⟨k, hk⟩ := entries_get hes
    exact (h.owned k es hk e hmem).2.1
  have hnonneg : noNegativeBalance (allAccounts s) = [] := by
    apply noNegativeBalance_eq_nil
    intro a ha hn
    have hget := account_get ha
    exact (available_nonneg h hget hn).trans (available_le_posted h hget)
  rw [checkInvariants, transactionBalanced_eq_nil (entries_balanced h), hledger, hposted, hpositive,
    hnonneg]
  rfl

theorem consistent_of_sound (h : Sound s) : Consistent s where
  debitsPosted a ha := (h.counters _ a (account_get ha) .POSTED .DEBIT).trans (standing_posted h _ _)
  creditsPosted a ha := (h.counters _ a (account_get ha) .POSTED .CREDIT).trans (standing_posted h _ _)
  debitsPending a ha := (h.counters _ a (account_get ha) .PENDING .DEBIT).trans (standing_pending h _ _)
  creditsPending a ha := (h.counters _ a (account_get ha) .PENDING .CREDIT).trans (standing_pending h _ _)
  nonneg a ha := by
    have hall : ∀ phase direction, 0 ≤ counter a phase direction := by
      intro phase direction
      rw [h.counters _ a (account_get ha)]
      exact standing_nonneg h phase direction a.id
    exact ⟨hall .POSTED .DEBIT, hall .POSTED .CREDIT, hall .PENDING .DEBIT, hall .PENDING .CREDIT⟩
  available a ha hn := available_nonneg h (account_get ha) hn
  balanced id := by
    cases hk : s.entries.get id with
    | none => simp [LedgerStore.entriesOf, hk, sumOf, sumDirection]
    | some es =>
      rw [LedgerStore.entriesOf, hk, Option.getD_some]
      exact h.balanced id es hk
  checked := checkInvariants_eq_nil h

/-- The ledger is consistent in every state that operations lead to. -/
theorem reachable_consistent (newId : Nat → String)
    (hids : ((List.range singletonAccounts.length).map newId).Nodup) (ops : List Operation)
    (hfresh : FreshAll (newStore newId) ops) : Consistent (performAll (newStore newId) ops) :=
  consistent_of_sound (performAll_sound (newStore_sound hids) hfresh)

def sampleId (n : Nat) : String := String.ofList (List.replicate (n + 1) 'a')

def sampleMint (id : String) : Mint := ⟨id, fun _ => "le", 0⟩

def samplePost (phase : PostPhase) (key debitId creditId : String) (amountCents : Int) :
    PostTransactionInput :=
  { id := none
    type := .MANUAL_ADJUSTMENT
    phase := phase
    idempotencyKey := key
    entries := [⟨debitId, .DEBIT, amountCents⟩, ⟨creditId, .CREDIT, amountCents⟩]
    currency := none
    externalRef := none
    description := none
    effectiveAt := none
    metadata := none }

/-- A customer is funded, two holds are placed, one is committed and one voided,
and a further hold is refused. -/
def sampleOperations : List Operation :=
  [.openCustomerAccounts "c0" "c1" "acc",
    .post (sampleMint "t0") (samplePost .POSTED "fund" (sampleId 9) "c0" 100),
    .post (sampleMint "t1") (samplePost .PENDING "hold" "c0" (sampleId 3) 60),
    .post (sampleMint "t2") (samplePost .PENDING "more" "c0" (sampleId 3) 50),
    .commitPending (sampleMint "t3") "t1" ⟨"commit", none⟩,
    .post (sampleMint "t4") (samplePost .PENDING "last" "c0" (sampleId 3) 40),
    .voidPending (sampleMint "t5") "t4" ⟨"void", none⟩]

theorem sampleOperations_consistent :
    FreshAll (newStore sampleId) sampleOperations ∧
      ((performAll (newStore sampleId) sampleOperations).accounts.get "c0").map (·.debitsPosted) =
        some 60 ∧
      Consistent (performAll (newStore sampleId) sampleOperations) :=
  ⟨by decide, by decide,
    reachable_consistent sampleId (by decide) sampleOperations (by decide)⟩

end BaasConnector.Ledger.Consistency
