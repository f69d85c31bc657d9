import BaasConnector.MockBank.Ledger

namespace BaasConnector.MockBank.LedgerReset

open BaasConnector.Lib.Keyed BaasConnector.Lib.Runs BaasConnector.Ledger.Types
open BaasConnector.Ledger.Engine BaasConnector.Ledger.MemoryStore BaasConnector.Ledger.Invariants
open BaasConnector.Ledger.Counters BaasConnector.Ledger.Books BaasConnector.Ledger.ChartOfAccounts
open BaasConnector.Ledger.Reachable BaasConnector.Ledger.Calls BaasConnector.Ledger.Consistency
open BaasConnector.MockBank.Ledger

def resetAccount (account : LedgerAccount) : LedgerAccount :=
  { account with
    debitsPosted := 0
    creditsPosted := 0
    debitsPending := 0
    creditsPending := 0
    entryCount := 0 }

/-- The counters go back to zero in the accounts that are there. Entries, transactions
and keys stay. -/
def reset (s : LedgerStore) : LedgerStore :=
  { s with accounts := s.accounts.updateMany resetAccount fun _ => rfl }

inductive ServiceStep
  | ledger (step : LedgerStep)
  | reset

namespace ServiceStep

def perform (s : LedgerStore) : ServiceStep → LedgerStore
  | .ledger step => step.perform s
  | .reset => LedgerReset.reset s

def Fresh (s : LedgerStore) : ServiceStep → Prop
  | .ledger step => step.Fresh s
  | .reset => True

instance (s : LedgerStore) : (step : ServiceStep) → Decidable (step.Fresh s)
  | .ledger step => inferInstanceAs (Decidable (step.Fresh s))
  | .reset => .isTrue trivial

end ServiceStep

/-- The check of the ledger finds nothing, and what is pending on an account is what
the holds that are still open reserve there. -/
structure Checked (s : LedgerStore) : Prop where
  checked : checkInvariants (allAccounts s) (allEntries s) = []
  debitsPending : ∀ a ∈ allAccounts s, a.debitsPending = sumOn a.id .DEBIT (reservedEntries s)
  creditsPending : ∀ a ∈ allAccounts s, a.creditsPending = sumOn a.id .CREDIT (reservedEntries s)

/-- Nothing was posted, and no hold is open. -/
def Unused (s : LedgerStore) : Prop := postedEntries s = [] ∧ reservedEntries s = []

instance (s : LedgerStore) : Decidable (Unused s) :=
  inferInstanceAs (Decidable (postedEntries s = [] ∧ reservedEntries s = []))

def Clean (s : LedgerStore) : ServiceStep → Prop
  | .ledger _ => True
  | .reset => Unused s

instance (s : LedgerStore) : (step : ServiceStep) → Decidable (Clean s step)
  | .ledger _ => .isTrue trivial
  | .reset => inferInstanceAs (Decidable (Unused s))

variable {s : LedgerStore} {step : ServiceStep}

theorem counter_resetAccount (a : LedgerAccount) (phase : PostPhase) (direction : EntryDirection) :
    counter (resetAccount a) phase direction = 0 := by
  cases phase <;> cases direction <;> rfl

theorem resetAccount_guarded (a : LedgerAccount) : violatesOverdraftGuard (resetAccount a) = false := by
  have havailable : (computeBalances (resetAccount a)).available = 0 := by
    unfold computeBalances
    cases h : (resetAccount a).normalBalance <;> rfl
  rw [violatesOverdraftGuard, havailable]
  split <;> rfl

theorem reset_accounts (s : LedgerStore) (k : String) :
    (reset s).accounts.get k = (s.accounts.get k).map resetAccount :=
  Rows.get_updateMany s.accounts resetAccount (fun _ => rfl) k

theorem allAccounts_reset (s : LedgerStore) : allAccounts (reset s) = (allAccounts s).map resetAccount := by
  change (s.accounts.table.rows.map fun r => (r.1, resetAccount r.2)).map Prod.snd = _
  rw [List.map_map, allAccounts, Table.values, List.map_map]
  rfl

/-- On an unused ledger no counter has anything to count. -/
theorem standing_unused (h : Sound s) (hunused : Unused s) (phase : PostPhase)
    (direction : EntryDirection) (k : String) : standing s phase direction k = 0 := by
  cases phase with
  | POSTED =>
    rw [standing_posted h, hunused.1]
    rfl
  | PENDING =>
    rw [standing_pending h, hunused.2]
    rfl

theorem reset_sound (h : Sound s) (hunused : Unused s) : Sound (reset s) where
  stored := h.stored
  balanced := h.balanced
  owned k es hk e he := by
    obtain ⟨hid, hpos, hacc⟩ := h.owned k es hk e he
    refine ⟨hid, hpos, ?_⟩
    rw [reset_accounts, Option.isSome_map]
    exact hacc
  held := h.held
  counters k b hb phase direction := by
    rw [reset_accounts] at hb
    obtain ⟨a, -, rfl⟩ := Option.map_eq_some_iff.mp hb
    rw [counter_resetAccount]
    exact (standing_unused h hunused phase direction k).symm
  guarded k b hb := by
    rw [reset_accounts] at hb
    obtain ⟨a, -, rfl⟩ := Option.map_eq_some_iff.mp hb
    exact resetAccount_guarded a

theorem reset_kept (h : Kept s) (hunused : Unused s) : Kept (reset s) where
  sound := reset_sound h.sound hunused
  indexed := ⟨h.indexed.used, h.indexed.found, h.indexed.entered, h.indexed.linked⟩

theorem checked_of_sound (h : Sound s) : Checked s :=
  have hconsistent := consistent_of_sound h
  ⟨hconsistent.checked, hconsistent.debitsPending, hconsistent.creditsPending⟩

theorem checked_posted (h : Checked s) {a : LedgerAccount} (ha : a ∈ allAccounts s) :
    a.debitsPosted = sumOn a.id .DEBIT (postedEntries s) ∧
      a.creditsPosted = sumOn a.id .CREDIT (postedEntries s) := by
  have hchecked := h.checked
  rw [checkInvariants, List.append_eq_nil_iff, List.append_eq_nil_iff, List.append_eq_nil_iff] at hchecked
  obtain ⟨⟨⟨-, hposted⟩, -⟩, -⟩ := hchecked
  exact postedCountersMatchEntries_eq_nil.mp hposted a ha

/-- What the zeroed counters must agree with once they are checked. -/
theorem sumOn_of_checked_reset (h : Checked (reset s)) {k : String} (hk : (s.accounts.get k).isSome)
    (direction : EntryDirection) :
    sumOn k direction (postedEntries s) = 0 ∧ sumOn k direction (reservedEntries s) = 0 := by
  obtain ⟨a, ha⟩ := Option.isSome_iff_exists.mp hk
  obtain rfl : a.id = k := Rows.key_of_get ha
  have hmem : resetAccount a ∈ allAccounts (reset s) := by
    rw [allAccounts_reset]
    exact List.mem_map_of_mem (mem_allAccounts.mpr ha)
  have hposted := checked_posted h hmem
  have hdebits := h.debitsPending _ hmem
  have hcredits := h.creditsPending _ hmem
  cases direction with
  | DEBIT => exact ⟨hposted.1.symm, hdebits.symm⟩
  | CREDIT => exact ⟨hposted.2.symm, hcredits.symm⟩

theorem entry_owned (h : Sound s) {e : LedgerEntry} (he : e ∈ allEntries s) :
    0 < e.amountCents ∧ (s.accounts.get e.accountId).isSome := by
  obtain ⟨es, hes, hin⟩ := List.mem_flatten.mp he
  obtain ⟨k, hk⟩ := entries_get hes
  exact (h.owned k es hk e hin).2

/-- A reset leaves a ledger that checks just when there was nothing to reset. -/
theorem reset_checked_iff (h : Sound s) : Checked (reset s) ↔ Unused s := by
  constructor
  · intro hchecked
    have hposted : ∀ e ∈ postedEntries s, e ∈ allEntries s := fun e => List.mem_of_mem_filter
    have hreserved : ∀ e ∈ reservedEntries s, e ∈ allEntries s := fun e => List.mem_of_mem_filter
    constructor
    · apply eq_nil_of_sumOn
      · exact fun e he => (entry_owned h (hposted e he)).1
      · intro e he direction
        exact (sumOn_of_checked_reset hchecked (entry_owned h (hposted e he)).2 direction).1
    · apply eq_nil_of_sumOn
      · exact fun e he => (entry_owned h (hreserved e he)).1
      · intro e he direction
        exact (sumOn_of_checked_reset hchecked (entry_owned h (hreserved e he)).2 direction).2
  · intro hunused
    exact checked_of_sound (reset_sound h hunused)

theorem perform_kept (h : Kept s) (hfresh : step.Fresh s) (hclean : Clean s step) :
    Kept (step.perform s) := by
  cases step with
  | ledger step => exact Ledger.perform_kept h hfresh
  | reset => exact reset_kept h hclean

theorem perform_checked_iff (h : Kept s) (hfresh : step.Fresh s) :
    Checked (step.perform s) ↔ Clean s step := by
  cases step with
  | ledger step =>
    have hkept : Kept (step.perform s) := Ledger.perform_kept h hfresh
    exact ⟨fun _ => trivial, fun _ => checked_of_sound hkept.sound⟩
  | reset => exact reset_checked_iff h.sound

/-- A ledger that is used and reset checks throughout just when every reset finds
nothing posted and no hold open. -/
theorem reset_keeps_checked_iff (newId : Nat → String)
    (hids : ((List.range singletonAccounts.length).map newId).Nodup) (steps : List ServiceStep)
    (hfresh : Each ServiceStep.perform (newStore newId) ServiceStep.Fresh steps) :
    Throughout ServiceStep.perform (newStore newId) Checked steps ↔
      Each ServiceStep.perform (newStore newId) Clean steps := by
  have hkept := newStore_kept hids
  exact throughout_iff_each (I := Kept) (fun _ _ => perform_kept)
    (fun _ _ h hf _ => perform_checked_iff h hf) hkept (checked_of_sound hkept.sound) hfresh

def openStep : ServiceStep := .ledger (.openCustomerAccounts "c0" "c1" "acc")

def authorizeStep (transactionId ledgerAccountId key : String) (now : Int) : ServiceStep :=
  .ledger (.call (mintAt transactionId now) (.authorizePixOut ⟨ledgerAccountId, 60, 0, key, none⟩))

def voidStep (transactionId hold key : String) (now : Int) : ServiceStep :=
  .ledger (.call (mintAt transactionId now) (.voidPixOut ⟨hold, key⟩))

/-- A hold on the rest of the world is voided before the reset, and a customer is
funded and pays after it. -/
def resetSteps : List ServiceStep :=
  [openStep, authorizeStep "t0" (sampleId 9) "auth" 1, voidStep "t1" "t0" "void" 2, .reset,
    .ledger (creditStep "t2" "in" 100 3), authorizeStep "t3" "c0" "pay" 4]

theorem reset_keeps_checked_iff_unused :
    ((resetSteps.foldl ServiceStep.perform (newStore sampleId)).accounts.get "c0").map
      (fun account => (computeBalances account).available) = some 40 ∧
    Throughout ServiceStep.perform (newStore sampleId) Checked resetSteps :=
  ⟨by decide, (reset_keeps_checked_iff sampleId (by decide) resetSteps
    (by decide)).mpr (by decide)⟩

/-- After a payment in, a reset leaves counters that the entries contradict. A hold that
was open at the reset is voided out of a pending counter that no longer has it. -/
theorem reset_leaves_entries :
    let steps := [openStep, .ledger (creditStep "t0" "in" 100 0), authorizeStep "t1" "c0" "pay" 1, .reset]
    let s := steps.foldl ServiceStep.perform (newStore sampleId)
    Each ServiceStep.perform (newStore sampleId) ServiceStep.Fresh steps ∧
      (checkInvariants (allAccounts s) (allEntries s)).map (·.invariant) =
        ["posted_counters_match_entries", "posted_counters_match_entries"] ∧
      (((voidStep "t2" "t1" "void" 2).perform s).accounts.get "c0").map (·.debitsPending) = some (-60) := by
  decide

end BaasConnector.MockBank.LedgerReset
