import Mathlib
import BaasConnector.Ledger.Holds

namespace BaasConnector.Ledger.Adjustments

open BaasConnector.Lib.Keyed BaasConnector.Ledger.Types BaasConnector.Taxonomy.Errors
open BaasConnector.Ledger.Engine BaasConnector.Ledger.MemoryStore BaasConnector.Ledger.Outcomes
open BaasConnector.Ledger.Shadow BaasConnector.Ledger.Holds

/-- What the entries move on one account, as its holder sees it. -/
def movedOn (accountId : String) (entries : List LedgerEntryInput) : Int :=
  ((entries.filter (·.accountId = accountId)).map fun entry =>
    if entry.direction = .CREDIT then entry.amountCents else -entry.amountCents).sum

/-- What the transaction under an idempotency key moves on one account. -/
def movedUnder (s : LedgerStore) (key accountId : String) : Int :=
  match s.findByIdempotencyKey key with
  | none => 0
  | some existing => movedOn accountId (existing.entries.map (·.toLedgerEntryInput))

theorem buildEntries_inputs (mint : Mint) (transaction : LedgerTransaction) (phase : EntryPhase)
    (delta : LedgerEntryInput → CounterDelta) {index : Nat} {inputs : List LedgerEntryInput}
    {accounts after : Accounts} {entries : List LedgerEntry}
    (h : buildEntries mint transaction phase delta index inputs accounts = .ok (entries, after)) :
    entries.map (·.toLedgerEntryInput) = inputs := by
  induction inputs generalizing index accounts entries with
  | nil =>
    simp only [buildEntries, Except.ok.injEq, Prod.mk.injEq] at h
    rw [← h.1, List.map_nil]
  | cons input inputs ih =>
    simp only [buildEntries] at h
    split at h
    · cases h
    · split at h
      · cases h
      · split at h
        · cases h
        · next hrest =>
          simp only [Except.ok.injEq, Prod.mk.injEq] at h
          rw [← h.1, List.map_cons, ih (by rw [hrest, h.2])]
          rfl

/-- A posting under a free key stores the entries it was given. -/
theorem post_entries {mint : Mint} {input : PostTransactionInput} {s s' : LedgerStore}
    {posted : PostTransactionResult} (hk : s.findByIdempotencyKey input.idempotencyKey = none)
    (hne : input.entries ≠ []) (h : run (post mint input) s = (.ok posted, s')) (accountId : String) :
    movedUnder s' input.idempotencyKey accountId = movedOn accountId input.entries := by
  unfold run at h
  rw [post_run, hk] at h
  cases hb : assertBalanced input.entries with
  | error e => simp [hb] at h
  | ok debits =>
    simp only [hb] at h
    cases ha : assertAccountsExist input.entries (s.lockAccounts (lockOrder input.entries)) with
    | error e => simp [ha] at h
    | ok _ =>
      simp only [ha] at h
      cases hp : postEntries mint input debits s with
      | error e => simp [hp] at h
      | ok built =>
        simp only [hp, Prod.mk.injEq, Except.ok.injEq] at h
        have hinputs := buildEntries_inputs mint (postedTransaction mint input debits) _ _
          (show _ = Except.ok (built.1, built.2) from hp)
        have hempty : built.1.isEmpty = false := by
          cases hl : built.1 with
          | nil => rw [hl] at hinputs; exact absurd hinputs.symm hne
          | cons _ _ => rfl
        have hfind : s'.findByIdempotencyKey input.idempotencyKey =
            some ⟨postedTransaction mint input debits, built.1, true⟩ := by
          rw [← h.2]
          simp [LedgerStore.findByIdempotencyKey, LedgerStore.entriesOf, LedgerStore.persist, hempty,
            postedTransaction, Rows.get_put]
        rw [movedUnder, hfind, ← hinputs]

/-- An adjustment moves its amount under a free key, and nothing under a used one. -/
theorem adjust_moved {mint : Mint} {s s' : LedgerStore} {availableId key : String} {amount : Int}
    {credit : Bool} {externalRef : Option String} {posted : PostTransactionResult}
    (hexternal : s.accountIdByCode externalWorldCode ≠ some availableId)
    (h : (LedgerCommand.adjust availableId amount credit key externalRef).perform mint s =
      (.ok posted, s')) :
    movedUnder s' key availableId =
      if (s.findByIdempotencyKey key).isSome then movedUnder s key availableId
      else if credit then amount else -amount := by
  unfold LedgerCommand.perform withExternal at h
  cases hx : s.accountIdByCode externalWorldCode with
  | none => simp [hx] at h
  | some externalId =>
    simp only [hx] at h
    have hne : externalId ≠ availableId := fun he => hexternal (by rw [hx, he])
    cases hk : s.findByIdempotencyKey key with
    | some existing =>
      obtain ⟨⟨e, he⟩, _⟩ | ⟨_, _, _, hs⟩ | ⟨_, _, _, hnone, _⟩ := post_cases mint _ s
      · rw [h] at he
        cases he
      · rw [h] at hs
        have hsame : s' = s := hs
        rw [hsame, Option.isSome_some, if_pos rfl]
      · exact absurd (hk.symm.trans hnone) (by simp)
    | none =>
      have hmoved := post_entries hk (by simp [transferInput]) h availableId
      simp only [transferInput] at hmoved
      rw [hmoved]
      cases credit <;> simp [movedOn, hne]

end BaasConnector.Ledger.Adjustments
