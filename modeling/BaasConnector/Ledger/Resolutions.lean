import BaasConnector.Ledger.Calls
import BaasConnector.Ledger.Consistency

namespace BaasConnector.Ledger.Resolutions

open BaasConnector.Lib.Keyed BaasConnector.Ledger.Types BaasConnector.Ledger.Engine
open BaasConnector.Ledger.MemoryStore BaasConnector.Ledger.Outcomes BaasConnector.Ledger.Holds
open BaasConnector.Ledger.ChartOfAccounts BaasConnector.Ledger.Reachable BaasConnector.Ledger.Calls
open BaasConnector.Ledger.Consistency

/-- The transaction that commits the hold, or the one that voids it. -/
def IsResolution (t : LedgerTransaction) (hold : String) (commit : Bool) : Prop :=
  t.pendingTransactionId = some hold ∧ t.status = resolvedStatus commit

instance (t : LedgerTransaction) (hold : String) (commit : Bool) : Decidable (IsResolution t hold commit) :=
  inferInstanceAs (Decidable (_ ∧ _))

/-- The hold is committed by a posted transaction that is linked to it, or voided. -/
def Resolved (s : LedgerStore) (hold : String) (commit : Bool) : Prop :=
  holdStatus s hold = some (resolvedStatus commit) ∧
    ∃ id t, s.transactions.get id = some t ∧ IsResolution t hold commit

/-- A call that succeeds has resolved its hold, and one whose key stands for
anything else is rejected. -/
structure Truthful (s : LedgerStore) (mint : Mint) (hold : String) (options : ResolveOptions)
    (commit : Bool) : Prop where
  resolved : ∀ r, ((EngineCall.resolvePending mint hold options commit).run s).1 = .ok r →
    Resolved ((EngineCall.resolvePending mint hold options commit).run s).2 hold commit
  rejected : ∀ id t, s.transactions.get id = some t → t.idempotencyKey = options.idempotencyKey →
    ¬ IsResolution t hold commit →
    ∃ e, ((EngineCall.resolvePending mint hold options commit).run s).1 = .error e

variable {s s' : LedgerStore} {mint : Mint} {hold : String} {options : ResolveOptions} {commit : Bool}

theorem resolved_of_stored (h : Indexed s) {id : String} {t : LedgerTransaction}
    (ht : s.transactions.get id = some t) (hres : IsResolution t hold commit) : Resolved s hold commit := by
  obtain ⟨hlink, hstatus⟩ := hres
  refine ⟨?_, id, t, ht, hlink, hstatus⟩
  rw [← hstatus]
  exact (h.linked id t hold ht hlink).2

theorem resolved_of_new {pending : LedgerTransaction} {es : List LedgerEntry} {after : Accounts}
    (hget : s.transactions.get hold = some pending) (hfresh : s.transactions.get mint.transactionId = none) :
    Resolved (resolved mint hold options commit pending es after s) hold commit := by
  have hne : mint.transactionId ≠ hold := by
    intro he
    cases (he ▸ hfresh).symm.trans hget
  refine ⟨resolved_holdStatus options es after hget, mint.transactionId,
    resolution mint hold options commit pending, ?_, rfl, rfl⟩
  rw [resolved_transactions hget, if_neg hne, if_pos rfl]

/-- Success means what it says exactly if the key is unused or stands for this
very resolution. -/
theorem resolution_truthful_iff (newId : Nat → String) (ops : List Operation)
    (hfresh : FreshAll (newStore newId) ops) (mint : Mint) (hold : String) (options : ResolveOptions)
    (commit : Bool)
    (hnew : (EngineCall.resolvePending mint hold options commit).Fresh (ledgerAfter newId ops)) :
    Truthful (ledgerAfter newId ops) mint hold options commit ↔
      ∀ id t, (ledgerAfter newId ops).transactions.get id = some t →
        t.idempotencyKey = options.idempotencyKey → IsResolution t hold commit := by
  have h := ledgerAfter_indexed newId hfresh
  have hreplay : ∀ id t, (ledgerAfter newId ops).transactions.get id = some t →
      t.idempotencyKey = options.idempotencyKey →
      ∃ r, ((EngineCall.resolvePending mint hold options commit).run (ledgerAfter newId ops)).1 = .ok r := by
    intro id t ht hkey
    have hfind := h.find ht
    rw [hkey] at hfind
    rw [run_replayed (c := .resolvePending mint hold options commit) hfind]
    exact ⟨_, rfl⟩
  constructor
  · intro htruthful id t ht hkey
    by_contra hother
    obtain ⟨e, he⟩ := htruthful.rejected id t ht hkey hother
    obtain ⟨r, hr⟩ := hreplay id t ht hkey
    cases he.symm.trans hr
  · intro hkeys
    constructor
    · intro r hr
      have ho := run_outcome (ledgerAfter newId ops) (.resolvePending mint hold options commit)
      rw [hr] at ho
      generalize (EngineCall.run (ledgerAfter newId ops) (.resolvePending mint hold options commit)).2 = s'
        at ho ⊢
      cases ho with
      | replayed _ existing hkey =>
        obtain ⟨id, t, ht, htkey, -⟩ := h.of_find hkey
        exact resolved_of_stored h ht (hkeys id t ht htkey)
      | resolved mint id options commit pending es after hkey hget hpending hbuilt =>
        exact resolved_of_new hget hnew.resolve
    · intro id t ht hkey hother
      exact absurd (hkeys id t ht hkey) hother

/-- One hold, still pending. -/
def heldOperations : List Operation := sampleOperations.take 3

theorem resolution_truthful_fresh :
    FreshAll (newStore sampleId) heldOperations ∧
      (EngineCall.commitPending (sampleMint "t3") "t1" ⟨"commit", none⟩).Fresh
        (ledgerAfter sampleId heldOperations) ∧
      Truthful (ledgerAfter sampleId heldOperations) (sampleMint "t3") "t1" ⟨"commit", none⟩ true := by
  have hfresh : FreshAll (newStore sampleId) heldOperations := by decide
  have hnew : (EngineCall.commitPending (sampleMint "t3") "t1" ⟨"commit", none⟩).Fresh
      (ledgerAfter sampleId heldOperations) := by
    change FreshTransaction _ _
    decide
  have hunused : (ledgerAfter sampleId heldOperations).byIdempotencyKey.get "commit" = none := by
    decide
  refine ⟨hfresh, hnew, ?_⟩
  refine (resolution_truthful_iff sampleId heldOperations hfresh _ _ _ _ hnew).mpr fun id t ht hkey => ?_
  have hfound := (ledgerAfter_indexed sampleId hfresh).found id t ht
  rw [hkey, hunused] at hfound
  cases hfound

/-- Committed under the key it was placed with, the hold stays pending. -/
theorem placing_key_reported_as_commit :
    ¬ Truthful (ledgerAfter sampleId heldOperations) (sampleMint "t3") "t1" ⟨"hold", none⟩ true := by
  intro htruthful
  have hok : ∃ r, ((EngineCall.commitPending (sampleMint "t3") "t1" ⟨"hold", none⟩).run
      (ledgerAfter sampleId heldOperations)).1 = .ok r := ⟨_, rfl⟩
  obtain ⟨r, hr⟩ := hok
  have hresolved := (htruthful.resolved r hr).1
  have hpending : holdStatus ((EngineCall.commitPending (sampleMint "t3") "t1" ⟨"hold", none⟩).run
      (ledgerAfter sampleId heldOperations)).2 "t1" = some .PENDING := by decide
  cases hpending.symm.trans hresolved

end BaasConnector.Ledger.Resolutions
