import BaasConnector.Webhooks.Matching

namespace BaasConnector.Webhooks.Discard

open BaasConnector.Lib.Effects BaasConnector.Lib.Keyed BaasConnector.Taxonomy.Status
open BaasConnector.Taxonomy.Errors BaasConnector.Ledger.Types BaasConnector.Ledger.MemoryStore
open BaasConnector.Ledger.Shadow BaasConnector.Ledger.Holds
open BaasConnector.Connector.Records BaasConnector.Connector.Calls BaasConnector.Connector.Database
open BaasConnector.Connector.Replies BaasConnector.Pix.HoldResolution
open BaasConnector.Webhooks.Apply BaasConnector.Webhooks.Matching

/-- Two ledgers agree on every counter, every entry and every hold. -/
structure SameBooks (s s' : LedgerStore) : Prop where
  counters : ∀ id, s'.accounts.get id = s.accounts.get id
  entries : ∀ id, s'.entriesOf id = s.entriesOf id
  holds : ∀ id, holdStatus s' id = holdStatus s id

theorem SameBooks.of_eq {s s' : LedgerStore} (h : s' = s) : SameBooks s s' := by
  subst h
  exact ⟨fun _ => rfl, fun _ => rfl, fun _ => rfl⟩

variable {w : World} {ctx : ApplyContext} {draft : CanonicalEventDraft} {data : PaymentEventData}
  {transitionTo incoming : TransactionStatus} {existing : TransactionRecord}

theorem finish_keeps (posted : Option String) :
    (finish ctx draft data incoming existing posted).wp env (fun _ w' => w'.ledger = w.ledger) w :=
  wp_ledger_unchanged
    (finish_within (fun q hq => by cases q <;> simp_all [Call.bookkeeping, Call.touchesLedger])
    ctx draft data incoming existing posted rfl) w

theorem applyToExisting_keeps (h : ¬ ResolvesHold w.ledger existing.ledgerPendingTransactionId
    incoming existing.id) :
    (applyToExisting ctx draft data incoming existing).wp env
      (fun _ w' => w'.ledger = w.ledger) w := by
  rw [applyToExisting_eq, Prog.wp_bind]
  refine Prog.wp_mono env (wp_holdResolution_unchanged h) fun r w' hw => ?_
  subst hw
  cases r with
  | error e => exact rfl
  | ok posted => exact finish_keeps posted

theorem applyToExisting_changes (h : ResolvesHold w.ledger existing.ledgerPendingTransactionId
    incoming existing.id) :
    (applyToExisting ctx draft data incoming existing).may env
      (fun _ w' => ¬ SameBooks w.ledger w'.ledger) w := by
  rw [applyToExisting_eq, Prog.may_bind]
  refine Prog.may_mono env (may_holdResolution_resolved h) fun r w' hw => ?_
  obtain ⟨⟨posted, rfl⟩, hold, hbefore, hafter⟩ := hw
  refine Prog.may_of_wp env_total (Prog.wp_mono env (finish_keeps posted)
    fun _ w'' hl hb => hafter ?_)
  rw [← hbefore, ← hb.holds hold, hl]

theorem applyTransaction_existing (hfound : locate w ctx draft data = some existing) :
    (applyTransaction ctx draft transitionTo data).wp env
        (fun _ w' => SameBooks w.ledger w'.ledger) w ↔
      ¬ ResolvesHold w.ledger existing.ledgerPendingTransactionId (data.status.getD transitionTo)
        existing.id := by
  unfold applyTransaction
  rw [Prog.bind_eq]
  constructor
  · intro hw hr
    refine Prog.not_wp_of_may ?_ hw
    rw [Prog.may_bind]
    refine Prog.may_mono env may_findTransaction fun r w' h => ?_
    obtain ⟨rfl, rfl⟩ := h
    rw [hfound]
    exact applyToExisting_changes hr
  · intro hr
    rw [Prog.wp_bind]
    refine Prog.wp_mono env wp_findTransaction fun r w' h => ?_
    obtain ⟨rfl, hf⟩ := h
    cases r with
    | error e => exact .of_eq rfl
    | ok found =>
      rw [Prog.onOk_ok, hf found rfl, hfound]
      exact Prog.wp_mono env (applyToExisting_keeps hr) fun _ _ h => .of_eq h

/-- An event that the guard turns away leaves the books alone exactly when the
engine takes up no resolution for it. -/
theorem discarded_event_keeps_books (hfound : locate w ctx draft data = some existing) :
    (existing.guard (data.status.getD transitionTo) (occurredAtOf ctx draft) ≠ none →
        (applyTransaction ctx draft transitionTo data).wp env
          (fun _ w' => SameBooks w.ledger w'.ledger) w) ↔
      existing.guard (data.status.getD transitionTo) (occurredAtOf ctx draft) = none ∨
        ¬ ResolvesHold w.ledger existing.ledgerPendingTransactionId
          (data.status.getD transitionTo) existing.id := by
  rw [applyTransaction_existing hfound]
  tauto

def settledData : PaymentEventData := ⟨none, some .outgoing, some .SETTLED, none, none, none⟩

def settledDraft (occurredAt : Int) : CanonicalEventDraft :=
  ⟨"PIX_OUT_SETTLED", "ptx_1", .transaction .SETTLED settledData, some occurredAt⟩

def sampleContext : ApplyContext := ⟨"con_1", "MOCK_BANK", 2000, none⟩

theorem discarded_event_keeps_books_settled :
    (applyTransaction sampleContext (settledDraft 1500) .SETTLED settledData).wp env
      (fun _ w' => SameBooks fundedLedger w'.ledger)
      { sentWorld .SETTLED with ledger := fundedLedger } :=
  have hfound : locate { sentWorld .SETTLED with ledger := fundedLedger } sampleContext
      (settledDraft 1500) settledData = some (sentTransfer .SETTLED) := rfl
  (discarded_event_keeps_books hfound).mpr (.inr (by decide)) (by decide)

/-- An event dated before our own clock reading is turned away as stale after
it has settled the hold. -/
theorem discarded_event_settles_hold :
    ¬ ∀ (w : World) (ctx : ApplyContext) (draft : CanonicalEventDraft) (data : PaymentEventData)
      (transitionTo : TransactionStatus) (existing : TransactionRecord),
      locate w ctx draft data = some existing →
      existing.guard (data.status.getD transitionTo) (occurredAtOf ctx draft) ≠ none →
      (applyTransaction ctx draft transitionTo data).wp env
        (fun _ w' => SameBooks w.ledger w'.ledger) w := by
  intro h
  have hw := h (sentWorld .PROCESSING) sampleContext (settledDraft 900) settledData .SETTLED
    (sentTransfer .PROCESSING) rfl (by decide)
  refine (applyTransaction_existing rfl).mp hw ⟨"ltx_1", true, rfl, rfl, ?_⟩
  decide

end BaasConnector.Webhooks.Discard
