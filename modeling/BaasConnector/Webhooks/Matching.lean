import BaasConnector.Connector.Replies
import BaasConnector.Pix.HoldResolution

namespace BaasConnector.Webhooks.Matching

open BaasConnector.Lib.Effects BaasConnector.Lib.Keyed BaasConnector.Taxonomy.Status
open BaasConnector.Taxonomy.Errors BaasConnector.Connector.Records BaasConnector.Connector.Calls
open BaasConnector.Connector.Database BaasConnector.Connector.Replies BaasConnector.Connector.Calm
open BaasConnector.Pix.HoldResolution BaasConnector.Webhooks.Apply

/-- The stored transaction that an event is matched with. -/
def locate (w : World) (ctx : ApplyContext) (draft : CanonicalEventDraft) (data : PaymentEventData) :
    Option TransactionRecord :=
  match w.transactions.search (fun t =>
      t.provider == ctx.provider && t.providerTransactionId == some draft.providerId) with
  | some t => some t
  | none => data.endToEndId.bind fun e2e => w.transactions.search fun t => t.endToEndId == some e2e

variable {w : World} {ctx : ApplyContext} {draft : CanonicalEventDraft} {data : PaymentEventData}
  {transitionTo incoming : TransactionStatus} {existing : TransactionRecord}

theorem locate_stored (h : locate w ctx draft data = some existing) :
    w.transactions.get existing.id = some existing := by
  unfold locate at h
  split at h
  · next t hs =>
    rw [← Option.some.inj h]
    exact (Rows.search_some hs).2
  · obtain ⟨e2e, _, hs⟩ := Option.bind_eq_some_iff.mp h
    exact (Rows.search_some hs).2

theorem wp_findTransaction :
    (findTransaction ctx draft data).wp env
      (fun r w' => w' = w ∧ ∀ found, r = .ok found → found = locate w ctx draft data) w := by
  unfold findTransaction locate
  simp only [Prog.bind_eq, Prog.pure_eq, Prog.wp_bind, Prog.wp_perform]
  intro r w' he
  obtain ⟨rfl, rfl | ⟨message, rfl⟩⟩ := env_read (fun _ => rfl) he
  · simp only [Prog.onOk_ok]
    cases hs : w'.transactions.search (fun t =>
        t.provider == ctx.provider && t.providerTransactionId == some draft.providerId) with
    | some t => simp [Prog.wp]
    | none =>
      cases hd : data.endToEndId with
      | none => simp [Prog.wp]
      | some e2e =>
        simp only [Prog.wp_perform, Option.bind_some]
        intro r w'' he
        obtain ⟨rfl, rfl | ⟨message, rfl⟩⟩ := env_read (fun _ => rfl) he <;> simp
  · simp

theorem wp_findTransaction_calm (kind : Choice → Prop) :
    (findTransaction ctx draft data).wp (calm kind)
      (fun r w' => r = .ok (locate w ctx draft data) ∧ w' = w) w := by
  unfold findTransaction locate
  refine wp_fixed (fun _ _ => rfl) ?_
  simp only [Prog.onOk_ok]
  cases hs : w.transactions.search (fun t =>
      t.provider == ctx.provider && t.providerTransactionId == some draft.providerId) with
  | some t => exact ⟨rfl, rfl⟩
  | none =>
    cases hd : data.endToEndId with
    | none => exact ⟨rfl, rfl⟩
    | some e2e =>
      simp only [Prog.wp_perform, Option.bind_some]
      rintro r w' ⟨c, _, _, hc⟩
      unfold respond at hc
      simp only [reply, Option.some.injEq, Prod.mk.injEq] at hc
      exact ⟨hc.1.symm, hc.2.symm⟩

theorem may_findTransaction :
    (findTransaction ctx draft data).may env
      (fun r w' => w' = w ∧ r = .ok (locate w ctx draft data)) w := by
  unfold findTransaction locate
  simp only [Prog.bind_eq, Prog.pure_eq, Prog.may_bind, Prog.may_perform]
  refine ⟨_, _, env_of_read fun _ => rfl, ?_⟩
  simp only [Prog.onOk_ok]
  cases hs : w.transactions.search (fun t =>
      t.provider == ctx.provider && t.providerTransactionId == some draft.providerId) with
  | some t => simp [Prog.may]
  | none =>
    cases hd : data.endToEndId with
    | none => simp [Prog.may]
    | some e2e =>
      simp only [Prog.may_perform, Option.bind_some]
      exact ⟨_, _, env_of_read fun _ => rfl, rfl, rfl⟩

theorem applyToExisting_eq (ctx : ApplyContext) (draft : CanonicalEventDraft) (data : PaymentEventData)
    (incoming : TransactionStatus) (existing : TransactionRecord) :
    applyToExisting ctx draft data incoming existing =
      (holdResolution existing.ledgerPendingTransactionId incoming existing.id).bind
        (finish ctx draft data incoming existing) := by
  rw [← resolveEventHold_eq]
  rfl

/-- The calls that only keep record of an event. -/
def Call.bookkeeping : Call → Bool
  | .now | .emit _ | .eventMarkDiscarded .. | .eventMarkProcessed _ => true
  | _ => false

section Within

variable {guar : Call → Prop} (h : ∀ q, Call.bookkeeping q = true → guar q)

include h

theorem onDuplicate_within (ctx : ApplyContext) (reason : String) :
    (onDuplicate ctx reason).Within guar := by
  unfold onDuplicate
  cases ctx.eventId with
  | none => trivial
  | some eventId => simpa using h _ rfl

theorem handleRejection_within (ctx : ApplyContext) (resourceType resourceId : String)
    (reason : StatusChangeRejection) :
    (handleRejection ctx resourceType resourceId reason).Within guar := by
  unfold handleRejection
  split
  · exact onDuplicate_within h ctx _
  · unfold onAnomaly
    cases ctx.eventId with
    | none =>
      simp only [Prog.bind_eq, Prog.pure_eq, Prog.meets_perform_bind, Prog.meets_pure, implies_true,
        and_true, forall_const]
      exact ⟨h _ rfl, h _ rfl, h _ rfl, h _ rfl⟩
    | some eventId =>
      simp only [Prog.bind_eq, Prog.meets_perform_bind, Prog.meets_perform, implies_true, and_true,
        forall_const]
      exact ⟨h _ rfl, h _ rfl, h _ rfl, h _ rfl, h _ rfl, h _ rfl⟩

theorem finish_within (ctx : ApplyContext) (draft : CanonicalEventDraft) (data : PaymentEventData)
    (incoming : TransactionStatus) (existing : TransactionRecord) (posted : Option String)
    (hc : guar (.transactionApplyStatusChange (eventChange existing data incoming posted
      (occurredAtOf ctx draft)))) :
    (finish ctx draft data incoming existing posted).Within guar := by
  refine Prog.meets_perform_bind.mpr ⟨hc, fun result _ => ?_, fun _ _ => trivial⟩
  cases result with
  | applied record => simpa using h _ rfl
  | rejected reason current =>
    have hr := handleRejection_within h ctx "transaction" existing.id reason
    simpa [Prog.meets_bind] using hr

theorem applyToExisting_within (hl : ∀ command, guar (.ledger command)) (ctx : ApplyContext)
    (draft : CanonicalEventDraft) (data : PaymentEventData) (incoming : TransactionStatus)
    (existing : TransactionRecord)
    (hc : ∀ posted, guar (.transactionApplyStatusChange (eventChange existing data incoming posted
      (occurredAtOf ctx draft)))) :
    (applyToExisting ctx draft data incoming existing).Within guar := by
  rw [applyToExisting_eq, Prog.Within, Prog.meets_bind]
  refine Prog.meets_mono (fun _ _ h => h) (fun _ h => h) (fun r _ => ?_) (holdResolution_meets hl _ _ _)
  cases r with
  | error e => trivial
  | ok posted => exact finish_within h ctx draft data incoming existing posted (hc posted)

end Within

end BaasConnector.Webhooks.Matching
