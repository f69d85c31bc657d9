import BaasConnector.Webhooks.Matching

namespace BaasConnector.Webhooks.Footprint

open BaasConnector.Lib.Effects BaasConnector.Taxonomy.Status BaasConnector.Taxonomy.Errors
open BaasConnector.Connector.Records BaasConnector.Connector.Calls BaasConnector.Ledger.Shadow
open BaasConnector.Pix.HoldResolution BaasConnector.Webhooks.Apply BaasConnector.Webhooks.Matching

/-- The calls that the application of drafts makes, events aside. -/
def Drafting : Call → Prop
  | .now | .emit _ | .newId .transaction | .accountFindByProviderAccountId ..
  | .accountApplyStatusChange _ | .transactionFindByProviderTransactionId ..
  | .transactionFindByEndToEndId _ | .transactionCreate _ | .transactionApplyStatusChange _
  | .lockAcquire _ | .lockRelease _ => True
  | .ledger (.settleOut _ key) => ∃ id, key = "pix-out-settle:" ++ id
  | .ledger (.voidOut _ key) => ∃ id, key = "pix-out-void:" ++ id
  | .ledger (.creditIn _ _ key _) => ∃ id, key = "pix-in:" ++ id
  | _ => False

/-- The calls that the application of an event makes. -/
def Applying : Call → Prop
  | .eventFindById _ | .eventMarkProcessing _ | .eventMarkProcessed _ | .eventMarkDiscarded ..
  | .eventMarkFailed .. | .providerResolve _ => True
  | q => Drafting q

theorem bookkeeping_applying {q : Call} (h : Call.bookkeeping q = true) : Applying q := by
  cases q <;> simp_all [Call.bookkeeping, Applying, Drafting]

theorem holdResolution_applying (hold : Option String) (status : TransactionStatus) (id : String) :
    (holdResolution hold status id).Within Applying := by
  unfold holdResolution
  cases hold with
  | none => trivial
  | some hold =>
    cases resolves status with
    | none => trivial
    | some commit =>
      refine Prog.meets_perform_bind.mpr ⟨?_, fun _ _ => trivial, fun _ _ => trivial⟩
      cases commit <;> exact ⟨id, rfl⟩

theorem applyToExisting_applying (ctx : ApplyContext) (draft : CanonicalEventDraft)
    (data : PaymentEventData) (incoming : TransactionStatus) (existing : TransactionRecord) :
    (applyToExisting ctx draft data incoming existing).Within Applying := by
  rw [applyToExisting_eq, Prog.Within, Prog.meets_bind]
  refine Prog.meets_mono (fun _ _ h => h) (fun _ h => h) (fun r _ => ?_)
    (holdResolution_applying _ _ _)
  cases r with
  | error e => trivial
  | ok posted =>
    exact finish_within (fun _ => bookkeeping_applying) ctx draft data incoming existing posted trivial

theorem findTransaction_applying (ctx : ApplyContext) (draft : CanonicalEventDraft)
    (data : PaymentEventData) : (findTransaction ctx draft data).Within Applying := by
  unfold findTransaction
  refine Prog.meets_perform_bind.mpr ⟨trivial, fun found _ => ?_, fun _ _ => trivial⟩
  cases found with
  | some transaction => trivial
  | none =>
    cases data.endToEndId with
    | none => trivial
    | some endToEndId => exact Prog.meets_perform.mpr ⟨trivial, fun _ _ => trivial⟩

theorem creditInbound_applying (ctx : ApplyContext) (draft : CanonicalEventDraft)
    (data : PaymentEventData) (account : AccountRecord) (availableId : String) :
    (creditInbound ctx draft data account availableId).Within Applying := by
  unfold creditInbound
  refine Prog.meets_perform_bind.mpr ⟨⟨_, rfl⟩, fun posted _ => ?_, fun _ _ => trivial⟩
  refine Prog.meets_perform_bind.mpr ⟨trivial, fun id _ => ?_, fun _ _ => trivial⟩
  refine Prog.meets_perform_bind.mpr ⟨trivial, fun stored _ => ?_, fun _ _ => trivial⟩
  refine Prog.meets_perform_bind.mpr ⟨trivial, fun _ _ => ?_, fun _ _ => trivial⟩
  exact Prog.meets_perform_bind.mpr ⟨trivial, fun _ _ => trivial, fun _ _ => trivial⟩

theorem receiveInbound_applying (ctx : ApplyContext) (draft : CanonicalEventDraft)
    (data : PaymentEventData) : (receiveInbound ctx draft data).Within Applying := by
  unfold receiveInbound
  cases data.providerAccountId with
  | none => trivial
  | some providerAccountId =>
    refine Prog.meets_perform_bind.mpr ⟨trivial, fun account _ => ?_, fun _ _ => trivial⟩
    cases account with
    | none => trivial
    | some account =>
      cases hl : account.ledgerAvailableAccountId with
      | none => simp [hl]
      | some availableId =>
        have hrest : ∀ duplicate,
            (creditOnce ctx draft data account availableId duplicate).Within Applying := by
          intro duplicate
          cases duplicate with
          | none => exact creditInbound_applying ctx draft data account availableId
          | some _ =>
            have hd := onDuplicate_within (fun _ => bookkeeping_applying) ctx "e2eid ja registrado"
            simpa [creditOnce, Prog.meets_bind] using hd
        simp only [hl]
        cases data.endToEndId with
        | none => exact hrest none
        | some endToEndId =>
          exact Prog.meets_perform_bind.mpr ⟨trivial, fun d _ => hrest d, fun _ _ => trivial⟩

theorem applyTransaction_applying (ctx : ApplyContext) (draft : CanonicalEventDraft)
    (transitionTo : TransactionStatus) (data : PaymentEventData) :
    (applyTransaction ctx draft transitionTo data).Within Applying := by
  unfold applyTransaction
  refine Prog.meets_bind.mpr (Prog.meets_mono (fun _ _ h => h) (fun _ h => h) (fun r _ => ?_)
    (findTransaction_applying ctx draft data))
  match r with
  | .error e => trivial
  | .ok (some existing) => exact applyToExisting_applying ctx draft data _ existing
  | .ok none =>
    rw [onResult_ok]
    dsimp only
    split
    · trivial
    · exact receiveInbound_applying ctx draft data

theorem applyAccount_within (guar : Call → Prop) (h : ∀ q, Call.bookkeeping q = true → guar q)
    (hfind : ∀ provider id, guar (.accountFindByProviderAccountId provider id))
    (hchange : ∀ c, guar (.accountApplyStatusChange c)) (ctx : ApplyContext)
    (draft : CanonicalEventDraft) (incoming : AccountStatus) :
    (applyAccount ctx draft incoming).Within guar := by
  unfold applyAccount
  refine Prog.meets_perform_bind.mpr ⟨hfind _ _, fun account _ => ?_, fun _ _ => trivial⟩
  cases account with
  | none => trivial
  | some account =>
    refine Prog.meets_perform_bind.mpr ⟨hchange _, fun result _ => ?_, fun _ _ => trivial⟩
    cases result with
    | applied record => trivial
    | rejected reason current =>
      have hr := handleRejection_within h ctx "account" account.id reason
      simpa [Prog.meets_bind] using hr

theorem applyAccount_applying (ctx : ApplyContext) (draft : CanonicalEventDraft)
    (incoming : AccountStatus) : (applyAccount ctx draft incoming).Within Applying :=
  applyAccount_within Applying (fun _ => bookkeeping_applying) (fun _ _ => trivial) (fun _ => trivial) ctx
    draft incoming

theorem applyDraft_applying (ctx : ApplyContext) (draft : CanonicalEventDraft) :
    (applyDraft ctx draft).Within Applying := by
  unfold applyDraft
  cases draft.subject with
  | account transitionTo => exact applyAccount_applying ctx draft transitionTo
  | transaction transitionTo data => exact applyTransaction_applying ctx draft transitionTo data

theorem lockRun_within {α : Type} {guar : Call → Prop} {key : String} {body : Flow α}
    (hacquire : guar (.lockAcquire key)) (hrelease : guar (.lockRelease key))
    (hbody : body.Within guar) : (lockRun key body).Within guar := by
  unfold lockRun
  refine Prog.meets_perform_attempt_bind.mpr ⟨hacquire, fun r _ => ?_⟩
  match r with
  | .error _ => trivial
  | .ok false => trivial
  | .ok true =>
    refine Prog.meets_bind.mpr (Prog.meets_attempt.mpr (Prog.meets_mono (fun _ _ h => h)
      (fun _ h => h) (fun result _ => ?_) hbody))
    rw [onResult_ok]
    refine Prog.meets_perform_attempt_bind.mpr ⟨hrelease, fun _ _ => ?_⟩
    cases result <;> trivial

theorem applyDrafts_applying (ctx : ApplyContext) (drafts : List CanonicalEventDraft) :
    (applyDrafts ctx drafts).Within Applying := by
  induction drafts with
  | nil => trivial
  | cons draft drafts ih =>
    unfold applyDrafts
    refine Prog.meets_bind.mpr (Prog.meets_mono (fun _ _ h => h) (fun _ h => h) (fun r _ => ?_)
      (lockRun_within trivial trivial (applyDraft_applying ctx draft)))
    match r with
    | .error e => trivial
    | .ok none => trivial
    | .ok (some outcome) =>
      refine Prog.meets_bind.mpr (Prog.meets_mono (fun _ _ h => h) (fun _ h => h) (fun r _ => ?_) ih)
      cases r <;> trivial

theorem applyEvent_applying (event : InboundEventRecord) : (applyEvent event).Within Applying := by
  unfold applyEvent
  refine Prog.meets_perform_bind.mpr ⟨trivial, fun bound _ => ?_, fun _ _ => trivial⟩
  split
  · refine Prog.meets_perform_bind.mpr ⟨trivial, fun _ _ => ?_, fun _ _ => trivial⟩
    exact Prog.meets_perform.mpr ⟨trivial, fun _ _ => trivial⟩
  · refine Prog.meets_bind.mpr (Prog.meets_mono (fun _ _ h => h) (fun _ h => h) (fun r _ => ?_)
      (applyDrafts_applying _ event.payload))
    cases r with
    | error e => trivial
    | ok result =>
      rw [onResult_ok]
      split
      · exact Prog.meets_perform.mpr ⟨trivial, fun _ _ => trivial⟩
      · split
        · refine Prog.meets_perform_bind.mpr ⟨trivial, fun _ _ => ?_, fun _ _ => trivial⟩
          exact Prog.meets_perform.mpr ⟨trivial, fun _ _ => trivial⟩
        · split
          · exact Prog.meets_perform.mpr ⟨trivial, fun _ _ => trivial⟩
          · trivial

/-- What the application of an event may touch. -/
theorem apply_applying (eventId : String) : (apply eventId).Within Applying := by
  unfold apply
  refine Prog.meets_perform_bind.mpr ⟨trivial, fun stored _ => ?_, fun _ _ => trivial⟩
  cases stored with
  | none => trivial
  | some event =>
    refine Prog.meets_perform_bind.mpr ⟨trivial, fun won _ => ?_, fun _ _ => trivial⟩
    split
    · trivial
    · refine Prog.meets_bind.mpr (Prog.meets_attempt.mpr (Prog.meets_mono (fun _ _ h => h)
        (fun _ h => h) (fun r _ => ?_) (applyEvent_applying event)))
      rw [onResult_ok]
      cases r with
      | ok _ => trivial
      | error e =>
        refine Prog.meets_perform_bind.mpr ⟨trivial, fun _ _ => ?_, fun _ _ => trivial⟩
        split <;> trivial

end BaasConnector.Webhooks.Footprint
