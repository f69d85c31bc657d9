import BaasConnector.Pix.Convergence
import BaasConnector.Pix.HoldAgreement
import BaasConnector.Pix.Refunds
import BaasConnector.Reconciliation.BreakResolution
import BaasConnector.Worker.AutoResolution

namespace BaasConnector.Pix.HoldRuns

open BaasConnector.Lib.Keyed hiding lookup
open BaasConnector.Lib.Effects BaasConnector.Taxonomy.Status BaasConnector.Taxonomy.Errors
open BaasConnector.Ledger.Types BaasConnector.Ledger.Shadow BaasConnector.Ledger.Holds
open BaasConnector.Connector.Records BaasConnector.Connector.Calls BaasConnector.Connector.Database
open BaasConnector.Connector.Replies BaasConnector.Connector.Calm BaasConnector.Pix.Transfers
open BaasConnector.Pix.Refunds BaasConnector.Pix.OperationReconciler BaasConnector.Pix.HoldResolution
open BaasConnector.Pix.HoldAgreement BaasConnector.Pix.Convergence
open BaasConnector.Webhooks.Apply BaasConnector.Webhooks.Matching
open BaasConnector.Worker.AutoResolution BaasConnector.Reconciliation.BreakResolution

variable {kind : Choice → Prop} {w w' : World}

/-- Under choices of this kind the provider answers a transfer with a status
that is not final. -/
def SendsOpen (kind : Choice → Prop) : Prop :=
  ∀ c t, kind c → c.sent = .accepted t → isFinal t.status = false

def RefundsOpen (kind : Choice → Prop) : Prop :=
  ∀ c r, kind c → c.refunded = .accepted r → isFinal r.status = false

theorem calm_send {request : SendRequest} {sent : PixTransaction} (hopen : SendsOpen kind)
    (h : calm kind w (.providerSend request) (.ok sent) w') : isFinal sent.status = false := by
  obtain ⟨c, _, hk, hc⟩ := h
  unfold respond at hc
  simp only [World.send] at hc
  cases hs : c.sent with
  | accepted t =>
    simp only [hs, reply, Option.some.injEq, Prod.mk.injEq, Except.ok.injEq] at hc
    exact hc.1 ▸ hopen c t hk hs
  | refused e => simp [hs, refuse] at hc
  | failed message => simp [hs, refuse] at hc
  | lost created e => cases created <;> simp [hs, refuse] at hc

theorem calm_refund {request : RefundRequest} {refunded : PixRefund} (hopen : RefundsOpen kind)
    (h : calm kind w (.providerRefund request) (.ok refunded) w') :
    isFinal refunded.status = false := by
  obtain ⟨c, _, hk, hc⟩ := h
  unfold respond at hc
  simp only [World.refund] at hc
  cases hs : c.refunded with
  | accepted r =>
    simp only [hs, reply, Option.some.injEq, Prod.mk.injEq, Except.ok.injEq] at hc
    exact hc.1 ▸ hopen c r hk hs
  | refused e => simp [hs, refuse] at hc
  | failed message => simp [hs, refuse] at hc
  | lost e => simp [hs, refuse] at hc

theorem safe_ask {α : Type} {q : Call} {f : Answer q → Flow α}
    (hw : Consistent w.ledger w.transactions) (hq : Call.aside q)
    (hf : ∀ a w', Same w w' → Safe kind (f a) w') : Safe kind ((ask q).bind f) w :=
  safe_bind hw (aside_ask hq) hf

theorem safe_emit {α : Type} {signal : Signal} {a : α} (hw : Consistent w.ledger w.transactions) :
    Safe kind ((ask (.emit signal)).bind fun _ => .pure a) w :=
  safe_ask hw ⟨rfl, rfl⟩ fun _ _ h => h.consistent hw

theorem safe_recordSent {t : Transfer} {sent : PixTransaction} {hold : Option String}
    (hw : Consistent w.ledger w.transactions)
    (hh : ∀ h, hold = some h → Reserved w h ∧ isFinal sent.status = false) :
    Safe kind (recordSent t sent hold) w := by
  unfold recordSent
  refine safe_ask hw ⟨rfl, rfl⟩ fun now w₁ h₁ => ?_
  have hw₁ := h₁.consistent hw
  refine safe_ask hw₁ ⟨rfl, rfl⟩ fun id w₂ h₂ => ?_
  have hw₂ := h₂.consistent hw₁
  refine safe_create_bind hw₂ (fun h heq => ?_) fun a w₃ hw₃ => safe_emit hw₃
  obtain ⟨hr, hopen⟩ := hh h heq
  have hr₂ := (hr.same h₁).same h₂
  exact ⟨hr₂.unheld, hr₂.pending, hopen⟩

theorem safe_onUnknownOutcome {t : Transfer} {hold : String} (hr : Reserved w hold) :
    Safe kind (onUnknownOutcome t hold) w := by
  unfold onUnknownOutcome
  refine safe_ask hr.consistent ⟨rfl, rfl⟩ fun now w₁ h₁ => ?_
  have hr₁ := hr.same h₁
  refine safe_ask hr₁.consistent ⟨rfl, rfl⟩ fun id w₂ h₂ => ?_
  have hr₂ := hr₁.same h₂
  refine safe_create_bind hr₂.consistent (fun h heq => ?_) fun transaction w₃ hw₃ => ?_
  · cases heq
    exact ⟨hr₂.unheld, hr₂.pending, rfl⟩
  refine safe_ask hw₃ ⟨rfl, rfl⟩ fun operation w₄ h₄ => ?_
  have hw₄ := h₄.consistent hw₃
  refine safe_ask hw₄ ⟨rfl, rfl⟩ fun _ w₅ h₅ => ?_
  exact safe_emit (h₅.consistent hw₄)

/-- A request that takes a hold first: what follows starts from a hold of its own. -/
theorem safe_authorize_bind {α : Type} {availableId key : String} {amountCents : Int}
    {externalRef : Option String} {f : PostTransactionResult → Flow α}
    (hw : Consistent w.ledger w.transactions) (hk : KeyReady w key)
    (hf : ∀ hold w', Reserved w' hold.transaction.id → Safe kind (f hold) w') :
    Safe kind ((ask (.ledger (.authorizeOut availableId amountCents key externalRef))).bind f) w := by
  unfold Safe
  rw [Prog.wp_bind]
  refine Prog.wp_mono _ (wp_authorize hw hk) fun r w' h => ?_
  cases r with
  | error e => exact h.1
  | ok hold => exact hf hold w' (h.2 hold rfl)

theorem safe_sendHeld {t : Transfer} {providerAccountId : String} (hopen : SendsOpen kind)
    (hw : Consistent w.ledger w.transactions) (hk : KeyReady w ("pix-out:" ++ t.operationId)) :
    Safe kind (sendHeld t providerAccountId) w := by
  unfold sendHeld
  refine safe_bind hw ?_ fun availableId w₁ h₁ => ?_
  · unfold requireLedgerAccount
    cases t.account.ledgerAvailableAccountId <;> trivial
  refine safe_authorize_bind (h₁.consistent hw) (hk.same h₁) fun hold w₂ hr => ?_
  unfold Safe
  rw [Prog.bind_eq, Prog.wp_bind, Prog.wp_attempt, Prog.wp_perform]
  intro r w₃ he
  have hr₃ := hr.same (env_same ⟨rfl, rfl⟩ (env_of_calm he))
  match r with
  | .error (.outcomeUnknown e) => exact safe_onUnknownOutcome hr₃
  | .error (.baas e) =>
    refine safe_void_bind hr₃ fun _ w₄ hw₄ => ?_
    exact safe_ask hw₄ ⟨rfl, rfl⟩ fun _ _ h => h.consistent hw₄
  | .error (.failure message) =>
    refine safe_void_bind hr₃ fun _ w₄ hw₄ => ?_
    exact safe_ask hw₄ ⟨rfl, rfl⟩ fun _ _ h => h.consistent hw₄
  | .ok sent =>
    refine safe_then (safe_recordSent hr₃.consistent fun h heq => ?_) fun _ w₄ hw₄ => safe_emit hw₄
    cases heq
    exact ⟨hr₃, calm_send hopen he⟩

/-- The hold of the operation that a request runs under can be taken. -/
def OperationReady (w : World) (actor : ActorContext) (kind : String) : Prop :=
  ∀ operationId, (actor.operationId = some operationId ∨
    (actor.operationId = none ∧ operationId ∉ w.minted)) → KeyReady w (kind ++ operationId)

theorem safe_requireAccount {α : Type} {accountId : String} {f : AccountRecord × String → Flow α}
    (hw : Consistent w.ledger w.transactions) (hf : ∀ a, Safe kind (f a) w) :
    Safe kind ((requireAccount accountId).bind f) w := by
  unfold Safe requireAccount
  rw [Prog.wp_bind]
  refine wp_fixed (fun _ _ => rfl) ?_
  simp only [Prog.onOk_ok]
  cases w.accounts.get accountId with
  | none => exact hw
  | some account =>
    dsimp only
    cases account.providerAccountId with
    | none => exact hw
    | some providerAccountId => exact hf (account, providerAccountId)

theorem safe_operationIdOf {α : Type} {actor : ActorContext} {prefixed : String}
    {f : String → Flow α} (hw : Consistent w.ledger w.transactions)
    (hk : OperationReady w actor prefixed)
    (hf : ∀ operationId w', Same w w' → KeyReady w' (prefixed ++ operationId) →
      Safe kind (f operationId) w') :
    Safe kind ((operationIdOf actor).bind f) w := by
  unfold operationIdOf
  cases ha : actor.operationId with
  | some operationId => exact hf operationId w ⟨rfl, rfl⟩ (hk operationId (.inl ha))
  | none =>
    unfold Safe
    rw [Prog.wp_bind, Prog.wp_perform]
    intro r w' he
    have hs : Same w w' := env_same ⟨rfl, rfl⟩ (env_of_calm he)
    cases r with
    | error e => exact hs.consistent hw
    | ok operationId =>
      refine hf operationId w' hs ((hk operationId (.inr ⟨ha, ?_⟩)).same hs)
      obtain ⟨c, _, _, hc⟩ := he
      unfold respond at hc
      simp only [World.mint] at hc
      by_cases hm : idOf .operation c.ulid ∈ w.minted
      · simp [hm] at hc
      · simp only [hm, if_false, reply, Option.some.injEq, Prod.mk.injEq, Except.ok.injEq] at hc
        exact hc.1 ▸ hm

theorem aside_lookupAtProvider (bound : BoundProvider) (providerAccountId operationId : String) :
    (lookupAtProvider bound providerAccountId operationId).Within Call.aside := by
  unfold lookupAtProvider
  split
  · refine Prog.meets_perform_attempt_bind.mpr ⟨⟨rfl, rfl⟩, fun r _ => ?_⟩
    cases r <;> trivial
  · trivial

theorem safe_send {actor : ActorContext} {accountId : String} {dto : SendPixDto}
    {reconcileFirst : Bool} (hopen : SendsOpen kind) (hw : Consistent w.ledger w.transactions)
    (hk : OperationReady w actor "pix-out:") :
    Safe kind (send actor accountId dto reconcileFirst) w := by
  unfold send
  refine safe_requireAccount hw fun a => ?_
  obtain ⟨account, providerAccountId⟩ := a
  refine safe_operationIdOf hw hk fun operationId w₁ h₁ hk₁ => ?_
  have hw₁ := h₁.consistent hw
  have hresolve : (resolveDestination dto).Within Call.aside := by
    unfold resolveDestination
    cases dto.destinationError <;> trivial
  cases reconcileFirst with
  | false =>
    refine safe_ask hw₁ ⟨rfl, rfl⟩ fun bound w₂ h₂ => ?_
    refine safe_bind (h₂.consistent hw₁) hresolve fun _ w₃ h₃ => ?_
    exact safe_sendHeld hopen (h₃.consistent (h₂.consistent hw₁)) ((hk₁.same h₂).same h₃)
  | true =>
    refine safe_ask hw₁ ⟨rfl, rfl⟩ fun already w₂ h₂ => ?_
    have hw₂ := h₂.consistent hw₁
    cases already with
    | some transaction => exact hw₂
    | none =>
      refine safe_ask hw₂ ⟨rfl, rfl⟩ fun bound w₃ h₃ => ?_
      have hw₃ := h₃.consistent hw₂
      refine safe_bind hw₃ hresolve fun _ w₄ h₄ => ?_
      have hw₄ := h₄.consistent hw₃
      refine safe_bind hw₄ (aside_lookupAtProvider bound providerAccountId operationId)
        fun remote w₅ h₅ => ?_
      have hw₅ := h₅.consistent hw₄
      cases remote with
      | some remote => exact safe_then (safe_recordSent hw₅ fun _ h => nomatch h) fun _ _ h => h
      | none => exact safe_sendHeld hopen hw₅ ((((hk₁.same h₂).same h₃).same h₄).same h₅)

theorem aside_findOriginal (accountId : String) (input : RefundInput) :
    (findOriginal accountId input).Within Call.aside := by
  have hcheck : ∀ original, (checkOriginal accountId original).Within Call.aside := by
    intro original
    cases original with
    | none => trivial
    | some original =>
      dsimp only [checkOriginal]
      split
      · trivial
      · split <;> trivial
  unfold findOriginal
  cases input.transactionId with
  | some id => exact Prog.meets_perform_bind.mpr ⟨⟨rfl, rfl⟩, fun o _ => hcheck o, fun _ _ => trivial⟩
  | none => exact Prog.meets_perform_bind.mpr ⟨⟨rfl, rfl⟩, fun o _ => hcheck o, fun _ _ => trivial⟩

theorem safe_refundHeld {actor : ActorContext} {account : AccountRecord} {providerAccountId : String}
    {input : RefundInput} {original : TransactionRecord} {endToEndId : String} {amount : Int}
    {bound : BoundProvider} {operationId : String} (hopen : RefundsOpen kind)
    (hw : Consistent w.ledger w.transactions) (hk : KeyReady w ("pix-refund:" ++ operationId)) :
    Safe kind (refundHeld actor account providerAccountId input original endToEndId amount
      bound operationId) w := by
  unfold refundHeld
  refine safe_bind hw ?_ fun availableId w₁ h₁ => ?_
  · unfold requireLedgerAccount
    cases account.ledgerAvailableAccountId <;> trivial
  refine safe_authorize_bind (h₁.consistent hw) (hk.same h₁) fun hold w₂ hr => ?_
  unfold Safe
  rw [Prog.bind_eq, Prog.wp_bind, Prog.wp_attempt, Prog.wp_perform]
  intro r w₃ he
  have hr₃ := hr.same (env_same ⟨rfl, rfl⟩ (env_of_calm he))
  match r with
  | .error (.outcomeUnknown e) => exact hr₃.consistent
  | .error (.baas e) =>
    refine safe_void_bind hr₃ fun _ w₄ hw₄ => ?_
    exact safe_ask hw₄ ⟨rfl, rfl⟩ fun _ _ h => h.consistent hw₄
  | .error (.failure message) =>
    refine safe_void_bind hr₃ fun _ w₄ hw₄ => ?_
    exact safe_ask hw₄ ⟨rfl, rfl⟩ fun _ _ h => h.consistent hw₄
  | .ok refunded =>
    refine safe_ask hr₃.consistent ⟨rfl, rfl⟩ fun now w₄ h₄ => ?_
    have hr₄ := hr₃.same h₄
    refine safe_ask hr₄.consistent ⟨rfl, rfl⟩ fun id w₅ h₅ => ?_
    have hr₅ := hr₄.same h₅
    refine safe_create_bind hr₅.consistent (fun h heq => ?_) fun transaction w₆ hw₆ => ?_
    · cases heq
      exact ⟨hr₅.unheld, hr₅.pending, calm_refund hopen he⟩
    exact safe_ask hw₆ ⟨rfl, rfl⟩ fun _ w₇ h₇ => safe_emit (h₇.consistent hw₆)

theorem safe_refund {actor : ActorContext} {accountId : String} {input : RefundInput}
    (hopen : RefundsOpen kind) (hw : Consistent w.ledger w.transactions)
    (hk : OperationReady w actor "pix-refund:") :
    Safe kind (refund actor accountId input) w := by
  unfold refund
  refine safe_requireAccount hw fun a => ?_
  obtain ⟨account, providerAccountId⟩ := a
  refine safe_operationIdOf hw hk fun operationId w₁ h₁ hk₁ => ?_
  have hw₁ := h₁.consistent hw
  refine safe_bind hw₁ (aside_findOriginal accountId input) fun original w₂ h₂ => ?_
  have hw₂ := h₂.consistent hw₁
  cases original.endToEndId.filter (fun id => !id.isEmpty) with
  | none => exact hw₂
  | some endToEndId =>
    refine safe_ask hw₂ ⟨rfl, rfl⟩ fun now w₃ h₃ => ?_
    have hw₃ := h₃.consistent hw₂
    split
    · exact hw₃
    · dsimp only
      split
      · exact hw₃
      · refine safe_ask hw₃ ⟨rfl, rfl⟩ fun bound w₄ h₄ => ?_
        exact safe_refundHeld hopen (h₄.consistent hw₃) (((hk₁.same h₂).same h₃).same h₄)

theorem aside_bookkeeping (q : Call) (hq : Call.bookkeeping q = true) : Call.aside q := by
  cases q <;> simp_all [Call.bookkeeping, Call.aside, Call.touchesLedger, Call.touchesTransactions]

theorem aside_recorded (ctx : ApplyContext) (resourceType resourceId : String)
    (reason : StatusChangeRejection) : ((handleRejection ctx resourceType resourceId reason).bind
      fun _ => .pure DraftOutcome.recorded).Within Call.aside := by
  have h := handleRejection_within aside_bookkeeping ctx resourceType resourceId reason
  simpa [Prog.meets_bind] using h

section Webhook

variable {ctx : ApplyContext} {draft : CanonicalEventDraft} {data : PaymentEventData}

theorem aside_applyAccount (incoming : AccountStatus) :
    (applyAccount ctx draft incoming).Within Call.aside := by
  unfold applyAccount
  refine Prog.meets_perform_bind.mpr ⟨⟨rfl, rfl⟩, fun found _ => ?_, fun _ _ => trivial⟩
  cases found with
  | none => trivial
  | some account =>
    refine Prog.meets_perform_bind.mpr ⟨⟨rfl, rfl⟩, fun result _ => ?_, fun _ _ => trivial⟩
    cases result with
    | applied record => trivial
    | rejected reason current => exact aside_recorded ctx _ _ reason

theorem safe_creditInbound {account : AccountRecord} {availableId : String}
    (hw : Consistent w.ledger w.transactions) :
    Safe kind (creditInbound ctx draft data account availableId) w := by
  unfold creditInbound
  refine safe_credit_bind hw fun posted w₁ hw₁ => ?_
  refine safe_ask hw₁ ⟨rfl, rfl⟩ fun id w₂ h₂ => ?_
  refine safe_create_bind (h₂.consistent hw₁) (fun _ h => nomatch h) fun transaction w₃ hw₃ => ?_
  exact safe_ask hw₃ ⟨rfl, rfl⟩ fun _ w₄ h₄ => safe_emit (h₄.consistent hw₃)

theorem safe_receiveInbound (hw : Consistent w.ledger w.transactions) :
    Safe kind (receiveInbound ctx draft data) w := by
  unfold receiveInbound
  cases data.providerAccountId with
  | none => exact hw
  | some providerAccountId =>
    refine safe_ask hw ⟨rfl, rfl⟩ fun account w₁ h₁ => ?_
    have hw₁ := h₁.consistent hw
    cases account with
    | none => exact hw₁
    | some account =>
      dsimp only
      cases account.ledgerAvailableAccountId with
      | none => exact hw₁
      | some availableId =>
        have hrest : ∀ (duplicate : Option TransactionRecord) (v : World),
            Consistent v.ledger v.transactions →
              Safe kind (creditOnce ctx draft data account availableId duplicate) v := by
          intro duplicate v hv
          cases duplicate with
          | none => exact safe_creditInbound hv
          | some _ =>
            refine safe_bind hv (onDuplicate_within aside_bookkeeping ctx _) fun _ _ h => ?_
            exact h.consistent hv
        cases data.endToEndId with
        | none => exact hrest none w₁ hw₁
        | some endToEndId =>
          exact safe_ask hw₁ ⟨rfl, rfl⟩ fun duplicate w₂ h₂ => hrest duplicate w₂ (h₂.consistent hw₁)

/-- The event moves the transaction it is about and the hold together, or
leaves both. -/
def EventOrderly (w : World) (ctx : ApplyContext) (draft : CanonicalEventDraft) : Prop :=
  ∀ transitionTo data t, draft.subject = .transaction transitionTo data →
    locate w ctx draft data = some t →
    Orderly w t (data.status.getD transitionTo) (occurredAtOf ctx draft) data.endToEndId t.id

theorem safe_applyDraft (hw : Consistent w.ledger w.transactions) (ho : EventOrderly w ctx draft) :
    Safe kind (applyDraft ctx draft) w := by
  unfold applyDraft
  cases hs : draft.subject with
  | account transitionTo => exact safe_aside hw (aside_applyAccount transitionTo)
  | transaction transitionTo data =>
    dsimp only
    unfold applyTransaction Safe
    rw [Prog.bind_eq, Prog.wp_bind]
    refine Prog.wp_mono _ (wp_findTransaction_calm kind) fun r w' h => ?_
    obtain ⟨rfl, rfl⟩ := h
    rw [Prog.onOk_ok]
    cases hl : locate w' ctx draft data with
    | none =>
      dsimp only
      split
      · exact hw
      · exact safe_receiveInbound hw
    | some t =>
      dsimp only
      rw [applyToExisting_eq]
      refine safe_status_write hw (locate_stored hl) (ho transitionTo data t hs hl)
        (fun _ => ⟨rfl, rfl, rfl, rfl⟩) fun _ result => ?_
      cases result with
      | applied record =>
        exact Prog.meets_perform_bind.mpr ⟨⟨rfl, rfl⟩, fun _ _ => trivial, fun _ _ => trivial⟩
      | rejected reason current => exact aside_recorded ctx _ _ reason

end Webhook

/-- What the reconciler finds moves the transaction and its hold together, or
leaves both. -/
def ResolutionOrderly (w : World) (operationId : String) (remote : Remote) : Prop :=
  ∀ operation t found, w.operations.get operationId = some operation →
    w.transactions.search (fun u => u.idempotencyKey == some operation.providerIdempotencyKey) = some t →
    remote.lookup w.provider t = some found →
    Orderly w t found.status remote.now found.endToEndId operation.id

theorem safe_applyOutcome {remote : Remote} {operation : OperationRecord} {t : TransactionRecord}
    {found : PixTransaction} (hw : Consistent w.ledger w.transactions)
    (ht : w.transactions.get t.id = some t)
    (ho : Orderly w t found.status remote.now found.endToEndId operation.id) :
    Safe remote.answers (applyOutcome operation t found) w := by
  unfold applyOutcome recordOutcome
  refine wp_fixed (fun c hc => congrArg (fun now => reply now w) hc.1) ?_
  rw [Prog.onOk_ok, resolveHold_eq]
  refine safe_status_write hw ht ho (fun _ => ⟨rfl, rfl, rfl, rfl⟩) fun _ result => ?_
  refine Prog.meets_perform_bind.mpr ⟨⟨rfl, rfl⟩, fun _ _ => ?_, fun _ _ => trivial⟩
  refine Prog.meets_perform_bind.mpr ⟨⟨rfl, rfl⟩, fun _ _ => ?_, fun _ _ => trivial⟩
  cases result <;> trivial

theorem safe_resolve {operationId : String} {remote : Remote}
    (hw : Consistent w.ledger w.transactions) (ho : ResolutionOrderly w operationId remote) :
    Safe remote.answers (resolve operationId) w := by
  unfold resolve
  refine wp_fixed (fun _ _ => rfl) ?_
  rw [Prog.onOk_ok]
  cases hop : w.operations.get operationId with
  | none => exact hw
  | some operation =>
    dsimp only
    split
    · exact hw
    · refine wp_fixed (fun _ _ => rfl) ?_
      rw [Prog.onOk_ok]
      cases ht : w.transactions.search
        (fun u => u.idempotencyKey == some operation.providerIdempotencyKey) with
      | none => exact hw
      | some t =>
        refine wp_fixed (fun _ _ => rfl) ?_
        rw [Prog.onOk_ok]
        cases (w.accounts.get t.accountId).bind (·.providerAccountId) with
        | none => exact hw
        | some providerAccountId =>
          refine wp_fixed (fun _ _ => rfl) ?_
          rw [Prog.onOk_ok]
          refine safe_ask hw ⟨rfl, rfl⟩ fun _ w₁ h₁ => ?_
          have hw₁ := h₁.consistent hw
          unfold Safe
          rw [Prog.bind_eq, Prog.wp_bind]
          refine Prog.wp_mono _ wp_lookup fun r w₂ h => ?_
          obtain ⟨rfl, rfl⟩ := h
          rw [Prog.onOk_ok]
          cases hl : remote.lookup w.provider t with
          | none =>
            dsimp only
            split <;> exact hw₁
          | some found =>
            refine safe_applyOutcome hw₁ ?_ ((ho operation t found hop ht hl).same h₁)
            rw [h₁.transactions]
            exact (Rows.search_some ht).2

/-- A status written straight to a transaction does not end a payment with a hold. -/
def WriteOrderly (w : World) (transactionId : String) (toStatus : TransactionStatus) (now : Int) : Prop :=
  ∀ t hold, w.transactions.get transactionId = some t → t.ledgerPendingTransactionId = some hold →
    t.guard toStatus now = none → isFinal toStatus = false

theorem safe_markProviderAuthoritative {quebra : BreakIntent} {toStatus : TransactionStatus} {now : Int}
    (hw : Consistent w.ledger w.transactions)
    (ho : ∀ id, quebra.localItemId = some id → WriteOrderly w id toStatus now) :
    Safe (fun c => c.instant = now) (markProviderAuthoritative quebra toStatus) w := by
  unfold markProviderAuthoritative
  cases hl : quebra.localItemId with
  | none => exact hw
  | some transactionId =>
    refine wp_fixed (fun c hc => congrArg (fun i => reply i w) hc) ?_
    rw [Prog.onOk_ok]
    refine safe_change_bind hw (ho transactionId hl) fun result => ?_
    cases result with
    | rejected reason current => trivial
    | applied record =>
      have h : (recordAudit quebra "reconciliation.provider_authoritative").Within Call.aside :=
        Prog.meets_perform_bind.mpr ⟨⟨rfl, rfl⟩, fun _ _ => aside_ask ⟨rfl, rfl⟩, fun _ _ => trivial⟩
      simpa [Prog.meets_bind] using h

/-- The handling of a break resolution that cancels the local transaction. -/
def CancelOrderly (w : World) (breakId : String) (now : Int) : Prop :=
  ∀ quebra itemId item transactionId, w.breaks.get breakId = some quebra →
    quebra.localItemId = some itemId → w.items.get itemId = some item →
    item.externalId = some transactionId → WriteOrderly w transactionId .CANCELLED now

theorem safe_cancelLocalRecord {quebra : ReconciliationBreakRecord} {now : Int}
    (hw : Consistent w.ledger w.transactions)
    (ho : ∀ itemId item transactionId, quebra.localItemId = some itemId →
      w.items.get itemId = some item → item.externalId = some transactionId →
      WriteOrderly w transactionId .CANCELLED now) :
    Safe (fun c => c.instant = now) (cancelLocalRecord quebra) w := by
  unfold cancelLocalRecord
  cases hl : quebra.localItemId with
  | none => exact hw
  | some itemId =>
    refine wp_fixed (fun _ _ => rfl) ?_
    rw [Prog.onOk_ok]
    cases hi : w.items.get itemId with
    | none => exact hw
    | some item =>
      cases he : item.externalId with
      | none =>
        simp only [Option.bind_some, he]
        exact hw
      | some transactionId =>
        simp only [Option.bind_some, he]
        refine wp_fixed (fun c hc => congrArg (fun i => reply i w) hc) ?_
        rw [Prog.onOk_ok]
        refine safe_change_bind hw (ho itemId item transactionId hl hi he) fun result => ?_
        cases result <;> trivial

theorem safe_resolveBreak {breakId : String} {now : Int} (hw : Consistent w.ledger w.transactions)
    (ho : CancelOrderly w breakId now) :
    Safe (fun c => c.instant = now) (resolveBreak breakId .CANCEL_LOCAL_RECORD) w := by
  unfold resolveBreak
  refine wp_fixed (fun _ _ => rfl) ?_
  rw [Prog.onOk_ok]
  cases hb : w.breaks.get breakId with
  | none => exact hw
  | some quebra =>
    dsimp only
    split
    · exact hw
    · refine safe_then (safe_then (safe_cancelLocalRecord hw fun itemId item transactionId hl hi he =>
        ho quebra itemId item transactionId hb hl hi he) fun _ _ h => h) fun status w₁ hw₁ => ?_
      refine safe_ask hw₁ ⟨rfl, rfl⟩ fun _ w₂ h₂ => ?_
      refine safe_ask (h₂.consistent hw₁) ⟨rfl, rfl⟩ fun resolved w₃ h₃ => ?_
      refine safe_ask (h₃.consistent (h₂.consistent hw₁)) ⟨rfl, rfl⟩ fun _ w₄ h₄ => ?_
      have hw₄ := h₄.consistent (h₃.consistent (h₂.consistent hw₁))
      refine safe_ask hw₄ ⟨rfl, rfl⟩ fun _ w₅ h₅ => ?_
      have hw₅ := h₅.consistent hw₄
      cases quebra.accountId with
      | none => exact hw₅
      | some accountId => exact safe_emit hw₅

/-- What the connector is given to handle, with what the provider and the clock
answer on the way where this decides a status. -/
inductive Event
  | send (actor : ActorContext) (accountId : String) (dto : SendPixDto) (reconcileFirst : Bool)
      (answer : SendReply)
  | refund (actor : ActorContext) (accountId : String) (input : RefundInput) (answer : RefundReply)
  | webhook (ctx : ApplyContext) (draft : CanonicalEventDraft)
  | resolve (operationId : String) (remote : Remote)
  | markProviderAuthoritative (quebra : BreakIntent) (toStatus : TransactionStatus) (now : Int)
  | cancelLocalRecord (breakId : String) (now : Int)

/-- The handling of one event to its end, whatever it answers. Our own stores
answer every call; the provider answers as it likes. -/
def Event.Handled (w w' : World) : Event → Prop
  | .send actor accountId dto reconcileFirst answer =>
    ∃ r, (Transfers.send actor accountId dto reconcileFirst).Runs (calm fun c => c.sent = answer) w r w'
  | .refund actor accountId input answer =>
    ∃ r, (Refunds.refund actor accountId input).Runs (calm fun c => c.refunded = answer) w r w'
  | .webhook ctx draft => ∃ r, (applyDraft ctx draft).Runs (calm fun _ => True) w r w'
  | .resolve operationId remote =>
    ∃ r, (OperationReconciler.resolve operationId).Runs (calm remote.answers) w r w'
  | .markProviderAuthoritative quebra toStatus now =>
    ∃ r, (Worker.AutoResolution.markProviderAuthoritative quebra toStatus).Runs
      (calm fun c => c.instant = now) w r w'
  | .cancelLocalRecord breakId now =>
    ∃ r, (resolveBreak breakId .CANCEL_LOCAL_RECORD).Runs (calm fun c => c.instant = now) w r w'

def Event.Orderly (w : World) : Event → Prop
  | .send actor _ _ _ answer =>
    (∀ t, answer = .accepted t → isFinal t.status = false) ∧ OperationReady w actor "pix-out:"
  | .refund actor _ _ answer =>
    (∀ r, answer = .accepted r → isFinal r.status = false) ∧ OperationReady w actor "pix-refund:"
  | .webhook ctx draft => EventOrderly w ctx draft
  | .resolve operationId remote => ResolutionOrderly w operationId remote
  | .markProviderAuthoritative quebra toStatus now =>
    ∀ id, quebra.localItemId = some id → WriteOrderly w id toStatus now
  | .cancelLocalRecord breakId now => CancelOrderly w breakId now

theorem handled_consistent {e : Event} (h : e.Handled w w') (ho : e.Orderly w)
    (hw : Consistent w.ledger w.transactions) : Consistent w'.ledger w'.transactions := by
  cases e with
  | send actor accountId dto reconcileFirst answer =>
    obtain ⟨r, hr⟩ := h
    exact hr.of_wp (safe_send (fun c t hk ht => ho.1 t (hk.symm.trans ht)) hw ho.2)
  | refund actor accountId input answer =>
    obtain ⟨r, hr⟩ := h
    exact hr.of_wp (safe_refund (fun c t hk ht => ho.1 t (hk.symm.trans ht)) hw ho.2)
  | webhook ctx draft =>
    obtain ⟨r, hr⟩ := h
    exact hr.of_wp (safe_applyDraft hw ho)
  | resolve operationId remote =>
    obtain ⟨r, hr⟩ := h
    exact hr.of_wp (safe_resolve hw ho)
  | markProviderAuthoritative quebra toStatus now =>
    obtain ⟨r, hr⟩ := h
    exact hr.of_wp (safe_markProviderAuthoritative hw ho)
  | cancelLocalRecord breakId now =>
    obtain ⟨r, hr⟩ := h
    exact hr.of_wp (safe_resolveBreak hw ho)

/-- The handling of one event that the state allows. -/
def Next (allowed : World → Event → Prop) (w w' : World) : Prop :=
  ∃ e : Event, allowed w e ∧ e.Handled w w'

/-- Every outgoing transaction with a hold agrees with it. -/
def HoldsAgree (w : World) : Prop :=
  ∀ id t hold, w.transactions.get id = some t → t.direction = .DEBIT →
    t.ledgerPendingTransactionId = some hold → Agrees (holdStatus w.ledger hold) t.status

/-- In every run of orderly events, from a connector without transactions,
holds and statuses agree after each event. -/
theorem holds_agree (hstart : w.transactions = Rows.empty)
    (hrun : Relation.ReflTransGen (Next fun v e => e.Orderly v) w w') : HoldsAgree w' := by
  have h : Consistent w'.ledger w'.transactions := by
    induction hrun with
    | refl =>
      rw [hstart]
      exact consistent_empty w.ledger
    | tail _ hnext ih =>
      obtain ⟨e, ho, hh⟩ := hnext
      exact handled_consistent hh ho ih
  exact h.agree

section Sample

def sampleAnswer (status : TransactionStatus) : SendReply :=
  .accepted ⟨"ptx_1", some "E1", status, none, none⟩

def sampleSend (status : TransactionStatus) : Event :=
  .send ⟨"con_1", some "opr_1"⟩ "acc_1" ⟨6000, none, none⟩ false (sampleAnswer status)

def sendScript : List Choice :=
  [{}, {}, { mint := sampleMint "ltx_1" }, {}, { instant := 1000 }, { ulid := "1" }, {}, {}, {}]

theorem sampleSend_handled (status : TransactionStatus) :
    ∃ w', (sampleSend status).Handled (sampleWorld fundedLedger) w' ∧
      w'.transactions.get "txn_1" = some (sentTransfer status) ∧
      holdStatus w'.ledger "ltx_1" = some .PENDING :=
  ⟨_, ⟨_, runs_calm (fun c => { c with fault := none, sent := sampleAnswer status })
    (fun _ => ⟨rfl, rfl⟩) sendScript rfl⟩, rfl, rfl⟩

theorem sampleSend_ready :
    OperationReady (sampleWorld fundedLedger) ⟨"con_1", some "opr_1"⟩ "pix-out:" := by
  rintro operationId (h | ⟨h, _⟩)
  · cases h
    intro existing hx
    have hunused : (sampleWorld fundedLedger).ledger.findByIdempotencyKey ("pix-out:" ++ "opr_1") =
      none := by decide
    rw [hunused] at hx
    cases hx
  · cases h

/-- A transfer that the provider takes up without a final answer. -/
theorem holds_agree_processing : ∃ w', w'.transactions.get "txn_1" = some (sentTransfer .PROCESSING) ∧
    HoldsAgree w' := by
  obtain ⟨w', hh, ht, _⟩ := sampleSend_handled .PROCESSING
  have ho : (sampleSend .PROCESSING).Orderly (sampleWorld fundedLedger) := by
    refine ⟨fun t ht => ?_, sampleSend_ready⟩
    cases ht
    rfl
  exact ⟨w', ht, holds_agree rfl (.single ⟨_, ho, hh⟩)⟩

/-- A transfer that the provider settles in its answer keeps its hold pending. -/
theorem settled_answer_keeps_hold :
    ¬ ∀ w w' : World, w.transactions = Rows.empty →
      Relation.ReflTransGen (Next fun _ _ => True) w w' → HoldsAgree w' := by
  intro h
  obtain ⟨w', hh, ht, hpending⟩ := sampleSend_handled .SETTLED
  have hagree := h (sampleWorld fundedLedger) w' rfl (.single ⟨_, trivial, hh⟩) "txn_1" _ "ltx_1" ht rfl rfl
  have hopen := hagree.pending.mp hpending
  cases hopen

end Sample

end BaasConnector.Pix.HoldRuns
