import BaasConnector.Pix.OperationReconciler

namespace BaasConnector.Webhooks.Apply

open BaasConnector.Lib.Effects BaasConnector.Taxonomy.Status BaasConnector.Taxonomy.Errors
open BaasConnector.Connector.Records BaasConnector.Connector.Calls BaasConnector.Ledger.Shadow
open BaasConnector.Pix.OperationReconciler

/-- `recorded` means not applied, with the reason already written down. -/
inductive DraftOutcome
  | applied | recorded | ignored
deriving DecidableEq, Repr

/-- Where a draft came from. A webhook names the event that rejections mark;
a reconciliation has none. -/
structure ApplyContext where
  connectionId : String
  provider : String
  receivedAt : Int
  eventId : Option String
deriving DecidableEq, Repr

def onDuplicate (ctx : ApplyContext) (reason : String) : Flow Unit :=
  match ctx.eventId with
  | some eventId => ask (.eventMarkDiscarded eventId reason)
  | none => return ()

def onAnomaly (ctx : ApplyContext) : Flow Unit := do
  match ctx.eventId with
  | some eventId =>
    let _ ← ask .now
    ask (.eventMarkProcessed eventId)
  | none => return ()

def handleRejection (ctx : ApplyContext) (resourceType resourceId : String)
    (reason : StatusChangeRejection) : Flow Unit := do
  if reason ≠ .illegal_transition then onDuplicate ctx (reason.text)
  else
    let _ ← ask .now
    ask (.emit (.audit "webhook.anomaly.illegal_transition" resourceId))
    let _ ← ask .now
    ask (.emit (.outbox "COMPLIANCE_ALERT_RAISED" resourceType resourceId))
    onAnomaly ctx

def occurredAtOf (ctx : ApplyContext) (draft : CanonicalEventDraft) : Int :=
  draft.occurredAt.getD ctx.receivedAt

def applyAccount (ctx : ApplyContext) (draft : CanonicalEventDraft) (incoming : AccountStatus) :
    Flow DraftOutcome := do
  match ← ask (.accountFindByProviderAccountId ctx.provider draft.providerId) with
  | none => return .ignored
  | some account =>
    match ← ask (.accountApplyStatusChange ⟨account.id, incoming, occurredAtOf ctx draft⟩) with
    | .applied _ => return .applied
    | .rejected reason _ =>
      handleRejection ctx "account" account.id reason
      return .recorded

/-- By the provider's id first, by the end-to-end id second. -/
def findTransaction (ctx : ApplyContext) (draft : CanonicalEventDraft) (data : PaymentEventData) :
    Flow (Option TransactionRecord) := do
  match ← ask (.transactionFindByProviderTransactionId ctx.provider draft.providerId) with
  | some transaction => return some transaction
  | none =>
    match data.endToEndId with
    | some endToEndId => ask (.transactionFindByEndToEndId endToEndId)
    | none => return none

def inboundDraft (ctx : ApplyContext) (draft : CanonicalEventDraft) (data : PaymentEventData)
    (accountId id postedTransactionId : String) (occurredAt : Int) : TransactionRecord :=
  { id := id
    accountId := accountId
    parentTransactionId := none
    type := if draft.type = "PIX_REFUND_SETTLED" then .PIX_REFUND_IN else .PIX_IN
    direction := .CREDIT
    status := data.status.getD .SETTLED
    lastEventAt := some occurredAt
    amountCents := data.amountCents.getD 0
    refundedAmountCents := 0
    provider := ctx.provider
    providerConnectionId := ctx.connectionId
    providerTransactionId := some draft.providerId
    externalId := none
    idempotencyKey := none
    operationId := none
    failureCode := none
    providerFailureCode := none
    failureMessage := none
    requestedAt := occurredAt
    settledAt := some (data.settledAt.getD occurredAt)
    failedAt := none
    ledgerPendingTransactionId := none
    ledgerPostedTransactionId := some postedTransactionId
    endToEndId := data.endToEndId }

def creditInbound (ctx : ApplyContext) (draft : CanonicalEventDraft) (data : PaymentEventData)
    (account : AccountRecord) (availableId : String) : Flow DraftOutcome := do
  let posted ← ask (.ledger (.creditIn availableId (data.amountCents.getD 0)
    ("pix-in:" ++ draft.providerId) (some (data.endToEndId.getD draft.providerId))))
  let id ← ask (.newId .transaction)
  let transaction ← ask (.transactionCreate (inboundDraft ctx draft data account.id id
    posted.transaction.id (occurredAtOf ctx draft)))
  ask (.emit (.outbox draft.type "transaction" transaction.id))
  ask (.emit (.invalidate account.id))
  return .applied

/-- The credit of a payment that is received, once for its end-to-end id. -/
def creditOnce (ctx : ApplyContext) (draft : CanonicalEventDraft) (data : PaymentEventData)
    (account : AccountRecord) (availableId : String) : Option TransactionRecord → Flow DraftOutcome
  | some _ => do
    onDuplicate ctx "e2eid ja registrado"
    return .recorded
  | none => creditInbound ctx draft data account availableId

def receiveInbound (ctx : ApplyContext) (draft : CanonicalEventDraft) (data : PaymentEventData) :
    Flow DraftOutcome := do
  match data.providerAccountId with
  | none => return .ignored
  | some providerAccountId =>
    match ← ask (.accountFindByProviderAccountId ctx.provider providerAccountId) with
    | none => return .ignored
    | some account =>
      match account.ledgerAvailableAccountId with
      | none => return .ignored
      | some availableId =>
        let duplicate ← match data.endToEndId with
          | some endToEndId => ask (.transactionFindByEndToEndId endToEndId)
          | none => pure none
        creditOnce ctx draft data account availableId duplicate

/-- The ledger side of a payment event, ahead of the guarded status write. -/
def resolveEventHold (existing : TransactionRecord) (incoming : TransactionStatus) :
    Flow (Option String) := do
  match existing.ledgerPendingTransactionId with
  | none => return none
  | some hold =>
    if isSettled incoming then
      let resolved ← ask (.ledger (.settleOut hold ("pix-out-settle:" ++ existing.id)))
      return some resolved.transaction.id
    else if isFailed incoming then
      let resolved ← ask (.ledger (.voidOut hold ("pix-out-void:" ++ existing.id)))
      return some resolved.transaction.id
    else return none

def eventChange (existing : TransactionRecord) (data : PaymentEventData)
    (incoming : TransactionStatus) (ledgerPostedTransactionId : Option String) (occurredAt : Int) :
    TransactionStatusChange :=
  { transactionId := existing.id
    toStatus := incoming
    failureCode := none
    providerFailureCode := none
    failureMessage := none
    endToEndId := data.endToEndId
    settledAt := data.settledAt.orElse fun _ => if isSettled incoming then some occurredAt else none
    ledgerPostedTransactionId := ledgerPostedTransactionId
    occurredAt := occurredAt }

/-- What follows the resolution of the hold. -/
def finish (ctx : ApplyContext) (draft : CanonicalEventDraft) (data : PaymentEventData)
    (incoming : TransactionStatus) (existing : TransactionRecord)
    (ledgerPostedTransactionId : Option String) : Flow DraftOutcome := do
  match ← ask (.transactionApplyStatusChange (eventChange existing data incoming
    ledgerPostedTransactionId (occurredAtOf ctx draft))) with
  | .rejected reason _ =>
    handleRejection ctx "transaction" existing.id reason
    return .recorded
  | .applied _ =>
    ask (.emit (.invalidate existing.accountId))
    return .applied

def applyToExisting (ctx : ApplyContext) (draft : CanonicalEventDraft) (data : PaymentEventData)
    (incoming : TransactionStatus) (existing : TransactionRecord) : Flow DraftOutcome := do
  let ledgerPostedTransactionId ← resolveEventHold existing incoming
  finish ctx draft data incoming existing ledgerPostedTransactionId

def applyTransaction (ctx : ApplyContext) (draft : CanonicalEventDraft)
    (transitionTo : TransactionStatus) (data : PaymentEventData) : Flow DraftOutcome := do
  match ← findTransaction ctx draft data with
  | some existing => applyToExisting ctx draft data (data.status.getD transitionTo) existing
  | none =>
    if data.direction ≠ some .incoming then return .ignored
    else receiveInbound ctx draft data

def applyDraft (ctx : ApplyContext) (draft : CanonicalEventDraft) : Flow DraftOutcome :=
  match draft.subject with
  | .account transitionTo => applyAccount ctx draft transitionTo
  | .transaction transitionTo data => applyTransaction ctx draft transitionTo data

def aggregateKey (draft : CanonicalEventDraft) : String :=
  match draft.subject with
  | .account _ => "account:" ++ draft.providerId
  | .transaction .. => "transaction:" ++ draft.providerId

/-- The lock of one aggregate around its work, given back also when the work throws. -/
def lockRun {α : Type} (key : String) (body : Flow α) : Flow (Option α) := do
  match ← (ask (.lockAcquire key)).attempt with
  | .error _ => return none
  | .ok false => return none
  | .ok true =>
    let result ← body.attempt
    let _ ← (ask (.lockRelease key)).attempt
    match result with
    | .ok value => return some value
    | .error e => throw e

structure ApplyDraftsResult where
  outcomes : List DraftOutcome
  lockLost : Bool
deriving DecidableEq, Repr

def applyDrafts (ctx : ApplyContext) : List CanonicalEventDraft → Flow ApplyDraftsResult
  | [] => return ⟨[], false⟩
  | draft :: drafts => do
    match ← lockRun (aggregateKey draft) (applyDraft ctx draft) with
    | none => return ⟨[], true⟩
    | some outcome =>
      let rest ← applyDrafts ctx drafts
      return ⟨outcome :: rest.outcomes, rest.lockLost⟩

def maxAttempts : Nat := 2

def Thrown.message : Thrown → String
  | .baas error => error.message
  | .outcomeUnknown error => error.message
  | .failure message => message

def applyEvent (event : InboundEventRecord) : Flow Unit := do
  let bound ← ask (.providerResolve event.connectionId)
  if event.payload.isEmpty then
    let _ ← ask .now
    ask (.eventMarkProcessed event.id)
  else
    let result ← applyDrafts ⟨event.connectionId, bound.slug, event.receivedAt, some event.id⟩
      event.payload
    if result.lockLost then ask (.emit (.enqueueWebhook event.id (some 250)))
    else if .applied ∈ result.outcomes then
      let _ ← ask .now
      ask (.eventMarkProcessed event.id)
    else if .recorded ∉ result.outcomes then
      ask (.eventMarkDiscarded event.id "nenhum rascunho aplicavel")
    else return ()

def apply (eventId : String) : Flow Unit := do
  match ← ask (.eventFindById eventId) with
  | none => return ()
  | some event =>
    let won ← ask (.eventMarkProcessing eventId)
    if ¬ won then return ()
    else
      match ← (applyEvent event).attempt with
      | .ok _ => return ()
      | .error e =>
        let deadLetter := decide (event.attempts + 1 ≥ maxAttempts)
        ask (.eventMarkFailed eventId (Thrown.message e) deadLetter)
        if ¬ deadLetter then throw e else return ()

end BaasConnector.Webhooks.Apply
