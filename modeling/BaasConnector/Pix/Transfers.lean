import BaasConnector.Connector.Database

namespace BaasConnector.Pix.Transfers

open BaasConnector.Lib.Effects BaasConnector.Taxonomy.Status BaasConnector.Taxonomy.Errors
open BaasConnector.Connector.Records BaasConnector.Connector.Calls BaasConnector.Ledger.Shadow

structure ActorContext where
  connectionId : String
  operationId : Option String
deriving DecidableEq, Repr

/-- The body of a transfer. Its destination stands as the error that resolving
it raises, if any. -/
structure SendPixDto where
  amountCents : Int
  externalId : Option String
  destinationError : Option BaasError
deriving DecidableEq, Repr

inductive SendOutcome
  | settled (transaction : TransactionRecord)
  | accepted (transaction : TransactionRecord) (operation : OperationRecord)
deriving DecidableEq, Repr

def requireAccount (accountId : String) : Flow (AccountRecord × String) := do
  match ← ask (.accountFindById accountId) with
  | none => fail .ACCOUNT_NOT_FOUND s!"Conta {accountId} nao encontrada."
  | some account =>
    match account.providerAccountId with
    | none => fail .ACCOUNT_NOT_ACTIVE "A conta ainda nao foi aberta no provedor."
    | some providerAccountId => return (account, providerAccountId)

def requireLedgerAccount (account : AccountRecord) : Flow String :=
  match account.ledgerAvailableAccountId with
  | none =>
    let id := account.id
    fail .INTERNAL_ERROR s!"A conta {id} nao tem conta de razao sombra aberta."
  | some availableId => return availableId

def operationIdOf (actor : ActorContext) : Flow String :=
  match actor.operationId with
  | some operationId => return operationId
  | none => ask (.newId .operation)

def resolveDestination (dto : SendPixDto) : Flow Unit :=
  match dto.destinationError with
  | some error => throw (Thrown.baas error)
  | none => return ()

/-- Ask the provider for our own key. A lookup that fails counts as not found. -/
def lookupAtProvider (bound : BoundProvider) (providerAccountId operationId : String) :
    Flow (Option PixTransaction) := do
  if bound.findByIdempotencyKey then
    match ← (ask (.providerFindByIdempotencyKey providerAccountId operationId)).attempt with
    | .ok found => return found
    | .error _ => return none
  else return none

/-- What the writes of one transfer share. -/
structure Transfer where
  actor : ActorContext
  account : AccountRecord
  provider : String
  dto : SendPixDto
  operationId : String

def draft (t : Transfer) (id : String) (status : TransactionStatus)
    (holdTransactionId : Option String) (now : Int) : TransactionRecord :=
  { id := id
    accountId := t.account.id
    parentTransactionId := none
    type := .PIX_OUT
    direction := .DEBIT
    status := status
    lastEventAt := some now
    amountCents := t.dto.amountCents
    refundedAmountCents := 0
    provider := t.provider
    providerConnectionId := t.actor.connectionId
    providerTransactionId := none
    externalId := t.dto.externalId
    idempotencyKey := some t.operationId
    operationId := some t.operationId
    failureCode := none
    providerFailureCode := none
    failureMessage := none
    requestedAt := now
    settledAt := none
    failedAt := none
    ledgerPendingTransactionId := holdTransactionId
    ledgerPostedTransactionId := none
    endToEndId := none }

def sentDraft (t : Transfer) (id : String) (sent : PixTransaction)
    (holdTransactionId : Option String) (now : Int) : TransactionRecord :=
  { draft t id sent.status holdTransactionId now with
    providerTransactionId := some sent.providerTransactionId
    settledAt := sent.settledAt }

/-- Store the transaction under the status the provider answered with. The
end-to-end id goes on the returned record only. -/
def recordSent (t : Transfer) (sent : PixTransaction) (holdTransactionId : Option String) :
    Flow TransactionRecord := do
  let now ← ask .now
  let id ← ask (.newId .transaction)
  let transaction ← ask (.transactionCreate (sentDraft t id sent holdTransactionId now))
  ask (.emit (.outbox "PIX_OUT_PENDING" "transaction" transaction.id))
  return { transaction with endToEndId := sent.endToEndId.orElse fun _ => transaction.endToEndId }

def unknownOperation (t : Transfer) (transactionId : String) (now : Int) : OperationRecord :=
  { id := t.operationId
    connectionId := t.actor.connectionId
    kind := "pix.out"
    providerIdempotencyKey := t.operationId
    status := .UNKNOWN
    requestDigest := transactionId
    providerRef := none
    endToEndId := none
    amountCents := some t.dto.amountCents
    accountId := some t.account.id
    attempts := 1
    createdAt := now }

/-- The outcome is unknown: store transaction and operation as such and keep
the hold. -/
def onUnknownOutcome (t : Transfer) (holdTransactionId : String) : Flow SendOutcome := do
  let now ← ask .now
  let id ← ask (.newId .transaction)
  let transaction ← ask (.transactionCreate (draft t id .UNKNOWN (some holdTransactionId) now))
  let operation ← ask (.operationCreate (unknownOperation t transaction.id now))
  ask (.emit (.outbox "PIX_OUT_PENDING" "transaction" transaction.id))
  ask (.emit (.enqueueResolve operation.id 0 none))
  return .accepted transaction operation

/-- Hold first, then send under our own operation id. -/
def sendHeld (t : Transfer) (providerAccountId : String) : Flow SendOutcome := do
  let availableId ← requireLedgerAccount t.account
  let hold ← ask (.ledger (.authorizeOut availableId t.dto.amountCents ("pix-out:" ++ t.operationId)
    (some t.operationId)))
  match ← (ask (.providerSend ⟨providerAccountId, t.operationId, t.dto.amountCents⟩)).attempt with
  | .error (.outcomeUnknown _) => onUnknownOutcome t hold.transaction.id
  | .error e =>
    let _ ← ask (.ledger (.voidOut hold.transaction.id ("pix-out-void:" ++ t.operationId)))
    ask (.emit (.invalidate t.account.id))
    throw e
  | .ok sent =>
    let transaction ← recordSent t sent (some hold.transaction.id)
    ask (.emit (.invalidate t.account.id))
    return .settled transaction

def send (actor : ActorContext) (accountId : String) (dto : SendPixDto) (reconcileFirst : Bool) :
    Flow SendOutcome := do
  let (account, providerAccountId) ← requireAccount accountId
  let operationId ← operationIdOf actor
  let already ←
    if reconcileFirst then ask (.transactionFindByIdempotencyKey operationId) else pure none
  match already with
  | some transaction => return .settled transaction
  | none =>
    let bound ← ask (.providerRequire actor.connectionId .pixOutSend)
    resolveDestination dto
    let t : Transfer := ⟨actor, account, bound.slug, dto, operationId⟩
    let remote ←
      if reconcileFirst then lookupAtProvider bound providerAccountId operationId else pure none
    match remote with
    | some remote => return .settled (← recordSent t remote none)
    | none => sendHeld t providerAccountId

end BaasConnector.Pix.Transfers
