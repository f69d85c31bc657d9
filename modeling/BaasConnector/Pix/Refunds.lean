import BaasConnector.Idempotency.Interceptor
import BaasConnector.Pix.Transfers

namespace BaasConnector.Pix.Refunds

open BaasConnector.Lib.Effects BaasConnector.Taxonomy.Status BaasConnector.Taxonomy.Errors
open BaasConnector.Connector.Records BaasConnector.Connector.Calls BaasConnector.Ledger.Shadow
open BaasConnector.Pix.Transfers

def refundWindowDays : Int := 90

def daysBetween (origin target : Int) : Int := (target - origin) / 86400000

structure RefundInput where
  transactionId : Option String
  originalEndToEndId : String
  amountCents : Option Int
  externalId : Option String
deriving DecidableEq, Repr

/-- The checks of `findOriginal` on what it has found. -/
def checkOriginal (accountId : String) : Option TransactionRecord → Flow TransactionRecord
  | none => fail .TRANSACTION_NOT_FOUND "Transacao original nao encontrada nesta conta."
  | some original =>
    if original.accountId ≠ accountId then
      fail .TRANSACTION_NOT_FOUND "Transacao original nao encontrada nesta conta."
    else if original.direction ≠ .CREDIT then
      fail .VALIDATION_ERROR "So e possivel devolver um Pix recebido."
    else return original

def findOriginal (accountId : String) (input : RefundInput) : Flow TransactionRecord := do
  let original ← match input.transactionId with
    | some id => ask (.transactionFindById id)
    | none => ask (.transactionFindByEndToEndId input.originalEndToEndId)
  checkOriginal accountId original

/-- An absent or zero amount refunds the original in full. -/
def refundAmount (input : RefundInput) (original : TransactionRecord) : Int :=
  match input.amountCents with
  | some cents => if cents = 0 then original.amountCents else cents
  | none => original.amountCents

def refundDraft (actor : ActorContext) (accountId : String) (original : TransactionRecord)
    (amount : Int) (bound : BoundProvider) (operationId id : String) (externalId : Option String)
    (refunded : PixRefund) (holdTransactionId : String) (now : Int) : TransactionRecord :=
  { id := id
    accountId := accountId
    parentTransactionId := some original.id
    type := .PIX_REFUND_OUT
    direction := .DEBIT
    status := refunded.status
    lastEventAt := some now
    amountCents := amount
    refundedAmountCents := 0
    provider := bound.slug
    providerConnectionId := actor.connectionId
    providerTransactionId := some refunded.providerRefundId
    externalId := externalId
    idempotencyKey := some operationId
    operationId := some operationId
    failureCode := none
    providerFailureCode := none
    failureMessage := none
    requestedAt := now
    settledAt := refunded.settledAt
    failedAt := none
    ledgerPendingTransactionId := some holdTransactionId
    ledgerPostedTransactionId := none
    endToEndId := none }

def refundHeld (actor : ActorContext) (account : AccountRecord) (providerAccountId : String)
    (input : RefundInput) (original : TransactionRecord) (endToEndId : String) (amount : Int)
    (bound : BoundProvider) (operationId : String) : Flow TransactionRecord := do
  let availableId ← requireLedgerAccount account
  let hold ← ask (.ledger (.authorizeOut availableId amount ("pix-refund:" ++ operationId)
    (some operationId)))
  match ← (ask (.providerRefund ⟨providerAccountId, operationId, endToEndId,
    original.providerTransactionId, amount⟩)).attempt with
  | .error (.outcomeUnknown e) => throw (Thrown.outcomeUnknown e)
  | .error e =>
    let _ ← ask (.ledger (.voidOut hold.transaction.id ("pix-refund-void:" ++ operationId)))
    ask (.emit (.invalidate account.id))
    throw e
  | .ok refunded =>
    let now ← ask .now
    let id ← ask (.newId .transaction)
    let transaction ← ask (.transactionCreate (refundDraft actor account.id original amount bound
      operationId id input.externalId refunded hold.transaction.id now))
    ask (.emit (.outbox "PIX_REFUND_CREATED" "transaction" transaction.id))
    ask (.emit (.invalidate account.id))
    return transaction

/-- A refund is a new transaction. It never consults the provider first, also
when it runs again under the same operation. -/
def refund (actor : ActorContext) (accountId : String) (input : RefundInput) :
    Flow TransactionRecord := do
  let (account, providerAccountId) ← requireAccount accountId
  let operationId ← operationIdOf actor
  let original ← findOriginal accountId input
  match original.endToEndId.filter (fun id => !id.isEmpty) with
  | none =>
    fail .VALIDATION_ERROR ("A transacao original ainda nao tem E2EID; sem ele o SPI nao aceita devolucao. "
      ++ "Aguarde a liquidacao.")
  | some endToEndId =>
    let now ← ask .now
    if daysBetween (original.settledAt.getD original.requestedAt) now > refundWindowDays then
      fail .REFUND_WINDOW_EXPIRED "A janela de 90 dias para devolver esta transacao ja passou."
    else
      let amount := refundAmount input original
      if original.refundedAmountCents + amount > original.amountCents then
        fail .REFUND_AMOUNT_EXCEEDS_ORIGINAL
          "A soma das devolucoes ultrapassaria o valor da transacao original."
      else
        let bound ← ask (.providerRequire actor.connectionId .pixRefundCreate)
        refundHeld actor account providerAccountId input original endToEndId amount bound operationId

end BaasConnector.Pix.Refunds

namespace BaasConnector.Pix.Controller

open BaasConnector.Lib.Effects BaasConnector.Connector.Records BaasConnector.Connector.Calls
open BaasConnector.Idempotency.Interceptor BaasConnector.Pix.Transfers BaasConnector.Pix.Refunds

structure SendTransferRequest where
  request : IdempotentRequest
  connectionId : String
  accountId : String
  dto : SendPixDto
deriving DecidableEq, Repr

structure CreateRefundRequest where
  request : IdempotentRequest
  connectionId : String
  accountId : String
  input : RefundInput
deriving DecidableEq, Repr

/-- 202 tells the client that the outcome is unknown and must not be retried. -/
def sendTransfer (t : SendTransferRequest) : Handler := fun context => do
  match ← send ⟨t.connectionId, context.operationId⟩ t.accountId t.dto
    context.reconcileBeforeExecute with
  | .accepted transaction operation => return (202, .accepted transaction operation)
  | .settled transaction => return (201, .transaction transaction)

def createRefund (t : CreateRefundRequest) : Handler := fun context => do
  let transaction ← refund ⟨t.connectionId, context.operationId⟩ t.accountId t.input
  return (201, .transaction transaction)

def transferFlow (t : SendTransferRequest) : Flow Response := handle t.request (sendTransfer t)

def refundFlow (t : CreateRefundRequest) : Flow Response := handle t.request (createRefund t)

end BaasConnector.Pix.Controller
