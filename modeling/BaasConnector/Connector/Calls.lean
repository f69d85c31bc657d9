import BaasConnector.Connector.Records
import BaasConnector.Ledger.Outcomes

namespace BaasConnector.Connector.Calls

open BaasConnector.Lib.Effects BaasConnector.Connector.Records BaasConnector.Taxonomy.Status
open BaasConnector.Taxonomy.Errors BaasConnector.Ledger.Types BaasConnector.Ledger.Shadow

structure SendRequest where
  providerAccountId : String
  idempotencyKey : String
  amountCents : Int
deriving DecidableEq, Repr

structure RefundRequest where
  providerAccountId : String
  idempotencyKey : String
  originalEndToEndId : String
  originalProviderTransactionId : Option String
  amountCents : Int
deriving DecidableEq, Repr

inductive Capability
  | accountsCreatePF | accountsCreatePJ | pixOutSend | pixRefundCreate
deriving DecidableEq, Repr

def Capability.text : Capability → String
  | .accountsCreatePF => "accounts.create.pf"
  | .accountsCreatePJ => "accounts.create.pj"
  | .pixOutSend => "pix.out.send"
  | .pixRefundCreate => "pix.refund.create"

/-- What the connector tells its queue, outbox, cache and audit trail, and the
holder and onboarding rows of an account. No modelled function reads these back. -/
inductive Signal
  | outbox (type subjectKind subjectId : String)
  | enqueueResolve (operationId : String) (step : Nat) (delayMs : Option Nat)
  | enqueueWebhook (eventId : String) (delayMs : Option Nat)
  | invalidate (accountId : String)
  | audit (action resourceId : String)
  | holder (taxIdIndex : String)
  | onboarding (accountId : String)
deriving DecidableEq, Repr

inductive Call
  | newId (kind : IdKind)
  | now
  | effectiveDate (instant : Int)
  | emit (signal : Signal)
  | accountFindById (id : String)
  | accountFindByProviderAccountId (provider providerAccountId : String)
  | accountFindByExternalId (externalId : String)
  | accountCreate (record : AccountRecord)
  | accountAttachProviderAccount (accountId providerAccountId : String) (status : AccountStatus)
  | accountAttachLedgerAccounts (accountId availableId : String)
  | accountApplyStatusChange (change : AccountStatusChange)
  | transactionFindById (id : String)
  | transactionFindByProviderTransactionId (provider providerTransactionId : String)
  | transactionFindByEndToEndId (endToEndId : String)
  | transactionFindByIdempotencyKey (idempotencyKey : String)
  | transactionCreate (record : TransactionRecord)
  | transactionApplyStatusChange (change : TransactionStatusChange)
  | operationFindById (id : String)
  | operationCreate (record : OperationRecord)
  | operationUpdate (update : OperationUpdate)
  | operationFindStuck (limit : Nat)
  | ledger (command : LedgerCommand)
  | ledgerOpenAccounts (accountId : String)
  | providerResolve (connectionId : String)
  | providerRequire (connectionId : String) (capability : Capability)
  | providerSend (request : SendRequest)
  | providerRefund (request : RefundRequest)
  | providerFindByIdempotencyKey (providerAccountId idempotencyKey : String)
  | providerGet (providerAccountId providerRef : String)
  | providerStatement (providerAccountId : String)
  | providerCreateAccount (externalId : String)
  | idempotencyClaim (claim : IdempotencyClaim)
  | idempotencyStealLease (id : String) (leaseSeconds : Int)
  | idempotencyRenewLease (id : String) (leaseSeconds : Int)
  | idempotencyComplete (completion : IdempotencyCompletion)
  | idempotencyRelease (id : String)
  | eventFindById (id : String)
  | eventMarkProcessing (id : String)
  | eventMarkProcessed (id : String)
  | eventMarkDiscarded (id reason : String)
  | eventMarkFailed (id error : String) (deadLetter : Bool)
  | lockAcquire (key : String)
  | lockRelease (key : String)
  | breakFindById (id : String)
  | breakUpsert (row : ReconciliationBreakRecord)
  | breakResolveManually (id : String) (status : BreakStatus)
  | itemFindById (id : String)
  | runStart (id : String)

/-- The provider's answer to the opening of an account. -/
structure CreatedAccount where
  providerAccountId : String
  status : AccountStatus
deriving DecidableEq, Repr

abbrev Answer : Call → Type
  | .newId _ => String
  | .now => Int
  | .effectiveDate _ => String
  | .emit _ => Unit
  | .accountFindById _ => Option AccountRecord
  | .accountFindByProviderAccountId .. => Option AccountRecord
  | .accountFindByExternalId _ => Option AccountRecord
  | .accountCreate _ => AccountRecord
  | .accountAttachProviderAccount .. => AccountRecord
  | .accountAttachLedgerAccounts .. => AccountRecord
  | .accountApplyStatusChange _ => StatusChangeResult AccountStatus AccountRecord
  | .transactionFindById _ => Option TransactionRecord
  | .transactionFindByProviderTransactionId .. => Option TransactionRecord
  | .transactionFindByEndToEndId _ => Option TransactionRecord
  | .transactionFindByIdempotencyKey _ => Option TransactionRecord
  | .transactionCreate _ => TransactionRecord
  | .transactionApplyStatusChange _ => StatusChangeResult TransactionStatus TransactionRecord
  | .operationFindById _ => Option OperationRecord
  | .operationCreate _ => OperationRecord
  | .operationUpdate _ => Option OperationRecord
  | .operationFindStuck _ => List OperationRecord
  | .ledger _ => PostTransactionResult
  | .ledgerOpenAccounts _ => String
  | .providerResolve _ => BoundProvider
  | .providerRequire .. => BoundProvider
  | .providerSend _ => PixTransaction
  | .providerRefund _ => PixRefund
  | .providerFindByIdempotencyKey .. => Option PixTransaction
  | .providerGet .. => PixTransaction
  | .providerStatement _ => List StatementLine
  | .providerCreateAccount _ => CreatedAccount
  | .idempotencyClaim _ => ClaimResult
  | .idempotencyStealLease .. => Option IdempotencyRecord
  | .idempotencyRenewLease .. => Unit
  | .idempotencyComplete _ => Unit
  | .idempotencyRelease _ => Unit
  | .eventFindById _ => Option InboundEventRecord
  | .eventMarkProcessing _ => Bool
  | .eventMarkProcessed _ => Unit
  | .eventMarkDiscarded .. => Unit
  | .eventMarkFailed .. => Unit
  | .lockAcquire _ => Bool
  | .lockRelease _ => Unit
  | .breakFindById _ => Option ReconciliationBreakRecord
  | .breakUpsert _ => String
  | .breakResolveManually .. => Option ReconciliationBreakRecord
  | .itemFindById _ => Option ReconciliationItemRow
  | .runStart _ => String

abbrev Flow (α : Type) := Prog Call Answer Thrown α

/-- Issue one call. -/
abbrev ask (q : Call) : Flow (Answer q) := Prog.perform q

def fail {α : Type} (code : BaasErrorCode) (message : String) : Flow α :=
  throw (Thrown.baas { code, message })

end BaasConnector.Connector.Calls
