import BaasConnector.Connector.Database
import BaasConnector.Lib.Footprint

namespace BaasConnector.Pix.OperationReconciler

open BaasConnector.Lib.Effects BaasConnector.Taxonomy.Status BaasConnector.Taxonomy.Errors
open BaasConnector.Connector.Records BaasConnector.Connector.Calls BaasConnector.Ledger.Shadow

inductive UnresolvedReason
  | not_found_at_provider | no_lookup_capability | not_stuck
deriving DecidableEq, Repr

inductive ReconcileOutcome
  | resolved (status : TransactionStatus) (transaction : TransactionRecord)
  | unresolved (reason : UnresolvedReason)
deriving DecidableEq, Repr

def isSettled (status : TransactionStatus) : Bool := decide (status = .SETTLED)

def isFailed (status : TransactionStatus) : Bool :=
  decide (status = .FAILED) || decide (status = .CANCELLED)

def byIdempotencyKey (bound : BoundProvider) (providerAccountId : String)
    (operation : OperationRecord) : Flow (Option PixTransaction) := do
  if bound.findByIdempotencyKey then
    match ← (ask (.providerFindByIdempotencyKey providerAccountId
      operation.providerIdempotencyKey)).attempt with
    | .ok found => return found
    | .error _ => return none
  else return none

def byEndToEndId (bound : BoundProvider) (providerAccountId : String)
    (transaction : TransactionRecord) : Flow (Option PixTransaction) := do
  match transaction.providerTransactionId.orElse (fun _ => transaction.endToEndId) with
  | none => return none
  | some providerRef =>
    if bound.get then
      match ← (ask (.providerGet providerAccountId providerRef)).attempt with
      | .ok found => return some found
      | .error _ => return none
    else return none

def ofStatementLine (line : StatementLine) : PixTransaction :=
  { providerTransactionId := line.providerTransactionId.getD line.providerEntryId
    endToEndId := line.endToEndId
    status := .SETTLED
    settledAt := some line.postedAt
    failure := none }

/-- A statement with exactly one debit of the amount stands for the payment. -/
def byStatementScan (bound : BoundProvider) (providerAccountId : String)
    (transaction : TransactionRecord) : Flow (Option PixTransaction) := do
  if bound.statement then
    match ← (ask (.providerStatement providerAccountId)).attempt with
    | .error _ => return none
    | .ok lines =>
      match lines.filter (fun line => line.debit && line.amountCents == transaction.amountCents) with
      | [line] => return some (ofStatementLine line)
      | _ => return none
  else return none

def lookup (bound : BoundProvider) (providerAccountId : String) (operation : OperationRecord)
    (transaction : TransactionRecord) : Flow (Option PixTransaction) := do
  match ← byIdempotencyKey bound providerAccountId operation with
  | some found => return some found
  | none =>
    match ← byEndToEndId bound providerAccountId transaction with
    | some found => return some found
    | none => byStatementScan bound providerAccountId transaction

section Lookup

variable {φ : Call → Prop} (hkey : ∀ account key, φ (.providerFindByIdempotencyKey account key))
  (hget : ∀ account ref, φ (.providerGet account ref)) (hstatement : ∀ account, φ (.providerStatement account))
  (bound : BoundProvider) (providerAccountId : String) (operation : OperationRecord)
  (transaction : TransactionRecord)

include hkey in
theorem byIdempotencyKey_within : (byIdempotencyKey bound providerAccountId operation).Within φ := by
  unfold byIdempotencyKey
  split
  · refine Prog.meets_perform_attempt_bind.mpr ⟨hkey _ _, fun r _ => ?_⟩
    cases r <;> trivial
  · trivial

include hget in
theorem byEndToEndId_within : (byEndToEndId bound providerAccountId transaction).Within φ := by
  unfold byEndToEndId
  split
  · trivial
  · split
    · refine Prog.meets_perform_attempt_bind.mpr ⟨hget _ _, fun r _ => ?_⟩
      cases r <;> trivial
    · trivial

include hstatement in
theorem byStatementScan_within : (byStatementScan bound providerAccountId transaction).Within φ := by
  unfold byStatementScan
  split
  · refine Prog.meets_perform_attempt_bind.mpr ⟨hstatement _, fun r _ => ?_⟩
    cases r with
    | error e => trivial
    | ok lines =>
      dsimp only
      split <;> trivial
  · trivial

include hkey hget hstatement in
/-- The lookups ask the provider and nothing else. -/
theorem lookup_within : (lookup bound providerAccountId operation transaction).Within φ := by
  unfold lookup
  refine Prog.meets_bind.mpr (Prog.meets_mono (fun _ _ h => h) (fun _ h => h) (fun r _ => ?_)
    (byIdempotencyKey_within hkey bound providerAccountId operation))
  match r with
  | .error e => trivial
  | .ok (some found) => trivial
  | .ok none =>
    refine Prog.meets_bind.mpr (Prog.meets_mono (fun _ _ h => h) (fun _ h => h) (fun r _ => ?_)
      (byEndToEndId_within hget bound providerAccountId transaction))
    match r with
    | .error e => trivial
    | .ok (some found) => trivial
    | .ok none => exact byStatementScan_within hstatement bound providerAccountId transaction

end Lookup

def resolveHold (operation : OperationRecord) (transaction : TransactionRecord)
    (status : TransactionStatus) : Flow (Option String) := do
  match transaction.ledgerPendingTransactionId with
  | none => return none
  | some hold =>
    if isSettled status then
      let resolved ← ask (.ledger (.settleOut hold ("pix-out-settle:" ++ operation.id)))
      return some resolved.transaction.id
    else if isFailed status then
      let resolved ← ask (.ledger (.voidOut hold ("pix-out-void:" ++ operation.id)))
      return some resolved.transaction.id
    else return none

def outcomeChange (transaction : TransactionRecord) (found : PixTransaction)
    (ledgerPostedTransactionId : Option String) (now : Int) : TransactionStatusChange :=
  { transactionId := transaction.id
    toStatus := found.status
    failureCode := found.failure.map fun _ => .PROVIDER_REJECTED
    providerFailureCode := found.failure.map Prod.fst
    failureMessage := found.failure.map Prod.snd
    endToEndId := found.endToEndId
    settledAt := found.settledAt.orElse fun _ => if isSettled found.status then some now else none
    ledgerPostedTransactionId := ledgerPostedTransactionId
    occurredAt := now }

def operationStatus (status : TransactionStatus) : OperationStatusValue :=
  if isSettled status then .SETTLED else if isFailed status then .FAILED else .SUBMITTED

/-- The two writes after the hold, and the answer of the run. -/
def recordOutcome (operation : OperationRecord) (transaction : TransactionRecord) (found : PixTransaction)
    (now : Int) (ledgerPostedTransactionId : Option String) : Flow ReconcileOutcome := do
  let change ← ask (.transactionApplyStatusChange
    (outcomeChange transaction found ledgerPostedTransactionId now))
  let _ ← ask (.operationUpdate
    { id := operation.id
      status := some (operationStatus found.status)
      providerRef := some found.providerTransactionId
      endToEndId := found.endToEndId
      incrementAttempts := false })
  ask (.emit (.invalidate transaction.accountId))
  match change with
  | .applied record => return .resolved found.status record
  | .rejected .. => return .resolved found.status transaction

/-- Write down what the provider said: hold, transaction, operation, in this
order, the last one whatever the second answered. -/
def applyOutcome (operation : OperationRecord) (transaction : TransactionRecord)
    (found : PixTransaction) : Flow ReconcileOutcome := do
  let now ← ask .now
  let ledgerPostedTransactionId ← resolveHold operation transaction found.status
  recordOutcome operation transaction found now ledgerPostedTransactionId

def resolve (operationId : String) : Flow ReconcileOutcome := do
  match ← ask (.operationFindById operationId) with
  | none => fail .RESOURCE_NOT_FOUND s!"Operacao {operationId} nao encontrada."
  | some operation =>
    if ¬ operation.status.isStuck then return .unresolved .not_stuck
    else
      match ← ask (.transactionFindByIdempotencyKey operation.providerIdempotencyKey) with
      | none => fail .RESOURCE_NOT_FOUND s!"Operacao {operationId} nao tem transacao associada."
      | some transaction =>
        let account ← ask (.accountFindById transaction.accountId)
        match account.bind (·.providerAccountId) with
        | none => return .unresolved .not_found_at_provider
        | some providerAccountId =>
          let bound ← ask (.providerResolve operation.connectionId)
          let _ ← ask (.operationUpdate ⟨operationId, none, none, none, true⟩)
          match ← lookup bound providerAccountId operation transaction with
          | some found => applyOutcome operation transaction found
          | none =>
            if ¬ bound.findByIdempotencyKey ∧ ¬ bound.statement then
              return .unresolved .no_lookup_capability
            else return .unresolved .not_found_at_provider

end BaasConnector.Pix.OperationReconciler
