import BaasConnector.Connector.Database

namespace BaasConnector.Reconciliation.BreakResolution

open BaasConnector.Lib.Effects BaasConnector.Taxonomy.Status BaasConnector.Taxonomy.Errors
open BaasConnector.Connector.Records BaasConnector.Connector.Calls BaasConnector.Ledger.Shadow

inductive ResolutionAction
  | IMPORT_FROM_PROVIDER | MARK_PROVIDER_AUTHORITATIVE | CREATE_LEDGER_ADJUSTMENT
  | CANCEL_LOCAL_RECORD | MERGE_DUPLICATE | IGNORE_TIMING_DIFFERENCE | WRITE_OFF
  | ESCALATE_TO_PROVIDER
deriving DecidableEq, Repr

def ResolutionAction.text : ResolutionAction → String
  | .IMPORT_FROM_PROVIDER => "import_from_provider"
  | .MARK_PROVIDER_AUTHORITATIVE => "mark_provider_authoritative"
  | .CREATE_LEDGER_ADJUSTMENT => "create_ledger_adjustment"
  | .CANCEL_LOCAL_RECORD => "cancel_local_record"
  | .MERGE_DUPLICATE => "merge_duplicate"
  | .IGNORE_TIMING_DIFFERENCE => "ignore_timing_difference"
  | .WRITE_OFF => "write_off"
  | .ESCALATE_TO_PROVIDER => "escalate_to_provider"

def BreakType.text : BreakType → String
  | .MISSING_ON_LOCAL => "MISSING_ON_LOCAL"
  | .MISSING_ON_PROVIDER => "MISSING_ON_PROVIDER"
  | .MISSING_ON_LEDGER => "MISSING_ON_LEDGER"
  | .AMOUNT_MISMATCH => "AMOUNT_MISMATCH"
  | .STATUS_MISMATCH => "STATUS_MISMATCH"
  | .DUPLICATE_LOCAL => "DUPLICATE_LOCAL"
  | .DUPLICATE_PROVIDER => "DUPLICATE_PROVIDER"
  | .DATE_MISMATCH => "DATE_MISMATCH"
  | .BALANCE_MISMATCH => "BALANCE_MISMATCH"
  | .UNMATCHED_FEE => "UNMATCHED_FEE"
  | .ORPHAN_REFUND => "ORPHAN_REFUND"

def BreakStatus.text : BreakStatus → String
  | .OPEN => "OPEN"
  | .INVESTIGATING => "INVESTIGATING"
  | .RESOLVED => "RESOLVED"
  | .WRITTEN_OFF => "WRITTEN_OFF"
  | .AUTO_RESOLVED => "AUTO_RESOLVED"

/-- The reconciliation item that gives an absence its direction, and whether
the movement of that item is undone or applied. -/
def originItem (quebra : ReconciliationBreakRecord) : Option (String × Bool) :=
  match quebra.type with
  | .MISSING_ON_PROVIDER => quebra.localItemId.map (·, true)
  | .MISSING_ON_LOCAL | .MISSING_ON_LEDGER =>
    (quebra.providerItemId.orElse fun _ => quebra.ledgerItemId).map (·, false)
  | _ => none

def signedItem (item : ReconciliationItemRow) (undo : Bool) : Int :=
  let toClient := decide (item.direction = .CREDIT)
  if (if undo then !toClient else toClient) then item.amountCents else -item.amountCents

/-- How much, and which way, seen from the client: positive credits. -/
def signedDelta (quebra : ReconciliationBreakRecord) : Flow Int := do
  match quebra.deltaCents.filter (· ≠ 0) with
  | some delta => return delta
  | none =>
    match originItem quebra with
    | none =>
      let type := BreakType.text quebra.type
      fail .VALIDATION_ERROR s!"Quebra {type} sem delta assinado nao determina o sentido do ajuste."
    | some (itemId, undo) =>
      match ← ask (.itemFindById itemId) with
      | none => fail .VALIDATION_ERROR "Item de origem da quebra nao encontrado."
      | some item => return signedItem item undo

def postAdjustment (quebra : ReconciliationBreakRecord) : Flow String := do
  let delta ← signedDelta quebra
  match quebra.accountId with
  | none => fail .VALIDATION_ERROR "Quebra sem conta ou sem valor nao pode gerar ajuste de razao."
  | some accountId =>
    if delta = 0 then
      fail .VALIDATION_ERROR "Quebra sem conta ou sem valor nao pode gerar ajuste de razao."
    else
      let account ← ask (.accountFindById accountId)
      match account.bind (·.ledgerAvailableAccountId) with
      | none => fail .VALIDATION_ERROR "Conta sem razao sombra aberto."
      | some availableId =>
        let posted ← ask (.ledger (.adjust availableId (if delta < 0 then -delta else delta)
          (decide (0 < delta)) ("recon-adjust:" ++ quebra.id) (some quebra.id)))
        return posted.transaction.id

/-- Cancel the local transaction of a break. The ledger is not touched. -/
def cancelLocalRecord (quebra : ReconciliationBreakRecord) : Flow Unit := do
  match quebra.localItemId with
  | none => fail .VALIDATION_ERROR "Quebra sem registro local para cancelar."
  | some localItemId =>
    let item ← ask (.itemFindById localItemId)
    match item.bind (·.externalId) with
    | none => fail .VALIDATION_ERROR "Item local da quebra nao aponta para uma transacao."
    | some transactionId =>
      let now ← ask .now
      match ← ask (.transactionApplyStatusChange
        { transactionId := transactionId
          toStatus := .CANCELLED
          failureCode := none
          providerFailureCode := none
          failureMessage := none
          endToEndId := none
          settledAt := none
          ledgerPostedTransactionId := none
          occurredAt := now }) with
      | .applied _ => return ()
      | .rejected reason _ =>
        let text := reason.text
        fail .VALIDATION_ERROR s!"Nao e possivel cancelar a transacao ({text})."

def applyAction (action : ResolutionAction) (quebra : ReconciliationBreakRecord) :
    Flow BreakStatus := do
  match action with
  | .CREATE_LEDGER_ADJUSTMENT =>
    let _ ← postAdjustment quebra
    return .RESOLVED
  | .CANCEL_LOCAL_RECORD =>
    cancelLocalRecord quebra
    return .RESOLVED
  | .ESCALATE_TO_PROVIDER => return .INVESTIGATING
  | .WRITE_OFF => return .WRITTEN_OFF
  | .IMPORT_FROM_PROVIDER | .MARK_PROVIDER_AUTHORITATIVE | .MERGE_DUPLICATE
  | .IGNORE_TIMING_DIFFERENCE => return .RESOLVED

def resolveBreak (breakId : String) (action : ResolutionAction) :
    Flow ReconciliationBreakRecord := do
  match ← ask (.breakFindById breakId) with
  | none => fail .RESOURCE_NOT_FOUND s!"Quebra {breakId} nao encontrada."
  | some quebra =>
    if quebra.status = .RESOLVED ∨ quebra.status = .WRITTEN_OFF then
      let id := quebra.id
      let status := BreakStatus.text quebra.status
      fail .RESOURCE_ALREADY_EXISTS
        s!"Quebra {id} ja esta {status}; resolver de novo nao teria efeito."
    else
      let status ← applyAction action quebra
      let _ ← ask .now
      let resolved ← ask (.breakResolveManually quebra.id status)
      let _ ← ask .now
      ask (.emit (.audit ("reconciliation.break." ++ ResolutionAction.text action) quebra.id))
      match quebra.accountId with
      | some accountId => ask (.emit (.invalidate accountId))
      | none => pure ()
      return resolved.getD quebra

end BaasConnector.Reconciliation.BreakResolution
