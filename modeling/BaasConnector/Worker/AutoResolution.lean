import BaasConnector.Webhooks.Apply

namespace BaasConnector.Worker.AutoResolution

open BaasConnector.Lib.Effects BaasConnector.Taxonomy.Status BaasConnector.Connector.Records
open BaasConnector.Connector.Calls BaasConnector.Webhooks.Apply

/-- A proposed automatic resolution of a break, as the motor hands it over. -/
inductive Resolution
  | importFromProvider (draft : Option CanonicalEventDraft)
  | markProviderAuthoritative (toStatus : TransactionStatus)
  | ignoreTimingDifference
deriving DecidableEq, Repr

structure BreakIntent where
  dedupeKey : String
  localItemId : Option String
  resolution : Resolution
deriving DecidableEq, Repr

def recordAudit (quebra : BreakIntent) (action : String) : Flow Unit := do
  let _ ← ask .now
  ask (.emit (.audit action quebra.dedupeKey))

/-- The change is addressed by the id of the local reconciliation item. -/
def markProviderAuthoritative (quebra : BreakIntent) (toStatus : TransactionStatus) :
    Flow Bool := do
  match quebra.localItemId with
  | none => return false
  | some transactionId =>
    let now ← ask .now
    match ← ask (.transactionApplyStatusChange
      { transactionId := transactionId
        toStatus := toStatus
        failureCode := none
        providerFailureCode := none
        failureMessage := none
        endToEndId := none
        settledAt := none
        ledgerPostedTransactionId := none
        occurredAt := now }) with
    | .rejected .. => return false
    | .applied _ =>
      recordAudit quebra "reconciliation.provider_authoritative"
      return true

def importFromProvider (connectionId : String) (quebra : BreakIntent)
    (draft : Option CanonicalEventDraft) : Flow Bool := do
  match draft with
  | none => return false
  | some draft =>
    let bound ← ask (.providerResolve connectionId)
    let now ← ask .now
    let result ← applyDrafts ⟨connectionId, bound.slug, now, none⟩ [draft]
    if result.lockLost ∨ .applied ∉ result.outcomes then return false
    else
      recordAudit quebra "reconciliation.imported_from_provider"
      return true

def applyOne (connectionId : String) (quebra : BreakIntent) : Flow Bool := do
  match quebra.resolution with
  | .importFromProvider draft => importFromProvider connectionId quebra draft
  | .markProviderAuthoritative toStatus => markProviderAuthoritative quebra toStatus
  | .ignoreTimingDifference =>
    recordAudit quebra "reconciliation.timing_ignored"
    return true

/-- A resolution that throws leaves its break open and does not stop the rest. -/
def applyAll (connectionId : String) : List BreakIntent → Flow Nat
  | [] => return 0
  | quebra :: rest => do
    let done ← (applyOne connectionId quebra).attempt
    let count ← applyAll connectionId rest
    return match done with
      | .ok true => count + 1
      | _ => count

end BaasConnector.Worker.AutoResolution
