import BaasConnector.Pix.OperationReconciler

namespace BaasConnector.Worker.Ladder

open BaasConnector.Lib.Effects BaasConnector.Connector.Records BaasConnector.Connector.Calls
open BaasConnector.Pix.OperationReconciler

def stuckBatch : Nat := 100

def unknownOutcomeLadderSeconds : List Nat := [5, 15, 60, 300, 900, 3600, 21600]

def openBreak (operation : OperationRecord) : Flow Unit := do
  let now ← ask .now
  match operation.accountId with
  | none => return ()
  | some accountId =>
    let run ← ask (.newId .reconciliationRun)
    let _ ← ask (.runStart run)
    let id ← ask (.newId .reconciliationBreak)
    let effectiveDate ← ask (.effectiveDate now)
    let _ ← ask (.breakUpsert
      { id := id
        connectionId := operation.connectionId
        accountId := some accountId
        type := .MISSING_ON_PROVIDER
        severity := .CRITICAL
        status := .OPEN
        dedupeKey := "opr:" ++ operation.id
        effectiveDate := effectiveDate
        endToEndId := operation.endToEndId
        amountCents := operation.amountCents
        deltaCents := none
        providerItemId := none
        localItemId := none
        ledgerItemId := none })

/-- The end of the ladder: the operation is FAILED whatever it has become in
the meantime, and the break is opened after that. -/
def exhaust (operationId : String) : Flow Unit := do
  match ← ask (.operationFindById operationId) with
  | none => return ()
  | some operation =>
    let _ ← ask (.operationUpdate ⟨operationId, some .FAILED, none, none, false⟩)
    openBreak operation

def step (operationId : String) (step : Nat) : Flow Unit := do
  match ← resolve operationId with
  | .resolved .. => return ()
  | .unresolved .not_stuck => return ()
  | .unresolved .no_lookup_capability => exhaust operationId
  | .unresolved .not_found_at_provider =>
    match unknownOutcomeLadderSeconds[step + 1]? with
    | none => exhaust operationId
    | some delaySeconds =>
      let _ ← ask .now
      let _ ← ask (.operationUpdate ⟨operationId, none, none, none, false⟩)
      ask (.emit (.enqueueResolve operationId (step + 1) (some (delaySeconds * 1000))))

def enqueueStuck : List OperationRecord → Flow Unit
  | [] => return ()
  | operation :: rest => do
    ask (.emit (.enqueueResolve operation.id
      (min operation.attempts (unknownOutcomeLadderSeconds.length - 1)) none))
    enqueueStuck rest

def sweepStuck : Flow Nat := do
  let _ ← ask .now
  let stuck ← ask (.operationFindStuck stuckBatch)
  enqueueStuck stuck
  return stuck.length

end BaasConnector.Worker.Ladder
