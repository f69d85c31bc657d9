import BaasConnector.Connector.Database

namespace BaasConnector.Idempotency.Interceptor

open BaasConnector.Lib.Effects BaasConnector.Taxonomy.Errors BaasConnector.Connector.Records
open BaasConnector.Connector.Calls

def defaultLeaseSeconds : Int := 90

structure Response where
  status : Nat
  body : Option ResponseBody
deriving DecidableEq, Repr

/-- The parts of a request that the interceptor reads. The key stands trimmed. -/
structure IdempotentRequest where
  endpointKey : String
  key : String
  requestFingerprint : String
  required : Bool
  authenticated : Bool
deriving DecidableEq, Repr

/-- What a handler receives from the interceptor. -/
structure HandlerContext where
  operationId : Option String
  reconcileBeforeExecute : Bool
deriving DecidableEq, Repr

abbrev Handler := HandlerContext → Flow (Nat × ResponseBody)

def keyCharacter (c : Char) : Bool :=
  c.isAlphanum || c == '_' || c == '-' || c == ':' || c == '.'

def keyFormat (key : String) : Bool :=
  decide (8 ≤ key.length) && decide (key.length ≤ 255) && key.toList.all keyCharacter

def assertKeyFormat (key : String) : Flow Unit :=
  if keyFormat key then return ()
  else throw (Thrown.baas
    { code := .VALIDATION_ERROR
      message := "Os dados enviados nao passaram na validacao."
      details := [("Idempotency-Key", "Use de 8 a 255 caracteres, apenas letras, digitos e _-:.")] })

/-- A deterministic failure is recorded and replayed, an unknown outcome keeps
the record, any other failure gives the client a new try. -/
def onFailure (recordId : String) : Thrown → Flow Unit
  | .outcomeUnknown _ => ask (.idempotencyRenewLease recordId defaultLeaseSeconds)
  | .baas error =>
    if isDeterministic error then
      ask (.idempotencyComplete ⟨recordId, httpStatus error.code, .error error, .FAILED⟩)
    else ask (.idempotencyRelease recordId)
  | .failure _ => ask (.idempotencyRelease recordId)

def runHandler (next : Flow (Nat × ResponseBody)) (recordId : String) : Flow Response := do
  let (status, body) ← next
  ask (.idempotencyComplete ⟨recordId, status, body, .COMPLETED⟩)
  return ⟨status, some body⟩

def execute (next : Flow (Nat × ResponseBody)) (recordId : String) : Flow Response := do
  match ← (runHandler next recordId).attempt with
  | .ok response => return response
  | .error error =>
    onFailure recordId error
    throw error

def inProgress : Flow Response :=
  fail .IDEMPOTENT_REQUEST_IN_PROGRESS
    "Uma requisicao com esta Idempotency-Key ainda esta em processamento."

def resolveConflict (record : IdempotencyRecord) (requestFingerprint : String) (next : Handler) :
    Flow Response := do
  if record.requestFingerprint ≠ requestFingerprint then
    fail .IDEMPOTENCY_KEY_REUSED ("Esta Idempotency-Key ja foi usada com um corpo de requisicao diferente. "
      ++ "Use uma chave nova para uma operacao diferente.")
  else if record.state ≠ .IN_FLIGHT then
    return ⟨record.responseStatus.getD 200, record.responseBody⟩
  else
    let now ← ask .now
    if record.leaseExpiresAt.any (now < ·) then inProgress
    else
      match ← ask (.idempotencyStealLease record.id defaultLeaseSeconds) with
      | none => inProgress
      | some stolen => execute (next ⟨some stolen.operationId, true⟩) stolen.id

def handle (request : IdempotentRequest) (next : Handler) : Flow Response := do
  if request.key.isEmpty then
    if request.required then
      fail .MISSING_IDEMPOTENCY_KEY ("Esta operacao movimenta dinheiro e exige o cabecalho "
        ++ "Idempotency-Key. Use o mesmo valor ao repetir a requisicao.")
    else
      let (status, body) ← next ⟨none, false⟩
      return ⟨status, some body⟩
  else
    assertKeyFormat request.key
    if ¬ request.authenticated then fail .AUTHENTICATION_FAILED "Falha na autenticacao."
    else
      let claim ← ask (.idempotencyClaim
        ⟨request.endpointKey, request.key, request.requestFingerprint, defaultLeaseSeconds⟩)
      if claim.claimed then
        execute (next ⟨some claim.record.operationId, false⟩) claim.record.id
      else resolveConflict claim.record request.requestFingerprint next

end BaasConnector.Idempotency.Interceptor
