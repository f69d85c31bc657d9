import BaasConnector.Idempotency.Interceptor

namespace BaasConnector.Idempotency.Executors

open BaasConnector.Lib.Keyed BaasConnector.Taxonomy.Errors BaasConnector.Connector.Records
open BaasConnector.Taxonomy.Status (Environment)
open BaasConnector.Idempotency.Interceptor

/-- An id, named after the request and the try that mints it. -/
structure MintedId where
  executor : Nat
  attempt : Nat
deriving DecidableEq, Repr

/-- The unique index of the records. -/
structure Slot where
  environment : Environment
  endpointKey : String
  key : String
deriving DecidableEq, Repr

structure Request where
  environment : Environment
  apiKeyId : String
  endpointKey : String
  key : String
  requestFingerprint : String
  required : Bool
  ttlSeconds : Int
  pod : String
deriving DecidableEq, Repr

def Request.slot (request : Request) : Slot := ⟨request.environment, request.endpointKey, request.key⟩

structure StoredRecord where
  id : MintedId
  apiKeyId : String
  slot : Slot
  requestFingerprint : String
  state : IdempotencyState
  operationId : MintedId
  responseStatus : Option Nat := none
  responseBody : Option ResponseBody := none
  errorCode : Option BaasErrorCode := none
  lockedBy : Option String
  lockedAt : Option Int
  leaseExpiresAt : Option Int
  completedAt : Option Int := none
  expiresAt : Int
deriving DecidableEq, Repr

abbrev Records := Rows MintedId StoredRecord StoredRecord.id

structure Completion where
  status : Nat
  body : ResponseBody
  state : IdempotencyState
  errorCode : Option BaasErrorCode
deriving DecidableEq, Repr

section Repository

def claimed (request : Request) (id : MintedId) (now : Int) : StoredRecord :=
  { id := id
    apiKeyId := request.apiKeyId
    slot := request.slot
    requestFingerprint := request.requestFingerprint
    state := .IN_FLIGHT
    operationId := id
    lockedBy := some request.pod
    lockedAt := some now
    leaseExpiresAt := some (now + defaultLeaseSeconds * 1000)
    expiresAt := now + request.ttlSeconds * 1000 }

def Records.find (records : Records) (slot : Slot) : Option StoredRecord :=
  records.search fun record => decide (record.slot = slot)

def StoredRecord.expired (record : StoredRecord) (now : Int) : Bool :=
  decide (record.state = .IN_FLIGHT) && record.leaseExpiresAt.any (· ≤ now)

def StoredRecord.stolen (record : StoredRecord) (pod : String) (now : Int) : StoredRecord :=
  { record with
    lockedBy := some pod
    lockedAt := some now
    leaseExpiresAt := some (now + defaultLeaseSeconds * 1000) }

def StoredRecord.renewed (record : StoredRecord) (now : Int) : StoredRecord :=
  { record with leaseExpiresAt := some (now + defaultLeaseSeconds * 1000) }

def StoredRecord.completed (record : StoredRecord) (completion : Completion) (now : Int) : StoredRecord :=
  { record with
    state := completion.state
    responseStatus := some completion.status
    responseBody := some completion.body
    errorCode := completion.errorCode
    completedAt := some now
    leaseExpiresAt := none
    lockedBy := none }

/-- The writes by which an executor ends. -/
inductive Write
  | complete (completion : Completion)
  | renewLease
  | release
deriving DecidableEq, Repr

/-- An update finds its row by the id alone. Whether it found one. -/
def Write.apply (write : Write) (records : Records) (id : MintedId) (now : Int) : Records × Bool :=
  match records.get id with
  | none => (records, false)
  | some record =>
    match write with
    | .complete completion => (records.put (record.completed completion now), true)
    | .renewLease => (records.put (record.renewed now), true)
    | .release => (records.delete id, true)

end Repository

inductive Answer
  | executed (result : Except Thrown (Nat × ResponseBody))
  | replayed (status : Nat) (body : Option ResponseBody)
  | refused (error : BaasError)
deriving DecidableEq

/-- Where a request stands between two of its repository calls. -/
inductive Phase
  | arrived
  | claiming (attempt : Nat)
  | finding (attempt : Nat)
  | stealing (id : MintedId)
  | rereading (id : MintedId)
  | executing (id : Option MintedId)
  | writing (id : MintedId) (write : Write) (result : Except Thrown (Nat × ResponseBody))
  | answered (answer : Answer)
  | crashed
deriving DecidableEq

def missingKey : BaasError :=
  { code := .MISSING_IDEMPOTENCY_KEY
    message := "Esta operacao movimenta dinheiro e exige o cabecalho "
      ++ "Idempotency-Key. Use o mesmo valor ao repetir a requisicao." }

def invalidKey : BaasError :=
  { code := .VALIDATION_ERROR
    message := "Os dados enviados nao passaram na validacao."
    details := [("Idempotency-Key", "Use de 8 a 255 caracteres, apenas letras, digitos e _-:.")] }

def keyReused : BaasError :=
  { code := .IDEMPOTENCY_KEY_REUSED
    message := "Esta Idempotency-Key ja foi usada com um corpo de requisicao diferente. "
      ++ "Use uma chave nova para uma operacao diferente." }

def requestInProgress : BaasError :=
  { code := .IDEMPOTENT_REQUEST_IN_PROGRESS
    message := "Uma requisicao com esta Idempotency-Key ainda esta em processamento." }

def resolveConflict (request : Request) (record : StoredRecord) (now : Int) : Phase :=
  if record.requestFingerprint ≠ request.requestFingerprint then .answered (.refused keyReused)
  else if record.state ≠ .IN_FLIGHT then
    .answered (.replayed (record.responseStatus.getD 200) record.responseBody)
  else if record.leaseExpiresAt.any (now < ·) then .answered (.refused requestInProgress)
  else .stealing record.id

/-- How an executor means to end, once its handler is through. -/
def ending : Except Thrown (Nat × ResponseBody) → Write
  | .ok (status, body) => .complete ⟨status, body, .COMPLETED, none⟩
  | .error (.outcomeUnknown _) => .renewLease
  | .error (.baas error) =>
    if isDeterministic error then .complete ⟨httpStatus error.code, .error error, .FAILED, some error.code⟩
    else .release
  | .error (.failure _) => .release

def notFound : Thrown := .failure "P2025"

/-- A completion that finds no row throws like the handler does, and the record
is released; what else finds no row is thrown to the client. -/
def afterWrite (id : MintedId) (write : Write) (result : Except Thrown (Nat × ResponseBody))
    (found : Bool) : Phase :=
  match write, result, found with
  | .complete _, .ok _, false => .writing id .release (.error notFound)
  | .complete _, .error _, false => .answered (.executed (.error notFound))
  | .renewLease, _, false => .answered (.executed (.error notFound))
  | _, _, _ => .answered (.executed result)

/-- What one call makes of the phase and the records, and the record that it
takes a lease of. -/
structure Stepped where
  phase : Phase
  records : Records
  acquired : Option MintedId

def stepped (phase : Phase) (records : Records) : Stepped := ⟨phase, records, none⟩

def claim (request : Request) (records : Records) (id : MintedId) (now : Int) : Stepped :=
  match records.find request.slot with
  | some _ => stepped (.finding id.attempt) records
  | none => ⟨.executing (some id), records.put (claimed request id now), some id⟩

def stealLease (request : Request) (records : Records) (id : MintedId) (now : Int) : Stepped :=
  match records.get id with
  | none => stepped (.answered (.refused requestInProgress)) records
  | some record =>
    if record.expired now then ⟨.rereading id, records.put (record.stolen request.pod now), some id⟩
    else stepped (.answered (.refused requestInProgress)) records

/-- The next call of a request, at a reading of the clock. -/
def call (request : Request) (executor : Nat) (now : Int) (records : Records) (phase : Phase) : Stepped :=
  match phase with
  | .arrived =>
    if request.key = "" then
      stepped (if request.required then .answered (.refused missingKey) else .executing none) records
    else if keyFormat request.key then stepped (.claiming 0) records
    else stepped (.answered (.refused invalidKey)) records
  | .claiming attempt => claim request records ⟨executor, attempt⟩ now
  | .finding attempt =>
    match records.find request.slot with
    | none => stepped (.claiming (attempt + 1)) records
    | some record => stepped (resolveConflict request record now) records
  | .stealing id => stealLease request records id now
  | .rereading id =>
    match records.get id with
    | none => stepped (.answered (.refused requestInProgress)) records
    | some record => stepped (.executing (some record.id)) records
  | .writing id write result =>
    stepped (afterWrite id write result (write.apply records id now).2) (write.apply records id now).1
  | .executing _ | .answered _ | .crashed => stepped phase records

def finish (phase : Phase) (result : Except Thrown (Nat × ResponseBody)) : Phase :=
  match phase with
  | .executing none => .answered (.executed result)
  | .executing (some id) => .writing id (ending result) result
  | phase => phase

/-- The requests under way over the stored records. The holder of a record is the
executor that last took its lease. -/
structure State where
  records : Records
  phases : Nat → Phase
  holders : MintedId → Option Nat

def initial : State := ⟨.empty, fun _ => .arrived, fun _ => none⟩

inductive Action
  | call (executor : Nat) (now : Int)
  | finish (executor : Nat) (result : Except Thrown (Nat × ResponseBody))
  | crash (executor : Nat)
deriving DecidableEq

def Action.executor : Action → Nat
  | .call executor _ => executor
  | .finish executor _ => executor
  | .crash executor => executor

def State.step (requests : Nat → Request) (s : State) : Action → State
  | .call i now =>
    let next := Executors.call (requests i) i now s.records (s.phases i)
    { records := next.records
      phases := Function.update s.phases i next.phase
      holders := match next.acquired with
        | none => s.holders
        | some id => Function.update s.holders id (some i) }
  | .finish i result => { s with phases := Function.update s.phases i (finish (s.phases i) result) }
  | .crash i => { s with phases := Function.update s.phases i .crashed }

def run (requests : Nat → Request) (actions : List Action) : State :=
  actions.foldl (State.step requests) initial

theorem run_append (requests : Nat → Request) (before : List Action) (action : Action) :
    run requests (before ++ [action]) = (run requests before).step requests action := by
  rw [run, run, List.foldl_append]
  rfl

section Interceptor

open BaasConnector.Connector.Calls (Flow ask)

variable (names : MintedId → String)

/-- A stored record as the interceptor reads it. -/
def StoredRecord.read (record : StoredRecord) : IdempotencyRecord :=
  { id := names record.id
    endpointKey := record.slot.endpointKey
    key := record.slot.key
    requestFingerprint := record.requestFingerprint
    state := record.state
    operationId := names record.operationId
    responseStatus := record.responseStatus
    responseBody := record.responseBody
    leaseExpiresAt := record.leaseExpiresAt }

def Write.issue (id : MintedId) : Write → Flow Unit
  | .complete completion =>
    ask (.idempotencyComplete ⟨names id, completion.status, completion.body, completion.state⟩)
  | .renewLease => ask (.idempotencyRenewLease (names id) defaultLeaseSeconds)
  | .release => ask (.idempotencyRelease (names id))

/-- A lease is taken over by at most one of those that find it expired. -/
def takeOver (next : Handler) (recordId : String) : Flow Response := do
  match ← ask (.idempotencyStealLease recordId defaultLeaseSeconds) with
  | none => inProgress
  | some stolen => execute (next ⟨some stolen.operationId, true⟩) stolen.id

/-- What is left of the interceptor's run where a conflict puts the executor. -/
inductive Concludes (next : Handler) : Phase → Flow Response → Prop
  | refused (error : BaasError) : Concludes next (.answered (.refused error)) (throw (Thrown.baas error))
  | replayed (status : Nat) (body : Option ResponseBody) :
    Concludes next (.answered (.replayed status body)) (return ⟨status, body⟩)
  | stealing (id : MintedId) : Concludes next (.stealing id) (takeOver next (names id))

/-- A record under way is judged at a reading of the clock. -/
theorem resolveConflict_clocked {request : Request} {record : StoredRecord} (next : Handler)
    (hprint : record.requestFingerprint = request.requestFingerprint)
    (hstate : record.state = .IN_FLIGHT) :
    ∃ rest : Int → Flow Response, (∀ now, Concludes names next (resolveConflict request record now) (rest now)) ∧
      Interceptor.resolveConflict (record.read names) request.requestFingerprint next =
        ask .now >>= rest := by
  refine ⟨fun now => if record.leaseExpiresAt.any (now < ·) then inProgress
    else takeOver next (names record.id), fun now => ?_, ?_⟩
  · rw [resolveConflict, if_neg (not_not.mpr hprint), if_neg (not_not.mpr hstate)]
    by_cases halive : record.leaseExpiresAt.any (now < ·)
    · simp only [if_pos halive]
      exact .refused requestInProgress
    · simp only [if_neg halive]
      exact .stealing record.id
  · have hread : (record.read names).requestFingerprint = request.requestFingerprint := hprint
    have hopen : (record.read names).state = .IN_FLIGHT := hstate
    rw [Interceptor.resolveConflict, if_neg (not_not.mpr hread), if_neg (not_not.mpr hopen)]
    refine bind_congr fun now => ?_
    by_cases halive : record.leaseExpiresAt.any (now < ·)
    · rw [if_pos halive]
      exact if_pos halive
    · rw [if_neg halive]
      refine (if_neg halive).trans (bind_congr fun stolen => ?_)
      cases stolen with
      | none => rfl
      | some stolen => rfl

/-- A key used again and an ended record are answered without the clock. -/
theorem resolveConflict_unclocked {request : Request} {record : StoredRecord} (next : Handler)
    (h : record.requestFingerprint = request.requestFingerprint → record.state ≠ .IN_FLIGHT) (now : Int) :
    Concludes names next (resolveConflict request record now)
      (Interceptor.resolveConflict (record.read names) request.requestFingerprint next) := by
  by_cases hprint : record.requestFingerprint = request.requestFingerprint
  · have hread : (record.read names).requestFingerprint = request.requestFingerprint := hprint
    have hended : (record.read names).state ≠ .IN_FLIGHT := h hprint
    rw [resolveConflict, if_neg (not_not.mpr hprint), if_pos (h hprint), Interceptor.resolveConflict,
      if_neg (not_not.mpr hread), if_pos hended]
    exact .replayed _ _
  · have hread : (record.read names).requestFingerprint ≠ request.requestFingerprint := hprint
    rw [resolveConflict, if_pos hprint, Interceptor.resolveConflict, if_pos hread]
    exact .refused keyReused

theorem onFailure_ending (id : MintedId) (error : Thrown) :
    onFailure (names id) error = (ending (.error error)).issue names id := by
  cases error with
  | outcomeUnknown | failure => rfl
  | baas error =>
    simp only [onFailure, ending]
    split_ifs <;> rfl

theorem runHandler_ending (id : MintedId) (next : Flow (Nat × ResponseBody)) :
    runHandler next (names id) = do
      let answer ← next
      (ending (.ok answer)).issue names id
      return ⟨answer.1, some answer.2⟩ := rfl

end Interceptor

end BaasConnector.Idempotency.Executors
