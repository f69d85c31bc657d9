import BaasConnector.Lib.Keyed
import BaasConnector.Taxonomy.Status
import Mathlib.Data.Rat.Floor

namespace BaasConnector.Worker.Deliveries

open BaasConnector.Lib.Keyed
open BaasConnector.Taxonomy.Status (Environment DeliveryStatus)

inductive SubscriptionStatus
  | ACTIVE | PAUSED | DISABLED_BY_FAILURES
deriving DecidableEq, Repr

structure WebhookEndpointRecord where
  id : Nat
  environment : Environment
  eventTypes : List String
  status : SubscriptionStatus
  consecutiveFailures : Nat
  disabledAt : Option Int
deriving DecidableEq, Repr

structure OutboxEvent where
  id : Nat
  environment : Environment
  type : String
  subjectKind : String
  subjectId : String
  sequence : Nat
  dispatchedAt : Option Int
deriving DecidableEq, Repr

/-- A delivery is named after the unique index of its row. -/
structure DeliveryId where
  eventId : Nat
  endpointId : Nat
  attempt : Nat
deriving DecidableEq, Repr

def DeliveryId.next (id : DeliveryId) : DeliveryId := { id with attempt := id.attempt + 1 }

structure WebhookDeliveryRecord where
  id : DeliveryId
  status : DeliveryStatus
  scheduledFor : Int
  attemptedAt : Option Int
  responseStatus : Option Nat
  error : Option String
deriving DecidableEq, Repr

abbrev Events := Rows Nat OutboxEvent OutboxEvent.id

abbrev Endpoints := Rows Nat WebhookEndpointRecord WebhookEndpointRecord.id

abbrev DeliveryRows := Rows DeliveryId WebhookDeliveryRecord WebhookDeliveryRecord.id

section Decisions

def matchesFilter (type filter : String) : Bool :=
  if filter = "*" then true
  else if ".*".toList.isSuffixOf filter.toList then filter.toList.dropLast.isPrefixOf type.toList
  else decide (filter = type)

def matchesEventType (filters : List String) (type : String) : Bool :=
  filters.isEmpty || filters.any (matchesFilter type)

inductive DeliveryDecision
  | succeeded
  | retry (reason : String) (retryAfterSeconds : Option Nat)
  | exhausted (reason : String)
  | disable_endpoint (reason : String)
deriving DecidableEq, Repr

def decideDelivery (status : Nat) (retryAfterSeconds : Option Nat) : DeliveryDecision :=
  if 200 ≤ status ∧ status < 300 then .succeeded
  else if status = 410 then .disable_endpoint "HTTP 410 Gone"
  else if 300 ≤ status ∧ status < 400 then
    .retry ("HTTP " ++ toString status ++ ": redirect nao e seguido") none
  else if status = 429 ∨ status = 503 then .retry ("HTTP " ++ toString status) retryAfterSeconds
  else .retry ("HTTP " ++ toString status) none

def webhookRetryScheduleSeconds : List Nat :=
  [10, 30, 120, 600, 1800, 3600, 10800, 21600, 43200, 86400]

/-- Half rounds up, as `Math.round` does. -/
def round (x : Rat) : Int := (x + 1 / 2).floor

def nextAttemptAt (attempt : Nat) (schedule : List Nat) (retryAfterSeconds : Option Nat) (now : Int)
    (random : Rat) : Option Int :=
  match attempt with
  | 0 => none
  | attempt + 1 =>
    (schedule[attempt]?).map fun base =>
      let jittered := round (base * (4 / 5 + random * (2 / 5)))
      now + max jittered (retryAfterSeconds.getD 0) * 1000

end Decisions

section Repositories

/-- The rows that the statement finds unlocked, in whatever order it returns them. -/
def claimBatch (events : Events) (unlocked : List Nat) (limit : Nat) : List OutboxEvent :=
  ((unlocked.dedup.filterMap events.get).filter fun event => event.dispatchedAt.isNone).take limit

def OutboxEvent.dispatched (event : OutboxEvent) (at' : Int) : OutboxEvent :=
  { event with dispatchedAt := some at' }

def markDispatched (events : Events) (batch : List OutboxEvent) (now : Int) : Events :=
  batch.foldl (fun events event => events.put (event.dispatched now)) events

def Endpoints.listActive (endpoints : Endpoints) (environment : Environment) : List WebhookEndpointRecord :=
  endpoints.table.values.filter fun endpoint =>
    decide (endpoint.environment = environment) && decide (endpoint.status = .ACTIVE)

def registerFailure (endpoint : WebhookEndpointRecord) (threshold : Nat) (now : Int) :
    WebhookEndpointRecord :=
  { endpoint with
    consecutiveFailures := endpoint.consecutiveFailures + 1
    status := if threshold ≤ endpoint.consecutiveFailures + 1 then .DISABLED_BY_FAILURES else endpoint.status
    disabledAt := if threshold ≤ endpoint.consecutiveFailures + 1 then some now else endpoint.disabledAt }

def Endpoints.registerFailure (endpoints : Endpoints) (id : Nat) (threshold : Nat) (now : Int) : Endpoints :=
  match endpoints.get id with
  | none => endpoints
  | some endpoint => endpoints.put (Deliveries.registerFailure endpoint threshold now)

def Endpoints.resetFailures (endpoints : Endpoints) (id : Nat) : Endpoints :=
  match endpoints.get id with
  | none => endpoints
  | some endpoint => endpoints.put { endpoint with consecutiveFailures := 0 }

def Endpoints.disable (endpoints : Endpoints) (id : Nat) (now : Int) : Endpoints :=
  match endpoints.get id with
  | none => endpoints
  | some endpoint => endpoints.put { endpoint with status := .DISABLED_BY_FAILURES, disabledAt := some now }

def scheduled (id : DeliveryId) (scheduledFor : Int) : WebhookDeliveryRecord :=
  { id := id
    status := .PENDING
    scheduledFor := scheduledFor
    attemptedAt := none
    responseStatus := none
    error := none }

def DeliveryRows.scheduleFirstAttempts (deliveries : DeliveryRows) (eventId : Nat) (targets : List Nat)
    (now : Int) : DeliveryRows :=
  targets.foldl (fun rows endpointId => rows.createNew (scheduled ⟨eventId, endpointId, 1⟩ now)) deliveries

def DeliveryRows.scheduleRetry (deliveries : DeliveryRows) (id : DeliveryId) (scheduledFor : Int) :
    DeliveryRows :=
  deliveries.createNew (scheduled id scheduledFor)

/-- What an attempt writes into its row. -/
structure Completion where
  status : DeliveryStatus
  responseStatus : Option Nat
  error : Option String
  attemptedAt : Int
deriving DecidableEq, Repr

def errorColumn (error : String) : String := String.ofList (error.toList.take 512)

def WebhookDeliveryRecord.completed (delivery : WebhookDeliveryRecord) (completion : Completion) :
    WebhookDeliveryRecord :=
  { delivery with
    status := completion.status
    responseStatus := completion.responseStatus.or delivery.responseStatus
    error := (completion.error.map errorColumn).or delivery.error
    attemptedAt := some completion.attemptedAt }

def DeliveryRows.complete (deliveries : DeliveryRows) (id : DeliveryId) (completion : Completion) :
    DeliveryRows :=
  match deliveries.get id with
  | none => deliveries
  | some delivery => deliveries.put (delivery.completed completion)

def exhaustedFor (endpointId : Nat) (reason : String) (delivery : WebhookDeliveryRecord) :
    WebhookDeliveryRecord :=
  if delivery.id.endpointId = endpointId ∧ delivery.status = .PENDING then
    { delivery with status := .EXHAUSTED, error := some (errorColumn reason) }
  else delivery

theorem exhaustedFor_id (endpointId : Nat) (reason : String) (delivery : WebhookDeliveryRecord) :
    (exhaustedFor endpointId reason delivery).id = delivery.id := by
  unfold exhaustedFor
  split <;> rfl

def DeliveryRows.exhaustPendingForEndpoint (deliveries : DeliveryRows) (endpointId : Nat) (reason : String) :
    DeliveryRows :=
  deliveries.updateMany (exhaustedFor endpointId reason) (exhaustedFor_id endpointId reason)

/-- An earlier event of the subject of `event`. -/
def OutboxEvent.precedes (earlier event : OutboxEvent) : Bool :=
  decide (earlier.subjectKind = event.subjectKind) && decide (earlier.subjectId = event.subjectId) &&
    decide (earlier.sequence < event.sequence)

def hasEarlierPendingForSubject (deliveries : DeliveryRows) (events : Events) (endpointId : Nat)
    (event : OutboxEvent) : Bool :=
  deliveries.table.values.any fun delivery =>
    decide (delivery.id.endpointId = endpointId) && decide (delivery.status = .PENDING) &&
      (events.get delivery.id.eventId).any fun earlier => earlier.precedes event

end Repositories

section Rows

variable {deliveries : DeliveryRows} {id : DeliveryId} {row : WebhookDeliveryRecord}

theorem get_scheduleFirstAttempts_of_some (eventId : Nat) (targets : List Nat) (now : Int)
    (h : deliveries.get id = some row) :
    (deliveries.scheduleFirstAttempts eventId targets now).get id = some row := by
  induction targets generalizing deliveries with
  | nil => exact h
  | cons target targets ih => exact ih (Rows.get_createNew_of_some h)

theorem scheduleFirstAttempts_has {eventId endpointId : Nat} {targets : List Nat} {now : Int}
    (h : endpointId ∈ targets) :
    ∃ row, (deliveries.scheduleFirstAttempts eventId targets now).get ⟨eventId, endpointId, 1⟩ =
      some row := by
  induction targets generalizing deliveries with
  | nil => simp at h
  | cons target targets ih =>
    obtain rfl | h := List.mem_cons.mp h
    · obtain ⟨row, hrow⟩ := Rows.get_createNew_self deliveries (scheduled ⟨eventId, endpointId, 1⟩ now)
      exact ⟨row, get_scheduleFirstAttempts_of_some eventId targets now hrow⟩
    · exact ih h

theorem get_scheduleFirstAttempts {eventId : Nat} {targets : List Nat} {now : Int}
    (h : (deliveries.scheduleFirstAttempts eventId targets now).get id = some row) :
    deliveries.get id = some row ∨ row.status = .PENDING := by
  induction targets generalizing deliveries with
  | nil => exact .inl h
  | cons target targets ih =>
    obtain hget | hpending := ih h
    · obtain hold | rfl := Rows.get_createNew hget
      · exact .inl hold
      · exact .inr rfl
    · exact .inr hpending

theorem get_complete (id' : DeliveryId) (completion : Completion) :
    (deliveries.complete id completion).get id' =
      if id' = id then (deliveries.get id).map fun row => row.completed completion
        else deliveries.get id' := by
  unfold DeliveryRows.complete
  cases hget : deliveries.get id with
  | none =>
    by_cases h : id' = id
    · simp [h, hget]
    · simp [h]
  | some row =>
    have hid : row.id = id := Rows.key_of_get hget
    have hkey : (row.completed completion).id = id := hid
    simp only [Rows.get_put, hkey, Option.map_some]

theorem complete_keeps {id' : DeliveryId} (completion : Completion) (h : deliveries.get id = some row) :
    ∃ row', (deliveries.complete id' completion).get id = some row' := by
  rw [get_complete]
  by_cases hid : id = id'
  · subst hid
    simp [h]
  · simp [hid, h]

theorem get_exhaustPendingForEndpoint (endpointId : Nat) (reason : String) (id : DeliveryId) :
    (deliveries.exhaustPendingForEndpoint endpointId reason).get id =
      (deliveries.get id).map (exhaustedFor endpointId reason) := Rows.get_updateMany ..

theorem exhaustedFor_failed {endpointId : Nat} {reason : String}
    (h : (exhaustedFor endpointId reason row).status = .FAILED) : row.status = .FAILED := by
  unfold exhaustedFor at h
  split at h
  · cases h
  · exact h

end Rows

end BaasConnector.Worker.Deliveries
