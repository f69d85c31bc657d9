import BaasConnector.Worker.Deliveries
import Mathlib.Data.List.Induction
import Mathlib.Logic.Function.Basic

namespace BaasConnector.Worker.Outbox

open BaasConnector.Lib.Keyed BaasConnector.Worker.Deliveries

def outboxBatch : Nat := 500

def failureThreshold : Nat := 5

section FanOut

/-- Where a pod stands between two calls of `claimAndFanOut`. -/
inductive Dispatcher
  | idle
  | planning (events : List OutboxEvent) (now : Int)
  | scheduling (event : OutboxEvent) (targets : List Nat) (rest : List OutboxEvent) (now : Int)
  | enqueuing (deliveries : List DeliveryId) (rest : List OutboxEvent) (now : Int)
deriving DecidableEq

def targetsOf (endpoints : Endpoints) (event : OutboxEvent) : List Nat :=
  ((endpoints.listActive event.environment).filter fun endpoint =>
    matchesEventType endpoint.eventTypes event.type).map WebhookEndpointRecord.id

def Dispatcher.fanOut (endpoints : Endpoints) (deliveries : DeliveryRows) :
    Dispatcher → Dispatcher × DeliveryRows
  | .idle => (.idle, deliveries)
  | .planning [] _ => (.idle, deliveries)
  | .planning (event :: rest) now =>
    match targetsOf endpoints event with
    | [] => (.planning rest now, deliveries)
    | targets => (.scheduling event targets rest now, deliveries)
  | .scheduling event targets rest now =>
    (.enqueuing (targets.map fun endpointId => ⟨event.id, endpointId, 1⟩) rest now,
      deliveries.scheduleFirstAttempts event.id targets now)
  | .enqueuing [] rest now => (.planning rest now, deliveries)
  | .enqueuing (_ :: ids) rest now => (.enqueuing ids rest now, deliveries)

end FanOut

section Delivery

inductive TransportResult
  | response (status : Nat) (retryAfterSeconds : Option Nat)
  | network (error : String)
deriving DecidableEq, Repr

/-- What an attempt still has to do once its row is closed. -/
inductive FollowUp
  | resetFailures (endpointId : Nat)
  | disable (endpointId : Nat) (reason : String)
  | exhaustPending (endpointId : Nat) (reason : String)
  | registerFailure (endpointId : Nat)
  | scheduleRetry (id : DeliveryId) (scheduledFor : Int)
  | enqueue (id : DeliveryId)
deriving DecidableEq, Repr

/-- Where a job stands between two calls of the handler. -/
inductive Handler
  | idle
  | handling (id : DeliveryId)
  | findingEvent (id : DeliveryId)
  | delivering (id : DeliveryId) (event : OutboxEvent)
  | findingEndpoint (id : DeliveryId) (event : OutboxEvent)
  | gating (id : DeliveryId) (endpoint : WebhookEndpointRecord) (event : OutboxEvent)
  | posting (id : DeliveryId) (endpoint : WebhookEndpointRecord) (event : OutboxEvent)
  | completing (id : DeliveryId) (completion : Completion) (followUp : Option FollowUp)
  | following (followUp : FollowUp)
deriving DecidableEq

def decisionOf : TransportResult → DeliveryDecision
  | .response status retryAfterSeconds => decideDelivery status retryAfterSeconds
  | .network error => .retry error none

def responseStatusOf : TransportResult → Option Nat
  | .response status _ => some status
  | .network _ => none

def retryOrExhaust (id : DeliveryId) (result : TransportResult) (reason : String)
    (retryAfterSeconds : Option Nat) (now : Int) (random : Rat) : Completion × FollowUp :=
  match nextAttemptAt id.attempt webhookRetryScheduleSeconds retryAfterSeconds now random with
  | none => (⟨.EXHAUSTED, responseStatusOf result, some reason, now⟩, .registerFailure id.endpointId)
  | some scheduledFor =>
    (⟨.FAILED, responseStatusOf result, some reason, now⟩, .scheduleRetry id.next scheduledFor)

def applyOutcome (id : DeliveryId) (result : TransportResult) (now : Int) (random : Rat) :
    Completion × FollowUp :=
  match decisionOf result with
  | .succeeded => (⟨.SUCCEEDED, responseStatusOf result, none, now⟩, .resetFailures id.endpointId)
  | .disable_endpoint reason =>
    (⟨.EXHAUSTED, responseStatusOf result, some reason, now⟩, .disable id.endpointId reason)
  | .exhausted reason => retryOrExhaust id result reason none now random
  | .retry reason retryAfterSeconds => retryOrExhaust id result reason retryAfterSeconds now random

structure Tables where
  events : Events
  endpoints : Endpoints
  deliveries : DeliveryRows

def isPending (deliveries : DeliveryRows) (id : DeliveryId) : Bool :=
  (deliveries.get id).any fun delivery => decide (delivery.status = .PENDING)

def inactive (now : Int) : Completion := ⟨.EXHAUSTED, none, some "endpoint inativo", now⟩

def FollowUp.perform (tables : Tables) (now : Int) : FollowUp → Handler × Tables
  | .resetFailures endpointId =>
    (.idle, { tables with endpoints := tables.endpoints.resetFailures endpointId })
  | .disable endpointId reason =>
    (.following (.exhaustPending endpointId reason),
      { tables with endpoints := tables.endpoints.disable endpointId now })
  | .exhaustPending endpointId reason =>
    (.idle, { tables with deliveries := tables.deliveries.exhaustPendingForEndpoint endpointId reason })
  | .registerFailure endpointId =>
    (.idle, { tables with endpoints := tables.endpoints.registerFailure endpointId failureThreshold now })
  | .scheduleRetry id scheduledFor =>
    (.following (.enqueue id), { tables with deliveries := tables.deliveries.scheduleRetry id scheduledFor })
  | .enqueue _ => (.idle, tables)

def Handler.work (tables : Tables) (result : TransportResult) (now : Int) (random : Rat) :
    Handler → Handler × Tables
  | .idle => (.idle, tables)
  | .handling id => (if isPending tables.deliveries id then .findingEvent id else .idle, tables)
  | .findingEvent id =>
    match tables.events.get id.eventId with
    | none => (.idle, tables)
    | some event => (.delivering id event, tables)
  | .delivering id event =>
    (if isPending tables.deliveries id then .findingEndpoint id event else .idle, tables)
  | .findingEndpoint id event =>
    match tables.endpoints.get id.endpointId with
    | none => (.completing id (inactive now) none, tables)
    | some endpoint =>
      if endpoint.status = .ACTIVE then (.gating id endpoint event, tables)
      else (.completing id (inactive now) none, tables)
  | .gating id endpoint event =>
    if hasEarlierPendingForSubject tables.deliveries tables.events endpoint.id event then
      (.following (.enqueue id), tables)
    else (.posting id endpoint event, tables)
  | .posting id _ _ =>
    (.completing id (applyOutcome id result now random).1 (some (applyOutcome id result now random).2),
      tables)
  | .completing id completion followUp =>
    ((followUp.map Handler.following).getD .idle,
      { tables with deliveries := tables.deliveries.complete id completion })
  | .following followUp => followUp.perform tables now

end Delivery

structure State where
  tables : Tables
  dispatchers : Nat → Dispatcher
  handlers : Nat → Handler

def State.init : State := ⟨⟨.empty, .empty, .empty⟩, fun _ => .idle, fun _ => .idle⟩

/-- A crash stands for an exception too: what the call still had to do is lost. -/
inductive Action
  | append (event : OutboxEvent)
  | configure (endpoint : WebhookEndpointRecord)
  | claim (d : Nat) (unlocked : List Nat) (now : Int)
  | fanOut (d : Nat)
  | handle (w : Nat) (id : DeliveryId)
  | work (w : Nat) (result : TransportResult) (now : Int) (random : Rat)
  | crashDispatcher (d : Nat)
  | crashHandler (w : Nat)

def State.setDispatcher (s : State) (d : Nat) (dispatcher : Dispatcher) : State :=
  { s with dispatchers := Function.update s.dispatchers d dispatcher }

def State.setHandler (s : State) (w : Nat) (worker : Handler) : State :=
  { s with handlers := Function.update s.handlers w worker }

def State.claim (s : State) (d : Nat) (unlocked : List Nat) (now : Int) : State :=
  match s.dispatchers d with
  | .idle =>
    let batch := claimBatch s.tables.events unlocked outboxBatch
    { s with tables.events := markDispatched s.tables.events batch now }.setDispatcher d (.planning batch now)
  | _ => s

/-- The job of any delivery may come up: the sweeper enqueues it again. -/
def State.step (s : State) : Action → State
  | .append event => { s with tables.events := s.tables.events.createNew { event with dispatchedAt := none } }
  | .configure endpoint => { s with tables.endpoints := s.tables.endpoints.put endpoint }
  | .claim d unlocked now => s.claim d unlocked now
  | .fanOut d =>
    let fanned := (s.dispatchers d).fanOut s.tables.endpoints s.tables.deliveries
    { s with tables.deliveries := fanned.2 }.setDispatcher d fanned.1
  | .handle w id =>
    match s.handlers w with
    | .idle => s.setHandler w (.handling id)
    | _ => s
  | .work w result now random =>
    let worked := (s.handlers w).work s.tables result now random
    { s with tables := worked.2 }.setHandler w worked.1
  | .crashDispatcher d => s.setDispatcher d .idle
  | .crashHandler w => s.setHandler w .idle

def run (actions : List Action) : State := actions.foldl State.step .init

theorem run_append (actions : List Action) (action : Action) :
    run (actions ++ [action]) = (run actions).step action := by
  rw [run, run, List.foldl_append]
  rfl

def pendingEvent : OutboxEvent := ⟨1, .PRODUCAO, "pix_out.pending", "transaction", "txn_1", 1, none⟩

def listener : WebhookEndpointRecord := ⟨7, .PRODUCAO, [], .ACTIVE, 0, none⟩

end BaasConnector.Worker.Outbox

namespace BaasConnector.Worker.OutboxSteps

open BaasConnector.Lib.Keyed BaasConnector.Worker.Deliveries BaasConnector.Worker.Outbox

variable {s : State} {action : Action} {eventId endpointId w d : Nat} {id : DeliveryId}
variable {row : WebhookDeliveryRecord}

def HasRow (s : State) (id : DeliveryId) : Prop := ∃ row, s.tables.deliveries.get id = some row

/-- What a step can do to the deliveries. -/
theorem step_deliveries (s : State) (action : Action) :
    (s.step action).tables.deliveries = s.tables.deliveries ∨
    (∃ d event targets rest now, action = .fanOut d ∧ s.dispatchers d = .scheduling event targets rest now ∧
      (s.step action).tables.deliveries = s.tables.deliveries.scheduleFirstAttempts event.id targets now) ∨
    (∃ w result now random id completion followUp, action = .work w result now random ∧
      s.handlers w = .completing id completion followUp ∧
      (s.step action).tables.deliveries = s.tables.deliveries.complete id completion ∧
      (s.step action).handlers w = (followUp.map Handler.following).getD .idle) ∨
    (∃ endpointId reason, (s.step action).tables.deliveries =
      s.tables.deliveries.exhaustPendingForEndpoint endpointId reason) ∨
    ∃ w id scheduledFor, s.handlers w = .following (.scheduleRetry id scheduledFor) ∧
      (s.step action).tables.deliveries = s.tables.deliveries.scheduleRetry id scheduledFor := by
  cases action with
  | append event => exact .inl rfl
  | configure endpoint => exact .inl rfl
  | claim d unlocked now =>
    refine .inl ?_
    simp only [State.step, State.claim]
    split <;> rfl
  | fanOut d =>
    simp only [State.step, State.setDispatcher]
    cases hd : s.dispatchers d with
    | idle => exact .inl rfl
    | planning events now =>
      refine .inl ?_
      cases events with
      | nil => rfl
      | cons event rest =>
        simp only [Dispatcher.fanOut]
        split <;> rfl
    | scheduling event targets rest now => exact .inr (.inl ⟨d, event, targets, rest, now, rfl, hd, rfl⟩)
    | enqueuing ids rest now => cases ids <;> exact .inl rfl
  | handle w id =>
    refine .inl ?_
    simp only [State.step]
    split <;> rfl
  | work w result now random =>
    simp only [State.step, State.setHandler]
    cases hw : s.handlers w with
    | completing id completion followUp =>
      exact .inr (.inr (.inl ⟨w, result, now, random, id, completion, followUp, rfl, hw, rfl,
        Function.update_self ..⟩))
    | following followUp =>
      cases followUp with
      | exhaustPending endpointId reason => exact .inr (.inr (.inr (.inl ⟨endpointId, reason, rfl⟩)))
      | scheduleRetry id scheduledFor => exact .inr (.inr (.inr (.inr ⟨w, id, scheduledFor, hw, rfl⟩)))
      | resetFailures endpointId => exact .inl rfl
      | disable endpointId reason => exact .inl rfl
      | registerFailure endpointId => exact .inl rfl
      | enqueue id => exact .inl rfl
    | idle => exact .inl rfl
    | handling id => exact .inl rfl
    | delivering id event => exact .inl rfl
    | posting id endpoint event => exact .inl rfl
    | findingEvent id =>
      refine .inl ?_
      simp only [Handler.work]
      split <;> rfl
    | findingEndpoint id event =>
      refine .inl ?_
      simp only [Handler.work]
      split
      · rfl
      · split <;> rfl
    | gating id endpoint event =>
      refine .inl ?_
      simp only [Handler.work]
      split <;> rfl
  | crashDispatcher d => exact .inl rfl
  | crashHandler w => exact .inl rfl

/-- No step deletes a row. -/
theorem HasRow.step (h : HasRow s id) (action : Action) : HasRow (s.step action) id := by
  obtain ⟨row, hrow⟩ := h
  unfold HasRow
  obtain hsame | ⟨d, event, targets, rest, now, -, -, hnew⟩ |
    ⟨w, result, now, random, id', completion, followUp, -, -, hnew, -⟩ | ⟨endpointId, reason, hnew⟩ |
    ⟨w, id', scheduledFor, -, hnew⟩ := step_deliveries s action
  · exact ⟨row, by rw [hsame, hrow]⟩
  · exact ⟨row, by rw [hnew, get_scheduleFirstAttempts_of_some _ _ _ hrow]⟩
  · rw [hnew]
    exact complete_keeps completion hrow
  · rw [hnew, get_exhaustPendingForEndpoint, hrow]
    exact ⟨_, rfl⟩
  · exact ⟨row, by rw [hnew, DeliveryRows.scheduleRetry, Rows.get_createNew_of_some hrow]⟩

theorem HasRow.run {before : List Action} (h : HasRow (run before) id) (after : List Action) :
    HasRow (run (before ++ after)) id := by
  induction after using List.reverseRecOn with
  | nil => rwa [List.append_nil]
  | append_singleton after action ih =>
    rw [← List.append_assoc, run_append]
    exact ih.step action

/-- A row becomes FAILED by a handler that closes it. -/
theorem failed_step (h : (s.step action).tables.deliveries.get id = some row)
    (hfailed : row.status = .FAILED) :
    (∃ old, s.tables.deliveries.get id = some old ∧ old.status = .FAILED) ∨
    ∃ w completion followUp, s.handlers w = .completing id completion followUp ∧ completion.status = .FAILED ∧
      (s.step action).handlers w = (followUp.map Handler.following).getD .idle := by
  obtain hsame | ⟨d, event, targets, rest, now, -, -, hnew⟩ |
    ⟨w, result, now, random, id', completion, followUp, -, hw, hnew, hnext⟩ | ⟨endpointId, reason, hnew⟩ |
    ⟨w, id', scheduledFor, -, hnew⟩ := step_deliveries s action
  · rw [hsame] at h
    exact .inl ⟨row, h, hfailed⟩
  · rw [hnew] at h
    obtain hold | hpending := get_scheduleFirstAttempts h
    · exact .inl ⟨row, hold, hfailed⟩
    · rw [hpending] at hfailed
      cases hfailed
  · rw [hnew, get_complete] at h
    by_cases hid : id = id'
    · subst hid
      rw [if_pos rfl] at h
      obtain ⟨old, -, rfl⟩ := Option.map_eq_some_iff.mp h
      exact .inr ⟨w, completion, followUp, hw, hfailed, hnext⟩
    · rw [if_neg hid] at h
      exact .inl ⟨row, h, hfailed⟩
  · rw [hnew, get_exhaustPendingForEndpoint] at h
    obtain ⟨old, hold, rfl⟩ := Option.map_eq_some_iff.mp h
    exact .inl ⟨old, hold, exhaustedFor_failed hfailed⟩
  · rw [hnew, DeliveryRows.scheduleRetry] at h
    obtain hold | rfl := Rows.get_createNew h
    · exact .inl ⟨row, hold, hfailed⟩
    · cases hfailed

def handlerOf : Action → Option Nat
  | .handle w _ => some w
  | .work w _ _ _ => some w
  | .crashHandler w => some w
  | _ => none

theorem step_handlers (h : handlerOf action ≠ some w) : (s.step action).handlers w = s.handlers w := by
  cases action with
  | handle w' id =>
    have hw : w ≠ w' := fun hw => h (congrArg some hw.symm)
    simp only [State.step]
    split
    · exact Function.update_of_ne hw _ _
    · rfl
  | work w' result now random => exact Function.update_of_ne (fun hw => h (congrArg some hw.symm)) _ _
  | crashHandler w' => exact Function.update_of_ne (fun hw => h (congrArg some hw.symm)) _ _
  | claim d unlocked now =>
    simp only [State.step, State.claim]
    split <;> rfl
  | append event => rfl
  | configure endpoint => rfl
  | fanOut d => rfl
  | crashDispatcher d => rfl

def dispatcherOf : Action → Option Nat
  | .claim d _ _ => some d
  | .fanOut d => some d
  | .crashDispatcher d => some d
  | _ => none

theorem step_dispatchers (h : dispatcherOf action ≠ some d) :
    (s.step action).dispatchers d = s.dispatchers d := by
  cases action with
  | claim d' unlocked now =>
    have hd : d ≠ d' := fun hd => h (congrArg some hd.symm)
    simp only [State.step, State.claim]
    split
    · exact Function.update_of_ne hd _ _
    · rfl
  | fanOut d' => exact Function.update_of_ne (fun hd => h (congrArg some hd.symm)) _ _
  | crashDispatcher d' => exact Function.update_of_ne (fun hd => h (congrArg some hd.symm)) _ _
  | handle w id =>
    simp only [State.step]
    split <;> rfl
  | append event => rfl
  | configure endpoint => rfl
  | work w result now random => rfl
  | crashHandler w => rfl

theorem exists_last (s : State) (h : HasRow s ⟨eventId, endpointId, 1⟩) :
    ∃ attempt, HasRow s ⟨eventId, endpointId, attempt⟩ ∧ ¬ HasRow s ⟨eventId, endpointId, attempt + 1⟩ := by
  have hfree : ∃ n, ¬ HasRow s ⟨eventId, endpointId, n + 1⟩ := by
    obtain ⟨n, hn⟩ := Infinite.exists_notMem_finset
      (s.tables.deliveries.table.rows.map fun row => row.1.attempt - 1).toFinset
    refine ⟨n, fun ⟨row, hrow⟩ => hn ?_⟩
    have hmem := (lookup_eq_some s.tables.deliveries.table.nodup).mp hrow
    exact List.mem_toFinset.mpr (List.mem_map.mpr ⟨_, hmem, rfl⟩)
  classical
  obtain ⟨n, hn, hleast⟩ := Nat.findX hfree
  cases n with
  | zero => exact absurd h hn
  | succ n => exact ⟨n + 1, not_not.mp (hleast n (Nat.lt_succ_self n)), hn⟩

end BaasConnector.Worker.OutboxSteps
