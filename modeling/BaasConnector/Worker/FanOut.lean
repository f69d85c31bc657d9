import BaasConnector.Lib.History
import BaasConnector.Worker.Outbox

namespace BaasConnector.Worker.FanOut

open BaasConnector.Lib.Keyed BaasConnector.Lib.History BaasConnector.Worker.Deliveries
open BaasConnector.Worker.Outbox BaasConnector.Worker.OutboxSteps

variable {s : State} {action : Action} {actions : List Action}
    {eventId endpointId w d : Nat} {id : DeliveryId}
variable {row : WebhookDeliveryRecord}

/-- A pod marks the event dispatched while the endpoint is active and matches it. -/
def Marks (before : List Action) (action : Action) (eventId endpointId : Nat) : Prop :=
  ∃ d unlocked now event, action = .claim d unlocked now ∧ (run before).dispatchers d = .idle ∧
    event ∈ claimBatch (run before).tables.events unlocked outboxBatch ∧ event.id = eventId ∧
    endpointId ∈ targetsOf (run before).tables.endpoints event

def Targeted (actions : List Action) (eventId endpointId : Nat) : Prop :=
  Once (fun before action => Marks before action eventId endpointId) actions

section Phases

def FanningOut (eventId endpointId : Nat) : Dispatcher → Prop
  | .idle => False
  | .planning events _ => ∃ event ∈ events, event.id = eventId
  | .scheduling event targets rest _ =>
    (event.id = eventId ∧ endpointId ∈ targets) ∨ ∃ event ∈ rest, event.id = eventId
  | .enqueuing _ rest _ => ∃ event ∈ rest, event.id = eventId

/-- The events of a batch that have no rows yet. -/
def unplanned : Dispatcher → List OutboxEvent
  | .idle => []
  | .planning events _ => events
  | .scheduling event _ rest _ => event :: rest
  | .enqueuing _ rest _ => rest

def Rescheduling (s : State) (w : Nat) (id : DeliveryId) : Prop :=
  ∃ scheduledFor, s.handlers w = .following (.scheduleRetry id scheduledFor)

/-- The next attempt is scheduled, or a handler is about to schedule it. -/
def Retried (s : State) (id : DeliveryId) : Prop := HasRow s id.next ∨ ∃ w, Rescheduling s w id.next

end Phases

section Conditions

/-- The steps after which every delivery that is owed still has a row or a process
that is about to write it. -/
def KeepsOwed (before : List Action) : Action → Prop
  | .crashDispatcher d =>
    ∀ event ∈ unplanned ((run before).dispatchers d), ∀ endpointId, ¬ Targeted before event.id endpointId
  | .fanOut d =>
    ∀ event rest now, (run before).dispatchers d = .planning (event :: rest) now →
      ∀ endpointId, Targeted before event.id endpointId →
        endpointId ∈ targetsOf (run before).tables.endpoints event
  | .crashHandler w =>
    ∀ id, Rescheduling (run before) w id → HasRow (run before) id ∨ ∃ w', w' ≠ w ∧
      Rescheduling (run before) w' id
  | _ => True

/-- A closed row is FAILED only when the handler goes on to the next attempt. -/
def ClosesWell : Handler → Prop
  | .completing id completion followUp =>
    completion.status = .FAILED → ∃ scheduledFor, followUp = some (.scheduleRetry id.next scheduledFor)
  | _ => True

end Conditions

section Steps

theorem applyOutcome_failed {result : TransportResult} {now : Int} {random : Rat}
    (h : (applyOutcome id result now random).1.status = .FAILED) :
    ∃ scheduledFor, (applyOutcome id result now random).2 = .scheduleRetry id.next scheduledFor := by
  have hretry : ∀ reason after, (retryOrExhaust id result reason after now random).1.status = .FAILED →
      ∃ scheduledFor, (retryOrExhaust id result reason after now random).2 =
        .scheduleRetry id.next scheduledFor := by
    intro reason after h
    unfold retryOrExhaust at h ⊢
    cases hnext : nextAttemptAt id.attempt webhookRetryScheduleSeconds after now random with
    | none =>
      rw [hnext] at h
      cases h
    | some scheduledFor => exact ⟨scheduledFor, rfl⟩
  unfold applyOutcome at h ⊢
  cases hdecision : decisionOf result with
  | succeeded =>
    rw [hdecision] at h
    cases h
  | disable_endpoint reason =>
    rw [hdecision] at h
    cases h
  | exhausted reason =>
    rw [hdecision] at h
    exact hretry reason none h
  | retry reason after =>
    rw [hdecision] at h
    exact hretry reason after h

theorem work_closesWell (tables : Tables) (result : TransportResult) (now : Int) (random : Rat)
    (handler : Handler) : ClosesWell (handler.work tables result now random).1 := by
  cases handler with
  | posting id endpoint event =>
    intro h
    obtain ⟨scheduledFor, hfollow⟩ := applyOutcome_failed h
    exact ⟨scheduledFor, congrArg some hfollow⟩
  | findingEndpoint id event =>
    simp only [Handler.work]
    split
    · exact fun h => by cases h
    · split
      · trivial
      · exact fun h => by cases h
  | completing id completion followUp => cases followUp <;> trivial
  | following followUp => cases followUp <;> trivial
  | idle => trivial
  | handling id =>
    simp only [Handler.work]
    split <;> trivial
  | findingEvent id =>
    simp only [Handler.work]
    split <;> trivial
  | delivering id event =>
    simp only [Handler.work]
    split <;> trivial
  | gating id endpoint event =>
    simp only [Handler.work]
    split <;> trivial

theorem update_handlers {P : Handler → Prop} {handler : Handler}
    (h : ∀ w, P (s.handlers w)) (hnew : P handler)
    (w' : Nat) : P ((s.setHandler w handler).handlers w') := by
  by_cases hw : w' = w
  · subst hw
    simpa [State.setHandler] using hnew
  · simpa [State.setHandler, hw] using h w'

theorem closesWell_step (h : ∀ w, ClosesWell (s.handlers w)) (action : Action) (w : Nat) :
    ClosesWell ((s.step action).handlers w) := by
  cases action with
  | work w' result now random => exact update_handlers h (work_closesWell _ _ _ _ _) w
  | handle w' id =>
    simp only [State.step]
    split
    · exact update_handlers h (show ClosesWell (.handling id) from trivial) w
    · exact h w
  | crashHandler w' => exact update_handlers h (show ClosesWell .idle from trivial) w
  | claim d unlocked now =>
    simp only [State.step, State.claim]
    split <;> exact h w
  | append event => exact h w
  | configure endpoint => exact h w
  | fanOut d => exact h w
  | crashDispatcher d => exact h w

theorem Rescheduling.of_ne (h : Rescheduling s w id) (hne : handlerOf action ≠ some w) :
    Rescheduling (s.step action) w id := by
  obtain ⟨scheduledFor, hw⟩ := h
  exact ⟨scheduledFor, by rw [step_handlers hne, hw]⟩

/-- A handler that goes on to the next attempt schedules it, unless it dies first. -/
theorem Rescheduling.step (h : Rescheduling s w id)
    (hcrash : action = .crashHandler w → HasRow s id ∨ ∃ w', w' ≠ w ∧ Rescheduling s w' id) :
    HasRow (s.step action) id ∨ ∃ w', Rescheduling (s.step action) w' id := by
  by_cases hne : handlerOf action ≠ some w
  · exact .inr ⟨w, h.of_ne hne⟩
  rw [not_not] at hne
  cases action with
  | handle w' id' =>
    cases hne
    obtain ⟨scheduledFor, hw⟩ := h
    refine .inr ⟨w, scheduledFor, ?_⟩
    simp only [State.step, hw]
  | work w' result now random =>
    cases hne
    obtain ⟨scheduledFor, hw⟩ := h
    obtain ⟨row, hrow⟩ := Rows.get_createNew_self s.tables.deliveries (scheduled id scheduledFor)
    refine .inl ⟨row, ?_⟩
    simp only [State.step, State.setHandler, hw]
    exact hrow
  | crashHandler w' =>
    cases hne
    obtain hrow | ⟨w', hw', h'⟩ := hcrash rfl
    · exact .inl (hrow.step _)
    · exact .inr ⟨w', h'.of_ne fun heq => hw' (Option.some.inj heq).symm⟩
  | append event => cases hne
  | configure endpoint => cases hne
  | claim d unlocked now => cases hne
  | fanOut d => cases hne
  | crashDispatcher d => cases hne

theorem Retried.step (h : Retried s id)
    (hcrash : ∀ w, action = .crashHandler w → Rescheduling s w id.next →
      HasRow s id.next ∨ ∃ w', w' ≠ w ∧ Rescheduling s w' id.next) :
    Retried (s.step action) id := by
  obtain hrow | ⟨w, hw⟩ := h
  · exact .inl (hrow.step action)
  · exact hw.step fun haction => hcrash w haction hw

/-- The fan-out of an event goes on until its rows are written. -/
theorem FanningOut.fanOut {endpoints : Endpoints} {deliveries : DeliveryRows} {dispatcher : Dispatcher}
    (h : FanningOut eventId endpointId dispatcher)
    (hlisted : ∀ event rest now, dispatcher = .planning (event :: rest) now → event.id = eventId →
      endpointId ∈ targetsOf endpoints event) :
    FanningOut eventId endpointId (dispatcher.fanOut endpoints deliveries).1 ∨
      ∃ row, (dispatcher.fanOut endpoints deliveries).2.get ⟨eventId, endpointId, 1⟩ = some row := by
  cases dispatcher with
  | idle => exact .inl h
  | planning events now =>
    cases events with
    | nil =>
      obtain ⟨event, hmem, -⟩ := h
      cases hmem
    | cons event rest =>
      obtain ⟨owed, hmem, howed⟩ := h
      have hlisted := hlisted event rest now rfl
      refine .inl ?_
      simp only [Dispatcher.fanOut]
      obtain rfl | hrest := List.mem_cons.mp hmem
      · have hin := hlisted howed
        cases htargets : targetsOf endpoints owed with
        | nil =>
          rw [htargets] at hin
          cases hin
        | cons target targets =>
          rw [htargets] at hin
          exact .inl ⟨howed, hin⟩
      · cases targetsOf endpoints event with
        | nil => exact ⟨owed, hrest, howed⟩
        | cons target targets => exact .inr ⟨owed, hrest, howed⟩
  | scheduling event targets rest now =>
    obtain ⟨rfl, hin⟩ | hrest := h
    · exact .inr (scheduleFirstAttempts_has hin)
    · exact .inl hrest
  | enqueuing ids rest now => cases ids <;> exact .inl h

theorem FanningOut.unplanned {dispatcher : Dispatcher} (h : FanningOut eventId endpointId dispatcher) :
    ∃ event ∈ unplanned dispatcher, event.id = eventId := by
  cases dispatcher with
  | idle => cases h
  | planning events now => exact h
  | scheduling event targets rest now =>
    obtain ⟨hevent, -⟩ | ⟨owed, hmem, howed⟩ := h
    · exact ⟨event, List.mem_cons_self, hevent⟩
    · exact ⟨owed, List.mem_cons_of_mem _ hmem, howed⟩
  | enqueuing ids rest now => exact h

def Owed (s : State) (eventId endpointId : Nat) : Prop :=
  HasRow s ⟨eventId, endpointId, 1⟩ ∨ ∃ d, FanningOut eventId endpointId (s.dispatchers d)

theorem FanningOut.step {before : List Action}
    (h : FanningOut eventId endpointId ((run before).dispatchers d))
    (htarget : Targeted before eventId endpointId) (hkeeps : KeepsOwed before action) :
    Owed ((run before).step action) eventId endpointId := by
  by_cases hne : dispatcherOf action ≠ some d
  · exact .inr ⟨d, by rw [step_dispatchers hne]; exact h⟩
  rw [not_not] at hne
  cases action with
  | claim d' unlocked now =>
    cases hne
    refine .inr ⟨d, ?_⟩
    simp only [State.step, State.claim]
    split
    · rename_i hidle
      rw [hidle] at h
      cases h
    · exact h
  | fanOut d' =>
    cases hne
    have hlisted : ∀ event rest now, (run before).dispatchers d = .planning (event :: rest) now →
        event.id = eventId → endpointId ∈ targetsOf (run before).tables.endpoints event := by
      rintro event rest now hphase rfl
      exact hkeeps event rest now hphase endpointId htarget
    obtain hfanning | hrow := h.fanOut hlisted
    · refine .inr ⟨d, ?_⟩
      simp only [State.step, State.setDispatcher, Function.update_self]
      exact hfanning
    · exact .inl hrow
  | crashDispatcher d' =>
    cases hne
    obtain ⟨event, hmem, rfl⟩ := h.unplanned
    exact absurd htarget (hkeeps event hmem endpointId)
  | append event => cases hne
  | configure endpoint => cases hne
  | handle w id => cases hne
  | work w result now random => cases hne
  | crashHandler w => cases hne

theorem Marks.owed {before : List Action} (h : Marks before action eventId endpointId) :
    Owed ((run before).step action) eventId endpointId := by
  obtain ⟨d, unlocked, now, event, rfl, hidle, hmem, hevent, -⟩ := h
  refine .inr ⟨d, ?_⟩
  simp only [State.step, State.claim, hidle, State.setDispatcher, Function.update_self]
  exact ⟨event, hmem, hevent⟩

end Steps

section Runs

structure Inv (actions : List Action) : Prop where
  owed : ∀ eventId endpointId, Targeted actions eventId endpointId → Owed (run actions) eventId endpointId
  retried : ∀ id row, (run actions).tables.deliveries.get id = some row → row.status = .FAILED →
    Retried (run actions) id
  closesWell : ∀ w, ClosesWell ((run actions).handlers w)

theorem Inv.step (h : Inv actions) (hkeeps : KeepsOwed actions action) : Inv (actions ++ [action]) := by
  refine ⟨fun eventId endpointId htarget => ?_, fun id row hget hfailed => ?_, fun w => ?_⟩
  · rw [run_append]
    obtain hold | hmarks := (once_append action).mp htarget
    · obtain hrow | ⟨d, hfanning⟩ := h.owed eventId endpointId hold
      · exact .inl (hrow.step action)
      · exact hfanning.step hold hkeeps
    · exact Marks.owed hmarks
  · rw [run_append] at hget ⊢
    obtain ⟨old, hold, hstatus⟩ | ⟨w, completion, followUp, hw, hstatus, hnext⟩ := failed_step hget hfailed
    · refine (h.retried id old hold hstatus).step ?_
      rintro w rfl hw
      exact hkeeps id.next hw
    · have hcloses := h.closesWell w
      rw [hw] at hcloses
      obtain ⟨scheduledFor, hfollow⟩ := hcloses hstatus
      rw [hfollow] at hnext
      exact .inr ⟨w, scheduledFor, hnext⟩
  · rw [run_append]
    exact closesWell_step h.closesWell action w

theorem inv_run (h : Always KeepsOwed actions) : Inv actions := by
  refine h.induction ⟨?_, ?_, ?_⟩ fun actions action ih hkeeps => ih.step hkeeps
  · exact fun eventId endpointId htarget => absurd htarget not_once_nil
  · intro id row hget
    cases hget
  · exact fun w => trivial

/-- The delivery waits, has ended, or a process is at work that will write its row. -/
def Covered (s : State) (eventId endpointId : Nat) : Prop :=
  (∃ attempt row, s.tables.deliveries.get ⟨eventId, endpointId, attempt⟩ = some row ∧ row.status ≠ .FAILED) ∨
    (∃ d, FanningOut eventId endpointId (s.dispatchers d)) ∨
    ∃ w attempt, Rescheduling s w ⟨eventId, endpointId, attempt⟩

theorem Inv.covered (h : Inv actions) (htarget : Targeted actions eventId endpointId) :
    Covered (run actions) eventId endpointId := by
  obtain hfirst | hfanning := h.owed eventId endpointId htarget
  · obtain ⟨attempt, ⟨row, hrow⟩, hlast⟩ := exists_last (run actions) hfirst
    by_cases hfailed : row.status = .FAILED
    · obtain hnext | ⟨w, hw⟩ := h.retried _ row hrow hfailed
      · exact absurd hnext hlast
      · exact .inr (.inr ⟨w, attempt + 1, hw⟩)
    · exact .inl ⟨attempt, row, hrow, hfailed⟩
  · exact .inr (.inl hfanning)

/-- As long as no process dies between two writes that belong together, and no
target is dropped between the mark and the fan-out, no delivery is lost and every
FAILED attempt has a successor. -/
theorem no_event_lost (actions : List Action) (h : Always KeepsOwed actions) :
    (∀ event, (run actions).tables.events.get event.id = some event → event.dispatchedAt ≠ none →
      ∀ endpointId, Targeted actions event.id endpointId → Covered (run actions) event.id endpointId) ∧
    ∀ id row, (run actions).tables.deliveries.get id = some row → row.status = .FAILED →
      Retried (run actions) id :=
  ⟨fun _ _ _ _ htarget => (inv_run h).covered htarget, (inv_run h).retried⟩

def marked : List Action := [.append pendingEvent, .configure listener, .claim 0 [1] 0]

theorem marked_targeted : Targeted marked 1 7 :=
  ⟨[.append pendingEvent, .configure listener], .claim 0 [1] 0, [], rfl, 0, [1], 0, pendingEvent, rfl,
    by decide, by decide, rfl, by decide⟩

theorem marked_targets (h : Targeted marked eventId endpointId) : eventId = 1 ∧ endpointId = 7 := by
  have hsplit : marked = [.append pendingEvent, .configure listener] ++ [.claim 0 [1] 0] := rfl
  rw [Targeted, hsplit] at h
  obtain hbefore | ⟨d, unlocked, now, event, haction, -, hmem, rfl, htarget⟩ := (once_append _).mp h
  · have hsplit : [Action.append pendingEvent, .configure listener] =
      ([] ++ [.append pendingEvent]) ++ [.configure listener] := rfl
    rw [hsplit] at hbefore
    obtain hbefore | ⟨d, unlocked, now, event, haction, -⟩ := (once_append _).mp hbefore
    · obtain hnil | ⟨d, unlocked, now, event, haction, -⟩ := (once_append _).mp hbefore
      · exact absurd hnil not_once_nil
      · cases haction
    · cases haction
  · cases haction
    have hbatch : claimBatch (run [.append pendingEvent, .configure listener]).tables.events [1] outboxBatch =
        [pendingEvent] := by decide
    rw [hbatch, List.mem_singleton] at hmem
    have htargets : targetsOf (run [.append pendingEvent, .configure listener]).tables.endpoints
      pendingEvent =
        [7] := by decide
    rw [hmem, htargets, List.mem_singleton] at htarget
    exact ⟨by rw [hmem]; rfl, htarget⟩

/-- The pod dies with the batch marked and no row written: no sweep finds the event again. -/
theorem marked_batch_lost :
    Targeted (marked ++ [.crashDispatcher 0]) 1 7 ∧ ¬ Covered (run (marked ++ [.crashDispatcher 0])) 1 7 := by
  refine ⟨(once_append _).mpr (.inl marked_targeted), ?_⟩
  rintro (⟨attempt, row, hget, -⟩ | ⟨d, hfanning⟩ | ⟨w, attempt, scheduledFor, hw⟩)
  · cases hget
  · by_cases hd : d = 0
    · subst hd
      exact hfanning
    · have hother : dispatcherOf (.crashDispatcher 0) ≠ some d := fun h => hd (Option.some.inj h).symm
      rw [run_append, step_dispatchers hother] at hfanning
      have hidle : (run marked).dispatchers d = .idle := Function.update_of_ne hd _ _
      rw [hidle] at hfanning
      exact hfanning
  · cases hw

def retriedRun : List Action :=
  marked ++ [.fanOut 0, .fanOut 0, .crashDispatcher 0, .handle 0 ⟨1, 7, 1⟩] ++
    List.replicate 8 (.work 0 (.network "socket hang up") 1 0) ++ [.crashHandler 0]

theorem retriedRun_keepsOwed : Always KeepsOwed retriedRun := by
  have hfrom : AlwaysFrom KeepsOwed [] retriedRun := by
    refine ⟨trivial, trivial, trivial, ?_, ?_, ?_, trivial, trivial, trivial, trivial,
      trivial, trivial, trivial,
      trivial, trivial, ?_, trivial⟩
    · intro event rest now hphase endpointId htarget
      have hplanning : (run marked).dispatchers 0 = .planning [pendingEvent] 0 := by decide
      cases hplanning.symm.trans hphase
      obtain ⟨-, rfl⟩ := marked_targets htarget
      decide
    · intro event rest now hphase
      have hscheduling : (run (marked ++ [.fanOut 0])).dispatchers 0 = .scheduling pendingEvent [7] [] 0 := by
        decide
      cases hscheduling.symm.trans hphase
    · intro event hmem
      cases hmem
    · rintro id ⟨scheduledFor, hphase⟩
      cases hphase
  exact hfrom.always always_nil

/-- A pod that dies with all rows written, and a handler that dies with the next
attempt scheduled, lose nothing. -/
theorem no_event_lost_retried :
    Always KeepsOwed retriedRun ∧ Targeted retriedRun 1 7 ∧ Covered (run retriedRun) 1 7 ∧
      Retried (run retriedRun) ⟨1, 7, 1⟩ := by
  have htarget : Targeted retriedRun 1 7 := by
    have hmore := (marked_targeted.mono [.fanOut 0, .fanOut 0, .crashDispatcher 0, .handle 0 ⟨1, 7, 1⟩]).mono
      (List.replicate 8 (.work 0 (.network "socket hang up") 1 0))
    exact hmore.mono [.crashHandler 0]
  have hevent : (run retriedRun).tables.events.get 1 = some (pendingEvent.dispatched 0) := by decide
  have hfailed : ((run retriedRun).tables.deliveries.get ⟨1, 7, 1⟩).map (fun row => row.status) =
    some .FAILED := by
    decide
  obtain ⟨row, hrow, hstatus⟩ := Option.map_eq_some_iff.mp hfailed
  have hmarked : (pendingEvent.dispatched 0).dispatchedAt ≠ none := by decide
  obtain ⟨hcovered, hretried⟩ := no_event_lost retriedRun retriedRun_keepsOwed
  exact ⟨retriedRun_keepsOwed, htarget, hcovered _ hevent hmarked 7 htarget, hretried _ row hrow hstatus⟩

end Runs

end BaasConnector.Worker.FanOut
