import BaasConnector.Lib.History
import BaasConnector.Worker.Outbox

namespace BaasConnector.Worker.DeliveryOrder

open BaasConnector.Lib.Keyed BaasConnector.Lib.History BaasConnector.Worker.Deliveries
open BaasConnector.Worker.Outbox BaasConnector.Worker.OutboxSteps

variable {s : State} {action : Action} {actions : List Action} {eventId endpointId w : Nat} {id : DeliveryId}
variable {endpoint : WebhookEndpointRecord} {event earlier stored : OutboxEvent}

section Statements

def Subscribed (endpoint : WebhookEndpointRecord) (event : OutboxEvent) : Prop :=
  endpoint.environment = event.environment ∧ matchesEventType endpoint.eventTypes event.type = true

instance : Decidable (Subscribed endpoint event) := inferInstanceAs (Decidable (_ ∧ _))

/-- The request that a step sends. -/
def sends (s : State) : Action → Option (WebhookEndpointRecord × OutboxEvent)
  | .work w _ _ _ =>
    match s.handlers w with
    | .posting _ endpoint event => some (endpoint, event)
    | _ => none
  | _ => none

/-- The delivery that finds the gate of its subject open. -/
def letsThrough (s : State) : Action → Option (WebhookEndpointRecord × OutboxEvent)
  | .work w _ _ _ =>
    match s.handlers w with
    | .gating _ endpoint event =>
      if hasEarlierPendingForSubject s.tables.deliveries s.tables.events endpoint.id event then none
      else some (endpoint, event)
    | _ => none
  | _ => none

/-- The event was delivered to the endpoint, or given up. -/
def Settles (s : State) (eventId endpointId : Nat) : Prop :=
  ∃ attempt row, s.tables.deliveries.get ⟨eventId, endpointId, attempt⟩ = some row ∧
    (row.status = .SUCCEEDED ∨ row.status = .EXHAUSTED)

def Settled (actions : List Action) (eventId endpointId : Nat) : Prop :=
  ∃ earlier later, actions = earlier ++ later ∧ Settles (run earlier) eventId endpointId

/-- No event is sent before the earlier events of its subject are settled, also
those that are stored only later. -/
def InOrder (actions : List Action) : Prop :=
  Always (fun before action => ∀ sent ∈ sends (run before) action,
    ∀ earlier ∈ (run actions).tables.events.table.values, earlier.precedes sent.2 = true →
      Subscribed sent.1 earlier → Settled before earlier.id sent.1.id) actions

/-- Fanned out to the endpoint, and between no two writes. -/
def Visible (tables : Tables) (eventId endpointId : Nat) : Prop :=
  (tables.events.get eventId).isSome = true ∧ (tables.deliveries.get ⟨eventId, endpointId, 1⟩).isSome = true ∧
    ∀ row ∈ tables.deliveries.table.values, row.id.eventId = eventId → row.id.endpointId = endpointId →
      row.status = .FAILED → (tables.deliveries.get row.id.next).isSome = true

instance {tables : Tables} : Decidable (Visible tables eventId endpointId) :=
  inferInstanceAs (Decidable (_ ∧ _ ∧ _))

def GateSees (events : Events) (before : List Action) (action : Action) : Prop :=
  ∀ passed ∈ letsThrough (run before) action, ∀ earlier ∈ events.table.values,
    earlier.precedes passed.2 = true → Subscribed passed.1 earlier →
      Visible (run before).tables earlier.id passed.1.id

instance {events : Events} {before : List Action} : Decidable (GateSees events before action) :=
  inferInstanceAs (Decidable (∀ passed ∈ letsThrough (run before) action, _))

end Statements

section Facts

/-- An event without the mark of its dispatch. -/
def fact (event : OutboxEvent) : OutboxEvent := { event with dispatchedAt := none }

def FactsKept (events events' : Events) : Prop :=
  ∀ id event, events.get id = some event → ∃ event', events'.get id = some event' ∧ fact event' = fact event

theorem FactsKept.refl (events : Events) : FactsKept events events := fun _ event h => ⟨event, h, rfl⟩

theorem FactsKept.trans {events events' events'' : Events} (h : FactsKept events events')
    (h' : FactsKept events' events'') : FactsKept events events'' := by
  intro id event hget
  obtain ⟨event', hget', hfact'⟩ := h id event hget
  obtain ⟨event'', hget'', hfact''⟩ := h' id event' hget'
  exact ⟨event'', hget'', hfact''.trans hfact'⟩

theorem factsKept_put {events : Events} (h : events.get event.id = some stored)
    (hfact : fact stored = fact event)
    (now : Int) : FactsKept events (events.put (event.dispatched now)) := by
  intro id old hold
  by_cases hid : id = event.id
  · subst hid
    rw [h] at hold
    cases hold
    exact ⟨event.dispatched now, Rows.get_put_self events (event.dispatched now), hfact.symm⟩
  · have hkey : id ≠ (event.dispatched now).id := hid
    exact ⟨old, by rw [Rows.get_put_ne events _ hkey, hold], rfl⟩

theorem factsKept_markDispatched {events : Events} {batch : List OutboxEvent} {now : Int}
    (h : ∀ event ∈ batch, ∃ stored, events.get event.id = some stored ∧ fact stored = fact event) :
    FactsKept events (markDispatched events batch now) := by
  induction batch generalizing events with
  | nil => exact .refl events
  | cons event batch ih =>
    obtain ⟨stored, hstored, hfact⟩ := h event List.mem_cons_self
    have hput := factsKept_put hstored hfact now
    refine hput.trans (ih fun next hnext => ?_)
    obtain ⟨old, hold, hold'⟩ := h next (List.mem_cons_of_mem _ hnext)
    obtain ⟨new, hnew, hnew'⟩ := hput _ old hold
    exact ⟨new, hnew, hnew'.trans hold'⟩

theorem claimBatch_get {events : Events} {unlocked : List Nat} {limit : Nat}
    (h : event ∈ claimBatch events unlocked limit) : events.get event.id = some event := by
  have hfilter := List.mem_of_mem_filter (List.mem_of_mem_take h)
  obtain ⟨id, -, hget⟩ := List.mem_filterMap.mp hfilter
  rwa [Rows.key_of_get hget]

theorem factsKept_createNew (events : Events) (event : OutboxEvent) :
    FactsKept events (events.createNew event) :=
  fun _ old hold => ⟨old, Rows.get_createNew_of_some hold, rfl⟩

theorem work_events (tables : Tables) (result : TransportResult) (now : Int)
    (random : Rat) (handler : Handler) :
    (handler.work tables result now random).2.events = tables.events := by
  cases handler with
  | following followUp => cases followUp <;> rfl
  | findingEvent id =>
    simp only [Handler.work]
    split <;> rfl
  | findingEndpoint id event =>
    simp only [Handler.work]
    split
    · rfl
    · split <;> rfl
  | gating id endpoint event =>
    simp only [Handler.work]
    split <;> rfl
  | idle => rfl
  | handling id => rfl
  | delivering id event => rfl
  | posting id endpoint event => rfl
  | completing id completion followUp => rfl

theorem factsKept_step (s : State) (action : Action) :
    FactsKept s.tables.events (s.step action).tables.events := by
  cases action with
  | append event => exact factsKept_createNew _ _
  | claim d unlocked now =>
    simp only [State.step, State.claim]
    split
    · exact factsKept_markDispatched fun event hmem => ⟨event, claimBatch_get hmem, rfl⟩
    · exact .refl _
  | work w result now random =>
    have hevents := work_events s.tables result now random (s.handlers w)
    change FactsKept _ ((s.handlers w).work s.tables result now random).2.events
    rw [hevents]
    exact .refl _
  | handle w id =>
    simp only [State.step]
    split <;> exact .refl _
  | configure endpoint => exact .refl _
  | fanOut d => exact .refl _
  | crashDispatcher d => exact .refl _
  | crashHandler w => exact .refl _

theorem factsKept_run (before after : List Action) :
    FactsKept (run before).tables.events (run (before ++ after)).tables.events := by
  induction after using List.reverseRecOn with
  | nil =>
    rw [List.append_nil]
    exact .refl _
  | append_singleton after action ih =>
    rw [← List.append_assoc, run_append]
    exact ih.trans (factsKept_step _ action)

theorem precedes_of_fact (h : fact stored = fact earlier) :
    stored.precedes event = earlier.precedes event := by
  have hkind := congrArg OutboxEvent.subjectKind h
  have hsubject := congrArg OutboxEvent.subjectId h
  have hsequence := congrArg OutboxEvent.sequence h
  simp only [fact] at hkind hsubject hsequence
  rw [OutboxEvent.precedes, OutboxEvent.precedes, hkind, hsubject, hsequence]

end Facts

section Gate

theorem mem_letsThrough {passed : WebhookEndpointRecord × OutboxEvent} (h : passed ∈ letsThrough s action) :
    hasEarlierPendingForSubject s.tables.deliveries s.tables.events passed.1.id passed.2 = false := by
  unfold letsThrough at h
  split at h
  · split at h
    · split at h
      · cases h
      · rename_i hgate
        cases h
        simpa using hgate
    · cases h
  · cases h

theorem work_posting {handler : Handler} {tables : Tables} {result : TransportResult}
    {now : Int} {random : Rat}
    (h : (handler.work tables result now random).1 = .posting id endpoint event) :
    handler = .gating id endpoint event ∧
      hasEarlierPendingForSubject tables.deliveries tables.events endpoint.id event = false := by
  cases handler with
  | gating id' endpoint' event' =>
    simp only [Handler.work] at h
    split at h
    · cases h
    · rename_i hgate
      cases h
      exact ⟨rfl, by simpa using hgate⟩
  | following followUp => cases followUp <;> cases h
  | completing id' completion followUp => cases followUp <;> cases h
  | findingEvent id' =>
    simp only [Handler.work] at h
    split at h <;> cases h
  | findingEndpoint id' event' =>
    simp only [Handler.work] at h
    split at h
    · cases h
    · split at h <;> cases h
  | handling id' =>
    simp only [Handler.work] at h
    split at h <;> cases h
  | delivering id' event' =>
    simp only [Handler.work] at h
    split at h <;> cases h
  | idle => cases h
  | posting id' endpoint' event' => cases h

/-- A handler that sends has passed the gate. -/
theorem posting_passed (h : (run actions).handlers w = .posting id endpoint event) :
    Once (fun before action => letsThrough (run before) action = some (endpoint, event)) actions := by
  induction actions using List.reverseRecOn with
  | nil => cases h
  | append_singleton actions action ih =>
    rw [run_append] at h
    rw [once_append]
    by_cases hne : handlerOf action ≠ some w
    · rw [step_handlers hne] at h
      exact .inl (ih h)
    rw [not_not] at hne
    cases action with
    | handle w' id' =>
      cases hne
      simp only [State.step] at h
      split at h
      · simp only [State.setHandler, Function.update_self] at h
        cases h
      · exact .inl (ih h)
    | work w' result now random =>
      cases hne
      simp only [State.step, State.setHandler, Function.update_self] at h
      obtain ⟨hgating, hgate⟩ := work_posting h
      refine .inr ?_
      simp [letsThrough, hgating, hgate]
    | crashHandler w' =>
      cases hne
      simp only [State.step, State.setHandler, Function.update_self] at h
      cases h
    | append event' => cases hne
    | configure endpoint' => cases hne
    | claim d unlocked now => cases hne
    | fanOut d => cases hne
    | crashDispatcher d => cases hne

theorem mem_sends {sent : WebhookEndpointRecord × OutboxEvent} (h : sent ∈ sends s action) :
    ∃ w id, s.handlers w = .posting id sent.1 sent.2 := by
  unfold sends at h
  split at h
  · split at h
    · rename_i w _ _ _ _ id endpoint event hphase
      cases h
      exact ⟨w, id, hphase⟩
    · cases h
  · cases h

/-- Behind an open gate an event that was fanned out and is between no two writes
has come to its end. -/
theorem settles_of_visible
    (hgate : hasEarlierPendingForSubject s.tables.deliveries s.tables.events endpointId event = false)
    (hstored : s.tables.events.get eventId = some stored) (hprecedes : stored.precedes event = true)
    (hvisible : Visible s.tables eventId endpointId) : Settles s eventId endpointId := by
  obtain ⟨-, hfirst, hfailed⟩ := hvisible
  obtain ⟨attempt, ⟨row, hrow⟩, hlast⟩ := exists_last s (Option.isSome_iff_exists.mp hfirst)
  have hkey : row.id = ⟨eventId, endpointId, attempt⟩ := Rows.key_of_get hrow
  have hmem : row ∈ s.tables.deliveries.table.values := Table.mem_values.mpr ⟨_, hrow⟩
  refine ⟨attempt, row, hrow, ?_⟩
  cases hstatus : row.status with
  | SUCCEEDED => exact .inl rfl
  | EXHAUSTED => exact .inr rfl
  | FAILED =>
    have hnext := hfailed row hmem (by rw [hkey]) (by rw [hkey]) hstatus
    rw [hkey] at hnext
    exact absurd (Option.isSome_iff_exists.mp hnext) hlast
  | PENDING =>
    rw [hasEarlierPendingForSubject, List.any_eq_false] at hgate
    exact absurd (by simp [hkey, hstatus, hstored, hprecedes]) (hgate row hmem)

end Gate

/-- Where every open gate has the earlier events of its subject in sight, the
events of a subject are sent in order. -/
theorem sends_in_order (actions : List Action) (h : Always (GateSees (run actions).tables.events) actions) :
    InOrder actions := by
  rintro before action after hsplit ⟨endpoint, event⟩ hsent earlier hmem hprecedes hsubscribed
  obtain ⟨w, id, hposting⟩ := mem_sends hsent
  obtain ⟨passing, step, rest, hbefore, hpassed⟩ := posting_passed hposting
  have hwhole : actions = passing ++ step :: (rest ++ action :: after) := by
    rw [hsplit, hbefore, List.append_assoc, List.cons_append]
  have hvisible := h passing step _ hwhole (endpoint, event) hpassed earlier hmem hprecedes hsubscribed
  obtain ⟨stored, hstored⟩ := Option.isSome_iff_exists.mp hvisible.1
  obtain ⟨final, hfinal, hfact⟩ := factsKept_run passing (step :: (rest ++ action :: after)) _ _ hstored
  rw [← hwhole] at hfinal
  obtain ⟨key, hkey⟩ := Table.mem_values.mp hmem
  have hget : (run actions).tables.events.get earlier.id = some earlier := by
    rw [Rows.key_of_get hkey]
    exact hkey
  rw [hget] at hfinal
  cases hfinal
  have hstoredPrecedes : stored.precedes event = true := (precedes_of_fact hfact).symm.trans hprecedes
  exact ⟨passing, step :: rest, hbefore, settles_of_visible (mem_letsThrough hpassed) hstored
    hstoredPrecedes hvisible⟩

def settled : OutboxEvent := ⟨2, .PRODUCAO, "pix_out.settled", "transaction", "txn_1", 2, none⟩

/-- The job of a first attempt, from its hand-out to the answer of the endpoint. -/
def attempt (eventId : Nat) : List Action :=
  .handle 0 ⟨eventId, 7, 1⟩ :: List.replicate 8 (.work 0 (.response 200 none) 1 0)

def fanOutOf (d : Nat) (eventId : Nat) : List Action := .claim d [eventId] 0 :: List.replicate 4 (.fanOut d)

def initial : List Action := [.append pendingEvent, .append settled, .configure listener]

def deliveredInTurn : List Action := initial ++ fanOutOf 0 1 ++ attempt 1 ++ fanOutOf 1 2 ++ attempt 2

theorem sends_in_order_settled :
    Always (GateSees (run deliveredInTurn).tables.events) deliveredInTurn ∧
      ((run deliveredInTurn).tables.deliveries.get ⟨2, 7, 1⟩).map (fun row => row.status) = some .SUCCEEDED ∧
      InOrder deliveredInTurn := by
  have hgates : Always (GateSees (run deliveredInTurn).tables.events) deliveredInTurn := by decide
  exact ⟨hgates, by decide, sends_in_order deliveredInTurn hgates⟩

/-- Another pod has marked the earlier event and not fanned it out yet. -/
theorem settled_overtakes_pending :
    ¬ InOrder (initial ++ [.claim 0 [1] 0] ++ fanOutOf 1 2 ++ attempt 2) := by
  intro h
  have hsent := h (initial ++ [.claim 0 [1] 0] ++ fanOutOf 1 2 ++ .handle 0 ⟨2, 7, 1⟩ ::
    List.replicate 5 (.work 0 (.response 200 none) 1 0)) (.work 0 (.response 200 none) 1 0)
    (List.replicate 2 (.work 0 (.response 200 none) 1 0)) rfl
      (listener, settled.dispatched 0) (by decide)
    (pendingEvent.dispatched 0) (by decide) (by decide) (by decide)
  obtain ⟨earlier, later, hsplit, attempt, row, hrow, -⟩ := hsent
  obtain ⟨last, hlast⟩ := HasRow.run ⟨row, hrow⟩ later
  rw [← hsplit] at hlast
  have hnone : ∀ row ∈ (run (initial ++ [.claim 0 [1] 0] ++ fanOutOf 1 2 ++ .handle 0 ⟨2, 7, 1⟩ ::
    List.replicate 5 (.work 0 (.response 200 none) 1 0))).tables.deliveries.table.values,
      row.id.eventId ≠ 1 := by
    decide
  refine hnone last (Table.mem_values.mpr ⟨_, hlast⟩) ?_
  rw [Rows.key_of_get hlast]
  rfl

end BaasConnector.Worker.DeliveryOrder
