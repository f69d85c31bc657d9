import Mathlib.Data.List.Sort
import BaasConnector.Connector.Replies
import BaasConnector.Worker.Ladder

namespace BaasConnector.Worker.LadderJobs

open BaasConnector.Lib.Keyed BaasConnector.Taxonomy.Status BaasConnector.Connector.Records
open BaasConnector.Pix.OperationReconciler BaasConnector.Worker.Ladder

/-- What the ladder reads and writes of an operation. -/
structure OperationRow where
  id : String
  status : OperationStatusValue
  attempts : Nat
  nextTryAt : Option Int
  updatedAt : Int
deriving DecidableEq, Repr

structure RowUpdate where
  status : Option OperationStatusValue := none
  nextTryAt : Option Int := none
  incrementAttempts : Bool := false

/-- Neither repository writes the time of the next try. -/
def OperationRow.update (row : OperationRow) (input : RowUpdate) (now : Int) : OperationRow :=
  { row with
    status := input.status.getD row.status
    attempts := if input.incrementAttempts then row.attempts + 1 else row.attempts
    updatedAt := now }

/-- A job of the queue, under its operation and its rung. Finished jobs are kept for a time. -/
inductive JobState
  | waiting (readyAt : Int)
  | finished
deriving DecidableEq, Repr

/-- What happens to an operation while its outcome is unknown. -/
inductive Event
  | ran (id : String) (rung : Nat) (ranAt : Int)
  | scheduled (id : String) (rung : Nat) (dueAt : Int)
  | swept (id : String) (sweptAt : Int)
deriving DecidableEq, Repr

def Event.id : Event → String
  | .ran id .. | .scheduled id .. | .swept id _ => id

/-- The two repositories of the operations. -/
inductive Repository
  | inMemory | prisma
deriving DecidableEq, Repr

/-- The status that a repository's stuck operations are led by. Postgres sorts an
enumeration by its declaration, which has SUBMITTED before UNKNOWN. -/
def Repository.leading : Repository → OperationStatusValue
  | .inMemory => .UNKNOWN
  | .prisma => .SUBMITTED

structure State where
  repository : Repository
  now : Int
  operations : Rows String OperationRow (·.id)
  queue : Table (String × Nat) JobState
  trace : List Event

def start (repository : Repository) (now : Int) : State := ⟨repository, now, .empty, .empty, []⟩

/-- A rung under an id that the queue still holds is refused. -/
def State.enqueue (s : State) (id : String) (rung : Nat) (delayMs : Int) : State :=
  match s.queue.get (id, rung) with
  | some _ => s
  | none => { s with queue := s.queue.set (id, rung) (.waiting (s.now + delayMs)) }

/-- What the lookups of one reconciler run come to. An absence that is not
counted is that of an account without an id at the provider. -/
inductive Answer
  | found (status : TransactionStatus)
  | absent (counted : Bool)
  | unsupported
  | failed (counted : Bool)
deriving DecidableEq, Repr

inductive Outcome
  | resolved
  | unresolved (reason : UnresolvedReason)
  | threw
deriving DecidableEq, Repr

def counting (row : OperationRow) (counted : Bool) (now : Int) : OperationRow :=
  if counted then row.update { incrementAttempts := true } now else row

def reconcile (row : OperationRow) (answer : Answer) (now : Int) : OperationRow × Outcome :=
  if ¬ row.status.isStuck then (row, .unresolved .not_stuck)
  else
    match answer with
    | .found status =>
      ((counting row true now).update { status := some (operationStatus status) } now, .resolved)
    | .absent counted => (counting row counted now, .unresolved .not_found_at_provider)
    | .unsupported => (counting row true now, .unresolved .no_lookup_capability)
    | .failed counted => (counting row counted now, .threw)

def State.log (s : State) (row : OperationRow) (event : Event) : State :=
  if row.status = .UNKNOWN then { s with trace := event :: s.trace } else s

def State.put (s : State) (row : OperationRow) : State := { s with operations := s.operations.put row }

def State.exhaust (s : State) (row : OperationRow) : State :=
  s.put (row.update { status := some .FAILED } s.now)

/-- One rung of the ladder, and the schedule of the next. -/
def State.step (s : State) (row : OperationRow) (rung : Nat) (answer : Answer) : State :=
  let (row, outcome) := reconcile row answer s.now
  let s := s.put row
  match outcome with
  | .resolved | .threw | .unresolved .not_stuck => s
  | .unresolved .no_lookup_capability => s.exhaust row
  | .unresolved .not_found_at_provider =>
    match unknownOutcomeLadderSeconds[rung + 1]? with
    | none => s.exhaust row
    | some delaySeconds =>
      let dueAt := s.now + (delaySeconds : Int) * 1000
      let s := s.put (row.update { nextTryAt := some dueAt } s.now)
      (s.enqueue row.id (rung + 1) ((delaySeconds : Int) * 1000)).log row (.scheduled row.id (rung + 1) dueAt)

/-- The operations of the leading status come first, and of one status the ones that
have waited longest. -/
def before (repository : Repository) (a b : OperationRow) : Prop :=
  (a.status = repository.leading ∧ b.status ≠ repository.leading) ∨
    ((a.status = repository.leading ↔ b.status = repository.leading) ∧ a.updatedAt ≤ b.updatedAt)

instance (repository : Repository) (a b : OperationRow) : Decidable (before repository a b) :=
  inferInstanceAs (Decidable (_ ∨ _))

def findStuck (repository : Repository) (limit : Nat) (rows : List OperationRow) : List OperationRow :=
  ((rows.filter (·.status.isStuck)).insertionSort (before repository)).take limit

/-- The operations that a sweep enqueues: their next try is due, or not set. -/
def State.due (s : State) : List OperationRow :=
  (findStuck s.repository stuckBatch s.operations.table.values).filter fun row => row.nextTryAt.all (· ≤ s.now)

def sweepRung (row : OperationRow) : Nat := min row.attempts (unknownOutcomeLadderSeconds.length - 1)

def State.enqueueStuck : List OperationRow → State → State
  | [], s => s
  | row :: rows, s =>
    State.enqueueStuck rows ((s.enqueue row.id (sweepRung row) 0).log row (.swept row.id s.now))

inductive Action
  | tick (ms : Nat)
  | accept (id : String) (attempts : Nat) (queued : Bool)
  | run (id : String) (rung : Nat) (answer : Answer)
  | sweep
  | forget (id : String) (rung : Nat)
deriving DecidableEq, Repr

/-- The queue hands out a rung that is ready, once. -/
def State.run (s : State) (id : String) (rung : Nat) (answer : Answer) : Option State :=
  match s.queue.get (id, rung) with
  | some (.waiting readyAt) =>
    if readyAt ≤ s.now then
      let s := { s with queue := s.queue.set (id, rung) .finished }
      match s.operations.get id with
      | none => some s
      | some row => some ((s.log row (.ran id rung s.now)).step row rung answer)
    else none
  | _ => none

def State.next (s : State) : Action → Option State
  | .tick ms => some { s with now := s.now + ms }
  | .accept id attempts queued =>
    match s.operations.get id with
    | some _ => none
    | none =>
      let s := s.put ⟨id, .UNKNOWN, attempts, none, s.now⟩
      some (if queued then s.enqueue id 0 0 else s)
  | .run id rung answer => s.run id rung answer
  | .sweep => some (State.enqueueStuck s.due s)
  | .forget id rung =>
    match s.queue.get (id, rung) with
    | some .finished => some { s with queue := s.queue.delete (id, rung) }
    | _ => none

def performAll : State → List Action → Option State
  | s, [] => some s
  | s, action :: actions => (s.next action).bind fun s => performAll s actions

/-- What has happened to one operation, the last first. -/
def eventsOf (id : String) (trace : List Event) : List Event := trace.filter fun event => event.id = id

def delayMs (rung : Nat) : Int := ((unknownOutcomeLadderSeconds[rung]?).getD 0 : Nat) * 1000

section Views

/-- What the ladder holds of one operation. -/
@[ext] structure View where
  row : Option OperationRow
  jobs : Nat → Option JobState
  events : List Event

def State.view (s : State) (id : String) : View :=
  ⟨s.operations.get id, fun rung => s.queue.get (id, rung), eventsOf id s.trace⟩

variable {s s' : State} {id other : String} {row : OperationRow} {rung : Nat}

@[simp] theorem enqueue_now (ms : Int) : (s.enqueue id rung ms).now = s.now := by
  unfold State.enqueue
  split <;> rfl

@[simp] theorem enqueue_operations (ms : Int) : (s.enqueue id rung ms).operations = s.operations := by
  unfold State.enqueue
  split <;> rfl

@[simp] theorem enqueue_trace (ms : Int) : (s.enqueue id rung ms).trace = s.trace := by
  unfold State.enqueue
  split <;> rfl

theorem enqueue_get (ms : Int) (key : String × Nat) :
    (s.enqueue id rung ms).queue.get key =
      if key = (id, rung) then some ((s.queue.get key).getD (.waiting (s.now + ms)))
      else s.queue.get key := by
  unfold State.enqueue
  cases h : s.queue.get (id, rung) with
  | some state =>
    by_cases hkey : key = (id, rung)
    · rw [if_pos hkey, hkey, h, Option.getD_some]
    · rw [if_neg hkey]
  | none =>
    change (s.queue.set (id, rung) (.waiting (s.now + ms))).get key = _
    rw [Table.get_set]
    by_cases hkey : key = (id, rung)
    · rw [if_pos hkey, if_pos hkey, hkey, h, Option.getD_none]
    · rw [if_neg hkey, if_neg hkey]

@[simp] theorem log_now (event : Event) : (s.log row event).now = s.now := by
  unfold State.log
  split <;> rfl

@[simp] theorem log_operations (event : Event) : (s.log row event).operations = s.operations := by
  unfold State.log
  split <;> rfl

@[simp] theorem log_queue (event : Event) : (s.log row event).queue = s.queue := by
  unfold State.log
  split <;> rfl

theorem log_events (event : Event) : eventsOf id (s.log row event).trace =
    if row.status = .UNKNOWN ∧ event.id = id then event :: eventsOf id s.trace else eventsOf id s.trace := by
  unfold State.log eventsOf
  by_cases hstatus : row.status = .UNKNOWN
  · by_cases hid : event.id = id
    · rw [if_pos hstatus, if_pos ⟨hstatus, hid⟩, List.filter_cons_of_pos (by simpa using hid)]
    · rw [if_pos hstatus, if_neg (fun h => hid h.2), List.filter_cons_of_neg (by simpa using hid)]
  · rw [if_neg hstatus, if_neg fun h => hstatus h.1]

@[simp] theorem counting_id (counted : Bool) (now : Int) : (counting row counted now).id = row.id := by
  cases counted <;> rfl

@[simp] theorem counting_status (counted : Bool) (now : Int) :
    (counting row counted now).status = row.status := by
  cases counted <;> rfl

theorem reconcile_id (answer : Answer) (now : Int) : (reconcile row answer now).1.id = row.id := by
  unfold reconcile
  by_cases hstuck : row.status.isStuck = true
  · simp only [hstuck, not_true_eq_false, if_false]
    cases answer <;> simp [OperationRow.update]
  · simp [hstuck]

theorem view_put_ne (h : other ≠ row.id) : (s.put row).view other = s.view other := by
  simp [State.view, State.put, Rows.get_put_ne s.operations row h]

theorem view_put_self (h : row.id = id) : (s.put row).view id = { s.view id with row := some row } := by
  subst h
  simp [State.view, State.put, Rows.get_put_self s.operations row]

theorem view_enqueue_ne (h : other ≠ id) (ms : Int) : (s.enqueue id rung ms).view other = s.view other := by
  have hkey : ∀ k, (other, k) ≠ (id, rung) := fun k he => h (Prod.mk.inj he).1
  simp [State.view, enqueue_get, hkey]

theorem view_log_ne (event : Event) (h : other ≠ event.id) : (s.log row event).view other = s.view other := by
  simp [State.view, log_events, Ne.symm h]

/-- A rung touches no other operation. -/
theorem step_view_ne (answer : Answer) (h : other ≠ row.id) :
    (s.step row rung answer).view other = s.view other := by
  have hid : (reconcile row answer s.now).1.id = row.id := reconcile_id answer s.now
  unfold State.step
  generalize reconcile row answer s.now = result at hid ⊢
  obtain ⟨row', outcome⟩ := result
  have hne : other ≠ row'.id := by
    rw [hid]
    exact h
  have hput : (s.put row').view other = s.view other := view_put_ne hne
  have hstore : ∀ row'' : OperationRow, row''.id = row'.id →
    ((s.put row').put row'').view other = s.view other := by
    intro row'' he
    exact (view_put_ne (he ▸ hne)).trans hput
  cases outcome with
  | resolved => exact hput
  | threw => exact hput
  | unresolved reason =>
    cases reason with
    | not_stuck => exact hput
    | no_lookup_capability => exact hstore _ rfl
    | not_found_at_provider =>
      dsimp only
      cases unknownOutcomeLadderSeconds[rung + 1]? with
      | none => exact hstore _ rfl
      | some delaySeconds =>
        dsimp only
        rw [view_log_ne _ hne, view_enqueue_ne hne]
        exact hstore _ rfl

/-- What a rung leaves of its own operation while the outcome is unknown: the
operation is done with, or the next rung is scheduled. -/
theorem step_view_self (answer : Answer) (hunknown : row.status = .UNKNOWN)
    (hanswer : ∀ counted, answer ≠ .failed counted) :
    (∃ row', row'.status ≠ .UNKNOWN ∧ (s.step row rung answer).view row.id =
      { s.view row.id with row := some row' }) ∨
    ∃ row', row'.status = .UNKNOWN ∧ rung + 1 < unknownOutcomeLadderSeconds.length ∧
      (s.step row rung answer).view row.id =
        ⟨some row', fun k => (s.enqueue row.id (rung + 1) (delayMs (rung + 1))).queue.get (row.id, k),
          .scheduled row.id (rung + 1) (s.now + delayMs (rung + 1)) :: eventsOf row.id s.trace⟩ := by
  have hstuck : row.status.isStuck = true := by rw [hunknown]; rfl
  have hexhaust : ∀ row' : OperationRow, row'.id = row.id →
      ((s.put row').exhaust row').view row.id =
        { s.view row.id with row := some (row'.update { status := some .FAILED } s.now) } := by
    intro row' hid
    rw [State.exhaust, view_put_self (show (row'.update _ _).id = row.id from hid), view_put_self hid]
    rfl
  unfold State.step reconcile
  simp only [hstuck, not_true_eq_false, if_false]
  cases answer with
  | failed counted => exact absurd rfl (hanswer counted)
  | found status =>
    refine .inl ⟨_, ?_, view_put_self (counting_id true s.now)⟩
    cases status <;> simp [OperationRow.update, operationStatus, isSettled, isFailed]
  | unsupported => exact .inl ⟨_, by simp [OperationRow.update], hexhaust _ (counting_id true s.now)⟩
  | absent counted =>
    have hid : (counting row counted s.now).id = row.id := counting_id counted s.now
    have hsame : (counting row counted s.now).status = .UNKNOWN :=
      (counting_status counted s.now).trans hunknown
    dsimp only
    cases hdelay : unknownOutcomeLadderSeconds[rung + 1]? with
    | none => exact .inl ⟨_, by simp [OperationRow.update], hexhaust _ hid⟩
    | some delaySeconds =>
      obtain ⟨hlt, -⟩ := List.getElem?_eq_some_iff.mp hdelay
      have hms : (delaySeconds : Int) * 1000 = delayMs (rung + 1) := by
        rw [delayMs, hdelay, Option.getD_some]
      refine .inr ⟨(counting row counted s.now).update
        { nextTryAt := some (s.now + delayMs (rung + 1)) } s.now,
        hsame, hlt, ?_⟩
      simp only [State.view, hms, log_operations, log_queue, log_events, enqueue_operations, enqueue_trace,
        enqueue_get, hsame, hid]
      simp only [State.put, Event.id, and_self, if_true, View.mk.injEq, and_true]
      exact (Rows.get_put _ _ _).trans (if_pos hid.symm)

theorem step_status (answer : Answer) (hknown : row.status ≠ .UNKNOWN) :
    (∃ row', row'.status ≠ .UNKNOWN ∧ ((s.step row rung answer).view row.id).row = some row') ∧
      ((s.step row rung answer).view row.id).events = eventsOf row.id s.trace := by
  unfold State.step
  have hreconciled : (reconcile row answer s.now).1.status ≠ .UNKNOWN := by
    unfold reconcile
    by_cases hstuck : row.status.isStuck = true
    · simp only [hstuck, not_true_eq_false, if_false]
      cases answer with
      | found status => cases status <;> simp [OperationRow.update, operationStatus, isSettled, isFailed]
      | absent counted => simpa using hknown
      | unsupported => simpa using hknown
      | failed counted => simpa using hknown
    · simpa [hstuck] using hknown
  have hid : (reconcile row answer s.now).1.id = row.id := reconcile_id answer s.now
  generalize reconcile row answer s.now = result at hreconciled hid ⊢
  obtain ⟨row', outcome⟩ := result
  dsimp only at hreconciled hid
  have hput : (s.put row').view row.id = { s.view row.id with row := some row' } := view_put_self hid
  have hstore : ∀ row'' : OperationRow, row''.id = row.id →
      ((s.put row').put row'').view row.id = { s.view row.id with row := some row'' } := by
    intro row'' he
    rw [view_put_self he, hput]
  have hfailed : (row'.update { status := some .FAILED } s.now).status ≠ .UNKNOWN := by
    simp [OperationRow.update]
  cases outcome with
  | resolved => exact ⟨⟨row', hreconciled, by rw [hput]⟩, by rw [hput]; rfl⟩
  | threw => exact ⟨⟨row', hreconciled, by rw [hput]⟩, by rw [hput]; rfl⟩
  | unresolved reason =>
    cases reason with
    | not_stuck => exact ⟨⟨row', hreconciled, by rw [hput]⟩, by rw [hput]; rfl⟩
    | no_lookup_capability =>
      have hview := hstore (row'.update { status := some .FAILED } s.now) hid
      exact ⟨⟨_, hfailed, congrArg View.row hview⟩, congrArg View.events hview⟩
    | not_found_at_provider =>
      dsimp only
      cases unknownOutcomeLadderSeconds[rung + 1]? with
      | none =>
        have hview := hstore (row'.update { status := some .FAILED } s.now) hid
        exact ⟨⟨_, hfailed, congrArg View.row hview⟩, congrArg View.events hview⟩
      | some delaySeconds =>
        have hview := hstore (row'.update { nextTryAt := some (s.now + (delaySeconds : Int) * 1000) }
          s.now) hid
        refine ⟨⟨row'.update { nextTryAt := some (s.now + (delaySeconds : Int) * 1000) } s.now,
          hreconciled, ?_⟩, ?_⟩
        · change ((State.log _ row' _).operations.get row.id) = _
          rw [log_operations, enqueue_operations]
          exact congrArg View.row hview
        · change eventsOf row.id (State.log _ row' _).trace = _
          rw [log_events, if_neg (fun h => hreconciled h.1), enqueue_trace]
          rfl

theorem enqueueStuck_view (rows : List OperationRow) :
    ((State.enqueueStuck rows s).view id).row = s.operations.get id ∧
      (∀ k, ((State.enqueueStuck rows s).view id).jobs k = (s.queue.get (id, k)).orElse fun _ =>
        if ∃ row ∈ rows, row.id = id ∧ sweepRung row = k then some (.waiting s.now) else none) ∧
      ∃ events, (∀ event ∈ events, event = .swept id s.now) ∧
        ((∀ row ∈ rows, row.id = id → row.status ≠ .UNKNOWN) → events = []) ∧
        ((State.enqueueStuck rows s).view id).events = events ++ eventsOf id s.trace := by
  induction rows generalizing s with
  | nil =>
    refine ⟨rfl, fun k => ?_, [], by simp, fun _ => rfl, rfl⟩
    simp [State.enqueueStuck, State.view]
  | cons row rows ih =>
    obtain ⟨hrow, hjobs, events, hevents, hnone, htrace⟩ :=
      @ih ((s.enqueue row.id (sweepRung row) 0).log row (.swept row.id s.now))
    simp only [State.enqueueStuck]
    simp only [log_operations, enqueue_operations, log_queue, enqueue_get, log_now, enqueue_now, Int.add_zero]
      at hrow hjobs hevents
    refine ⟨hrow, fun k => ?_, ?_⟩
    · rw [hjobs k]
      cases hget : s.queue.get (id, k) with
      | some state => split <;> rfl
      | none =>
        by_cases hkey : (id, k) = (row.id, sweepRung row)
        · obtain ⟨hid, hk⟩ := Prod.mk.inj hkey
          have hhead : ∃ r ∈ row :: rows, r.id = id ∧ sweepRung r = k :=
            ⟨row, List.mem_cons_self, hid.symm, hk.symm⟩
          rw [if_pos hkey]
          simp only [Option.getD_none, Option.orElse_none, if_pos hhead]
          rfl
        · have hrest : (∃ r ∈ row :: rows, r.id = id ∧ sweepRung r = k) ↔
              ∃ r ∈ rows, r.id = id ∧ sweepRung r = k := by
            rw [List.exists_mem_cons_iff]
            refine or_iff_right fun h => hkey ?_
            rw [← h.1, ← h.2]
          rw [if_neg hkey]
          simp only [Option.orElse_none, hrest]
    · rw [log_events] at htrace
      simp only [Event.id, enqueue_trace] at htrace
      by_cases hself : row.status = .UNKNOWN ∧ row.id = id
      · refine ⟨events ++ [.swept id s.now], ?_, fun hall => ?_, ?_⟩
        · intro event hevent
          obtain hmem | hlast := List.mem_append.mp hevent
          · exact hevents event hmem
          · exact List.mem_singleton.mp hlast
        · exact absurd hself.1 (hall row List.mem_cons_self hself.2)
        · rw [htrace, if_pos hself, hself.2, List.append_assoc]
          rfl
      · refine ⟨events, hevents, fun hall => ?_, ?_⟩
        · exact hnone fun r hr => hall r (List.mem_cons_of_mem _ hr)
        · rw [htrace, if_neg hself]

end Views

section Code

open BaasConnector.Lib.Effects BaasConnector.Taxonomy.Errors
open BaasConnector.Connector.Calls hiding Answer
open BaasConnector.Connector BaasConnector.Connector.Database BaasConnector.Connector.Replies

/-- A rung that the code puts into the queue. -/
structure EnqueuedRung where
  operationId : String
  rung : Nat
  delayMs : Int
deriving DecidableEq

def rungs : (q : Call) → Except Thrown (Calls.Answer q) → List EnqueuedRung
  | .emit (.enqueueResolve operationId rung delayMs), .ok _ => [⟨operationId, rung, (delayMs.getD 0 : Nat)⟩]
  | _, _ => []

/-- The code of the ladder over the stored rows, with what it puts into the queue. -/
abbrev recorded : Prog.Env Call Calls.Answer Thrown (World × List EnqueuedRung) := Prog.taped env rungs

def State.enqueueAll (s : State) (jobs : List EnqueuedRung) : State :=
  jobs.foldl (fun s job => s.enqueue job.operationId job.rung job.delayMs) s

/-- The row is what the ladder reads of the stored operation. -/
structure Stands (operation : OperationRecord) (row : OperationRow) : Prop where
  id : operation.id = row.id
  status : operation.status = row.status
  attempts : operation.attempts = row.attempts

/-- Nothing of the ladder follows this outcome. -/
def Outcome.ends : Outcome → Bool
  | .resolved | .threw | .unresolved .not_stuck => true
  | .unresolved _ => false

/-- The outcome that a run of the code is, an outcome with nothing to follow where it threw. -/
def Tells : Except Thrown ReconcileOutcome → Outcome → Prop
  | .ok (.resolved ..), outcome => outcome = .resolved
  | .ok (.unresolved reason), outcome => outcome = .unresolved reason
  | .error _, outcome => outcome.ends = true

def Call.writesOperation : Call → Bool
  | .operationCreate _ | .operationUpdate _ => true
  | _ => false

def Call.aside (q : Call) : Prop := Prog.Silent rungs q ∧ Call.writesOperation q = false

variable {w w' : World} {s : State} {row : OperationRow} {operation : OperationRecord} {α β : Type}

theorem env_unwritten {q : Call} {r : Except Thrown (Calls.Answer q)} (hq : Call.writesOperation q = false)
    (h : env w q r w') (id : String) : w'.operations.get id = w.operations.get id := by
  obtain hsame | ⟨o, rfl, -⟩ | ⟨u, o, rfl, -⟩ := env_operations h id
  · exact hsame
  · cases hq
  · cases hq

/-- A part of the run that neither the stored operations nor the queue can tell. -/
theorem wp_aside {p : Flow α} {post : Except Thrown α → World × List EnqueuedRung → Prop}
    (hp : p.Within Call.aside)
    (h : ∀ r w', (∀ id, w'.operations.get id = w.operations.get id) → post r (w', [])) :
    p.wp recorded post (w, []) := by
  have hkeeps : p.wp env (fun _ w' => True ∧ ∀ id, w'.operations.get id = w.operations.get id) w :=
    Prog.wp_of_meets (R := fun w w' : World => ∀ id, w'.operations.get id = w.operations.get id)
      (fun _ _ => rfl) (fun {w v u : World} h h' id => Eq.trans (h' id) (h id))
      (fun hq he => ⟨trivial, env_unwritten hq.2 he⟩) hp w
  exact Prog.wp_taped_silent (Prog.meets_mono (fun _ _ h => h) (fun _ h => h.1) (fun _ h => h) hp)
    (Prog.wp_mono _ hkeeps fun r w' hr => h r w' hr.2)

theorem wp_aside_bind {p : Flow α} {f : α → Flow β}
    {post : Except Thrown β → World × List EnqueuedRung → Prop} (hp : p.Within Call.aside)
    (hok : ∀ a w', (∀ id, w'.operations.get id = w.operations.get id) → (f a).wp recorded post (w', []))
    (herror : ∀ e w', (∀ id, w'.operations.get id = w.operations.get id) → post (.error e) (w', [])) :
    (p.bind f).wp recorded post (w, []) := by
  refine (Prog.wp_bind _ _ _ _ _).mpr (wp_aside hp fun r w' hsame => ?_)
  cases r with
  | ok a => exact hok a w' hsame
  | error e => exact herror e w' hsame

theorem env_update {u : OperationUpdate} {r : Except Thrown (Option OperationRecord)}
    (hstored : w.operations.get u.id = some operation) (h : env w (.operationUpdate u) r w') :
    ((∃ e, r = .error e) ∧ w' = w) ∨
      r = .ok (some (operation.update u)) ∧ w'.operations.get u.id = some (operation.update u) := by
  obtain ⟨-, ⟨message, hr⟩, hw⟩ | ⟨c, -, hc⟩ := env_iff.mp h
  · exact .inl ⟨⟨_, hr⟩, hw⟩
  · simp only [respond, World.updateOperation, hstored, reply, Option.some.injEq, Prod.mk.injEq] at hc
    obtain ⟨rfl, rfl⟩ := hc
    refine .inr ⟨rfl, ?_⟩
    have hid : operation.id = u.id := Rows.key_of_get hstored
    exact (Rows.get_put _ _ _).trans (if_pos hid.symm)

/-- One run of the reconciler over the stored operation is one of the row under
some answer, and enqueues nothing. -/
structure Reconciled (id : String) (row : OperationRow) (now : Int) (r : Except Thrown ReconcileOutcome)
    (answer : Answer) (after : World × List EnqueuedRung) : Prop where
  silent : after.2 = []
  stands : ∃ operation, after.1.operations.get id = some operation ∧ Stands operation (reconcile row answer now).1
  tells : Tells r (reconcile row answer now).2

variable {now : Int} {e : Thrown}

theorem reconciled_failed (hstored : w.operations.get operation.id = some operation)
    (hrow : Stands operation row) :
    Reconciled operation.id row now (.error e) (.failed false) (w, []) := by
  by_cases hstuck : row.status.isStuck = true
  · have hstep : reconcile row (.failed false) now = (row, .threw) := by simp [reconcile, hstuck, counting]
    exact ⟨rfl, ⟨operation, hstored, by rwa [hstep]⟩, by rw [hstep]; rfl⟩
  · have hstep : reconcile row (.failed false) now = (row, .unresolved .not_stuck) := by
      simp [reconcile, hstuck]
    exact ⟨rfl, ⟨operation, hstored, by rwa [hstep]⟩, by rw [hstep]; rfl⟩

theorem aside_ask {q : Call} (hq : Call.aside q) : (ask q).Within Call.aside :=
  Prog.meets_perform.mpr ⟨hq, fun _ _ => trivial⟩

theorem resolveHold_aside (operation : OperationRecord) (transaction : TransactionRecord)
    (status : TransactionStatus) : (resolveHold operation transaction status).Within Call.aside := by
  unfold resolveHold
  cases transaction.ledgerPendingTransactionId with
  | none => trivial
  | some hold =>
    dsimp only
    split
    · exact Prog.meets_perform_bind.mpr ⟨⟨fun _ => rfl, rfl⟩, fun _ _ => trivial, fun _ _ => trivial⟩
    · split
      · exact Prog.meets_perform_bind.mpr ⟨⟨fun _ => rfl, rfl⟩, fun _ _ => trivial, fun _ _ => trivial⟩
      · trivial

section Counted

variable {counted : OperationRecord} {transaction : TransactionRecord} {found : PixTransaction}
  (hstuck : row.status.isStuck = true) (hrow : Stands counted (counting row true now))

include hstuck hrow

theorem reconciled_threw (hstored : w.operations.get operation.id = some counted) :
    Reconciled operation.id row now (.error e) (.failed true) (w, []) := by
  have hstep : reconcile row (.failed true) now = (counting row true now, .threw) := by
    simp [reconcile, hstuck]
  exact ⟨rfl, ⟨counted, hstored, by rwa [hstep]⟩, by rw [hstep]; rfl⟩

theorem wp_recordOutcome {ledgerPostedTransactionId : Option String} {at_ : Int}
    (hstored : w.operations.get operation.id = some counted) :
    (recordOutcome operation transaction found at_ ledgerPostedTransactionId).wp recorded (fun r after =>
      ∃ answer, Reconciled operation.id row now r answer after) (w, []) := by
  have hstep : reconcile row (.found found.status) now =
      ((counting row true now).update { status := some (operationStatus found.status) } now, .resolved) := by
    simp [reconcile, hstuck]
  unfold recordOutcome
  refine wp_aside_bind (aside_ask ⟨fun _ => rfl, rfl⟩) (fun change w₁ h₁ => ?_)
    fun e w₁ h₁ => ⟨_, reconciled_threw hstuck hrow ((h₁ _).trans hstored)⟩
  refine Prog.wp_taped_perform fun r w₂ he => ?_
  obtain ⟨⟨e, rfl⟩, rfl⟩ | ⟨rfl, hwritten⟩ := env_update ((h₁ _).trans hstored) he
  · exact ⟨_, reconciled_threw hstuck hrow ((h₁ _).trans hstored)⟩
  · have hdone : ∀ (r : Except Thrown ReconcileOutcome) (w' : World),
        (∀ id, w'.operations.get id = w₂.operations.get id) → Tells r .resolved →
        ∃ answer, Reconciled operation.id row now r answer (w', []) := by
      intro r w' hsame htells
      refine ⟨.found found.status, rfl, ⟨_, (hsame _).trans hwritten, ?_⟩, by rwa [hstep]⟩
      rw [hstep]
      exact ⟨hrow.id, rfl, hrow.attempts⟩
    refine wp_aside_bind (aside_ask ⟨fun _ => rfl, rfl⟩) (fun _ w₃ h₃ => ?_) fun e w₃ h₃ => hdone _ _ h₃ rfl
    cases change with
    | applied record => exact hdone _ _ h₃ rfl
    | rejected reason current => exact hdone _ _ h₃ rfl

/-- What the provider said is written down of an operation whose query is counted. -/
theorem wp_applyOutcome (hstored : w.operations.get operation.id = some counted) :
    (applyOutcome operation transaction found).wp recorded (fun r after =>
      ∃ answer, Reconciled operation.id row now r answer after) (w, []) := by
  unfold applyOutcome
  refine wp_aside_bind (aside_ask ⟨fun _ => rfl, rfl⟩) (fun at_ w₁ h₁ => ?_)
    fun e w₁ h₁ => ⟨_, reconciled_threw hstuck hrow ((h₁ _).trans hstored)⟩
  refine wp_aside_bind (resolveHold_aside _ _ _) (fun _ w₂ h₂ => ?_)
    fun e w₂ h₂ => ⟨_, reconciled_threw hstuck hrow ((h₂ _).trans ((h₁ _).trans hstored))⟩
  exact wp_recordOutcome hstuck hrow ((h₂ _).trans ((h₁ _).trans hstored))

end Counted

theorem env_findById {r : Except Thrown (Option OperationRecord)}
    (hstored : w.operations.get operation.id = some operation)
    (h : env w (.operationFindById operation.id) r w') :
    ((∃ e, r = .error e) ∨ r = .ok (some operation)) ∧ w' = w := by
  obtain ⟨-, ⟨message, hr⟩, hw⟩ | ⟨c, -, hc⟩ := env_iff.mp h
  · exact ⟨.inl ⟨_, hr⟩, hw⟩
  · simp only [respond, hstored, reply, Option.some.injEq, Prod.mk.injEq] at hc
    exact ⟨.inr hc.1.symm, hc.2.symm⟩

theorem wp_resolve (now : Int) (hstored : w.operations.get operation.id = some operation)
    (hrow : Stands operation row) :
    (resolve operation.id).wp recorded (fun r after =>
      ∃ answer, Reconciled operation.id row now r answer after) (w, []) := by
  have hthrew : ∀ (e : Thrown) (w' : World), w'.operations.get operation.id = some operation →
      ∃ answer, Reconciled operation.id row now (.error e) answer (w', []) :=
    fun e w' hget => ⟨_, reconciled_failed hget hrow⟩
  unfold resolve
  refine Prog.wp_taped_perform fun r w₁ he => ?_
  obtain ⟨⟨e, rfl⟩ | rfl, rfl⟩ := env_findById hstored he
  · exact hthrew _ _ hstored
  dsimp only [Prog.onOk_ok]
  by_cases hstuck : operation.status.isStuck = true
  · rw [if_neg (not_not.mpr hstuck)]
    rw [hrow.status] at hstuck
    refine wp_aside_bind (aside_ask ⟨fun _ => rfl, rfl⟩) (fun transaction w₁ h₁ => ?_)
      fun e w₁ h₁ => hthrew _ _ ((h₁ _).trans hstored)
    cases transaction with
    | none => exact hthrew _ _ ((h₁ _).trans hstored)
    | some transaction =>
      refine wp_aside_bind (aside_ask ⟨fun _ => rfl, rfl⟩) (fun account w₂ h₂ => ?_)
        fun e w₂ h₂ => hthrew _ _ ((h₂ _).trans ((h₁ _).trans hstored))
      cases account.bind (·.providerAccountId) with
      | none =>
        have hstep : reconcile row (.absent false) now = (row, .unresolved .not_found_at_provider) := by
          simp [reconcile, hstuck, counting]
        exact ⟨.absent false, rfl, ⟨operation, (h₂ _).trans ((h₁ _).trans hstored), by rwa [hstep]⟩,
          by rw [hstep]; rfl⟩
      | some providerAccountId =>
        refine wp_aside_bind (aside_ask ⟨fun _ => rfl, rfl⟩) (fun bound w₃ h₃ => ?_)
          fun e w₃ h₃ => hthrew _ _ ((h₃ _).trans ((h₂ _).trans ((h₁ _).trans hstored)))
        refine Prog.wp_taped_perform fun r w₄ he => ?_
        have hget₃ := (h₃ operation.id).trans ((h₂ _).trans ((h₁ _).trans hstored))
        obtain ⟨⟨e, rfl⟩, rfl⟩ | ⟨rfl, hwritten⟩ := env_update hget₃ he
        · exact hthrew _ _ hget₃
        have hcounted : Stands (operation.update ⟨operation.id, none, none, none, true⟩)
            (counting row true now) :=
          ⟨hrow.id, hrow.status, congrArg (· + 1) hrow.attempts⟩
        refine wp_aside_bind (lookup_within (fun _ _ => ⟨fun _ => rfl, rfl⟩) (fun _ _ => ⟨fun _ => rfl, rfl⟩)
          (fun _ => ⟨fun _ => rfl, rfl⟩) _ _ _ _) (fun found w₅ h₅ => ?_)
          fun e w₅ h₅ => ⟨_, reconciled_threw hstuck hcounted ((h₅ _).trans hwritten)⟩
        cases found with
        | some found => exact wp_applyOutcome hstuck hcounted ((h₅ _).trans hwritten)
        | none =>
          dsimp only
          split
          · have hstep : reconcile row .unsupported now =
                (counting row true now, .unresolved .no_lookup_capability) := by
              simp [reconcile, hstuck]
            exact ⟨.unsupported, rfl, ⟨_, (h₅ _).trans hwritten, by rwa [hstep]⟩, by rw [hstep]; rfl⟩
          · have hstep : reconcile row (.absent true) now =
                (counting row true now, .unresolved .not_found_at_provider) := by
              simp [reconcile, hstuck]
            exact ⟨.absent true, rfl, ⟨_, (h₅ _).trans hwritten, by rwa [hstep]⟩, by rw [hstep]; rfl⟩
  · rw [if_pos hstuck]
    rw [hrow.status] at hstuck
    have hstep : reconcile row .unsupported now = (row, .unresolved .not_stuck) := by
      simp [reconcile, hstuck]
    exact ⟨.unsupported, rfl, ⟨operation, hstored, by rwa [hstep]⟩, by rw [hstep]; rfl⟩

/-- What a step of the ladder leaves of the stored operation, and what it enqueues,
is what the step of the row comes to under some answer. -/
structure Stepped (s : State) (row : OperationRow) (rung : Nat) (answer : Answer)
    (after : World × List EnqueuedRung) : Prop where
  stands : ∃ operation row', after.1.operations.get row.id = some operation ∧
    (s.step row rung answer).operations.get row.id = some row' ∧ Stands operation row'
  queued : (s.step row rung answer).queue = (s.enqueueAll after.2).queue

variable {answer : Answer} {reason : UnresolvedReason} {rung : Nat}

/-- Enqueuing looks at the queue and the clock alone. -/
theorem enqueue_congr {s' : State} (hqueue : s.queue = s'.queue) (hnow : s.now = s'.now) (id : String)
    (ms : Int) : (s.enqueue id rung ms).queue = (s'.enqueue id rung ms).queue := by
  unfold State.enqueue
  rw [hqueue, hnow]
  cases s'.queue.get (id, rung) with
  | none => rfl
  | some state => exact hqueue

theorem enqueueAll_congr {s' : State} (hqueue : s.queue = s'.queue) (hnow : s.now = s'.now)
    (jobs : List EnqueuedRung) : (s.enqueueAll jobs).queue = (s'.enqueueAll jobs).queue := by
  induction jobs generalizing s s' with
  | nil => exact hqueue
  | cons job jobs ih =>
    refine ih (enqueue_congr hqueue hnow _ _) ?_
    rw [enqueue_now, enqueue_now, hnow]

theorem step_of_ends (h : (reconcile row answer s.now).2.ends = true) :
    s.step row rung answer = s.put (reconcile row answer s.now).1 := by
  unfold State.step
  generalize reconcile row answer s.now = result at h ⊢
  obtain ⟨row', outcome⟩ := result
  cases outcome with
  | resolved | threw => rfl
  | unresolved reason =>
    cases reason with
    | not_stuck => rfl
    | no_lookup_capability | not_found_at_provider => cases h

theorem stepped_of_ends (hid : operation.id = row.id)
    (hstored : w.operations.get operation.id = some operation)
    (hstands : Stands operation (reconcile row answer s.now).1)
    (h : (reconcile row answer s.now).2.ends = true) : Stepped s row rung answer (w, []) := by
  refine ⟨⟨operation, (reconcile row answer s.now).1, hid ▸ hstored, ?_, hstands⟩, ?_⟩
  · rw [step_of_ends h, ← reconcile_id answer s.now]
    exact Rows.get_put_self _ _
  · rw [step_of_ends h]
    rfl

/-- A step that throws once the provider has been asked leaves the row where a
failed query does. -/
theorem exists_threw (h : (reconcile row answer now).2 = .unresolved reason) (hends : reason ≠ .not_stuck) :
    ∃ answer', reconcile row answer' now = ((reconcile row answer now).1, .threw) := by
  unfold reconcile at h ⊢
  by_cases hstuck : row.status.isStuck = true
  · simp only [hstuck, not_true_eq_false, if_false] at h ⊢
    cases answer with
    | found status => cases h
    | absent counted => exact ⟨.failed counted, rfl⟩
    | unsupported => exact ⟨.failed true, rfl⟩
    | failed counted => cases h
  · simp only [hstuck] at h
    exact absurd (Outcome.unresolved.inj h).symm hends

theorem openBreak_aside (operation : OperationRecord) : (openBreak operation).Within Call.aside := by
  unfold openBreak
  refine Prog.meets_perform_bind.mpr ⟨⟨fun _ => rfl, rfl⟩, fun now _ => ?_, fun _ _ => trivial⟩
  cases operation.accountId with
  | none => trivial
  | some accountId =>
    refine Prog.meets_perform_bind.mpr ⟨⟨fun _ => rfl, rfl⟩, fun _ _ => ?_, fun _ _ => trivial⟩
    refine Prog.meets_perform_bind.mpr ⟨⟨fun _ => rfl, rfl⟩, fun _ _ => ?_, fun _ _ => trivial⟩
    refine Prog.meets_perform_bind.mpr ⟨⟨fun _ => rfl, rfl⟩, fun _ _ => ?_, fun _ _ => trivial⟩
    refine Prog.meets_perform_bind.mpr ⟨⟨fun _ => rfl, rfl⟩, fun _ _ => ?_, fun _ _ => trivial⟩
    exact Prog.meets_perform_bind.mpr ⟨⟨fun _ => rfl, rfl⟩, fun _ _ => trivial, fun _ _ => trivial⟩

section Follow

variable {row' : OperationRow} (hid : operation.id = row.id)
  (hstored : w.operations.get operation.id = some operation) (hstands : Stands operation row')
  (hrow : reconcile row answer s.now = (row', .unresolved reason)) (hends : reason ≠ .not_stuck)

include hid hstored hstands hrow hends

theorem exists_stepped_threw : ∃ answer, Stepped s row rung answer (w, []) := by
  obtain ⟨answer', hanswer⟩ := exists_threw (congrArg Prod.snd hrow) hends
  rw [hrow] at hanswer
  exact ⟨answer', stepped_of_ends hid hstored (by rwa [hanswer]) (by rw [hanswer]; rfl)⟩

theorem wp_exhaust (hstep : s.step row rung answer = (s.put row').exhaust row') :
    (exhaust operation.id).wp recorded (fun _ after => ∃ answer, Stepped s row rung answer after) (w, []) := by
  unfold exhaust
  refine Prog.wp_taped_perform fun r w₁ he => ?_
  obtain ⟨⟨e, rfl⟩ | rfl, rfl⟩ := env_findById hstored he
  · exact exists_stepped_threw hid hstored hstands hrow hends
  refine Prog.wp_taped_perform fun r w₂ he => ?_
  obtain ⟨⟨e, rfl⟩, rfl⟩ | ⟨rfl, hwritten⟩ := env_update hstored he
  · exact exists_stepped_threw hid hstored hstands hrow hends
  have hrow' : row'.id = row.id := hstands.id.symm.trans hid
  refine wp_aside (openBreak_aside operation) fun _ w' hsame => ?_
  refine ⟨answer, ⟨_, row'.update { status := some .FAILED } s.now,
    hid ▸ (hsame operation.id).trans hwritten, ?_, ?_⟩, ?_⟩
  · rw [hstep, ← hrow']
    exact Rows.get_put_self _ _
  · exact ⟨hstands.id, rfl, hstands.attempts⟩
  · rw [hstep]
    rfl

theorem wp_nextRung {delaySeconds : Nat} (hdelay : unknownOutcomeLadderSeconds[rung + 1]? = some delaySeconds)
    (hreason : reason = .not_found_at_provider) :
    ((do
      let _ ← ask .now
      let _ ← ask (.operationUpdate ⟨operation.id, none, none, none, false⟩)
      ask (.emit (.enqueueResolve operation.id (rung + 1) (some (delaySeconds * 1000)))) : Flow Unit)).wp
        recorded (fun _ after => ∃ answer, Stepped s row rung answer after) (w, []) := by
  subst hreason
  have hstep : s.step row rung answer = (((s.put row').put (row'.update
      { nextTryAt := some (s.now + (delaySeconds : Int) * 1000) } s.now)).enqueue row'.id (rung + 1)
        ((delaySeconds : Int) * 1000)).log row' (.scheduled row'.id (rung + 1)
          (s.now + (delaySeconds : Int) * 1000)) := by
    simp only [State.step, hrow, hdelay]
    rfl
  refine wp_aside_bind (aside_ask ⟨fun _ => rfl, rfl⟩) (fun at_ w₁ h₁ => ?_)
    fun e w₁ h₁ => exists_stepped_threw hid ((h₁ _).trans hstored) hstands hrow hends
  refine Prog.wp_taped_perform fun r w₂ he => ?_
  obtain ⟨⟨e, rfl⟩, rfl⟩ | ⟨rfl, hwritten⟩ := env_update ((h₁ _).trans hstored) he
  · exact exists_stepped_threw hid ((h₁ _).trans hstored) hstands hrow hends
  have hkept : Stands (operation.update ⟨operation.id, none, none, none, false⟩) row' :=
    ⟨hstands.id, hstands.status, hstands.attempts⟩
  have hrow' : row'.id = row.id := hstands.id.symm.trans hid
  refine (Prog.wp_perform _ _ _ _).mpr ?_
  rintro r ⟨w₃, tape⟩ ⟨he, htape⟩
  have hget : w₃.operations.get operation.id =
      some (operation.update ⟨operation.id, none, none, none, false⟩) :=
    (env_unwritten rfl he _).trans hwritten
  cases r with
  | error e =>
    obtain rfl : tape = [] := htape
    exact exists_stepped_threw hid hget hkept hrow hends
  | ok done =>
    obtain rfl : tape = [⟨operation.id, rung + 1, (delaySeconds * 1000 : Nat)⟩] := htape
    have hms : ((delaySeconds * 1000 : Nat) : Int) = delaySeconds * 1000 :=
      Int.natCast_mul delaySeconds 1000
    refine ⟨answer, ⟨_, row'.update { nextTryAt := some (s.now + (delaySeconds : Int) * 1000) } s.now,
      (congrArg w₃.operations.get hid.symm).trans hget, ?_, hkept.id, hkept.status, hkept.attempts⟩, ?_⟩
    · rw [hstep, log_operations, enqueue_operations, ← hrow']
      exact Rows.get_put_self _ _
    · rw [hstep, log_queue, hrow', ← hid, ← hms]
      have hput : ((s.put row').put (row'.update { nextTryAt := some (s.now + (delaySeconds * 1000 : Nat)) }
        s.now)).queue = s.queue := rfl
      exact enqueue_congr hput rfl _ _

end Follow

/-- The code of a step, failures and all, does to the stored operation and to the
queue what the step of the row does. -/
theorem wp_step (hstored : w.operations.get operation.id = some operation) (hrow : Stands operation row) :
    (Ladder.step operation.id rung).wp recorded (fun _ after => ∃ answer, Stepped s row rung answer after)
      (w, []) := by
  unfold Ladder.step
  refine (Prog.wp_bind _ _ _ _ _).mpr (Prog.wp_mono _ (wp_resolve s.now hstored hrow) ?_)
  rintro r ⟨w', tape⟩ ⟨answer, hsilent, ⟨operation', hget, hstands⟩, htells⟩
  obtain rfl : tape = [] := hsilent
  have hkey : operation'.id = operation.id := Rows.key_of_get hget
  have hid : operation'.id = row.id := hkey.trans hrow.id
  rw [← hkey] at hget ⊢
  cases hrec : reconcile row answer s.now with
  | mk row' outcome =>
    rw [hrec] at htells
    have hends : outcome.ends = true → ∃ answer, Stepped s row rung answer (w', []) := fun h =>
      ⟨answer, stepped_of_ends hid hget hstands (by rwa [hrec])⟩
    rw [hrec] at hstands
    match r with
    | .error e => exact hends htells
    | .ok (.resolved status transaction) =>
      obtain rfl : outcome = .resolved := htells
      exact hends rfl
    | .ok (.unresolved .not_stuck) =>
      obtain rfl : outcome = .unresolved .not_stuck := htells
      exact hends rfl
    | .ok (.unresolved .no_lookup_capability) =>
      obtain rfl : outcome = .unresolved .no_lookup_capability := htells
      exact wp_exhaust hid hget hstands hrec (by decide) (by simp only [State.step, hrec])
    | .ok (.unresolved .not_found_at_provider) =>
      obtain rfl : outcome = .unresolved .not_found_at_provider := htells
      dsimp only [Prog.onOk_ok]
      cases hdelay : unknownOutcomeLadderSeconds[rung + 1]? with
      | none => exact wp_exhaust hid hget hstands hrec (by decide) (by simp only [State.step, hrec, hdelay])
      | some delaySeconds => exact wp_nextRung hid hget hstands hrec (by decide) hdelay rfl

def sweepJob (id : String) (attempts : Nat) : EnqueuedRung :=
  ⟨id, min attempts (unknownOutcomeLadderSeconds.length - 1), 0⟩

/-- The code of a sweep enqueues the operations it has found, in their order, up to
the one at which it throws. -/
theorem wp_enqueueStuck (operations : List OperationRecord) (tape : List EnqueuedRung) :
    (Ladder.enqueueStuck operations).wp recorded (fun r after => ∃ done, done <+: operations ∧
      (r = .ok () → done = operations) ∧ after.2 = tape ++ done.map fun o => sweepJob o.id o.attempts)
      (w, tape) := by
  induction operations generalizing w tape with
  | nil => exact ⟨[], List.nil_prefix, fun _ => rfl, (List.append_nil tape).symm⟩
  | cons operation operations ih =>
    refine Prog.wp_taped_perform fun r w' he => ?_
    cases r with
    | error e =>
      refine ⟨[], List.nil_prefix, fun h => ?_, rfl⟩
      cases h
    | ok done =>
      refine Prog.wp_mono _ (ih (tape ++ [sweepJob operation.id operation.attempts])) fun r after h => ?_
      obtain ⟨done, hprefix, hall, htape⟩ := h
      refine ⟨operation :: done, List.cons_prefix_cons.mpr ⟨rfl, hprefix⟩, fun hr => by rw [hall hr], ?_⟩
      rw [htape, List.append_assoc]
      rfl

theorem enqueueStuck_queue (rows : List OperationRow) : (State.enqueueStuck rows s).queue =
    (s.enqueueAll (rows.map fun row => sweepJob row.id row.attempts)).queue := by
  induction rows generalizing s with
  | nil => rfl
  | cons row rows ih =>
    rw [State.enqueueStuck, ih]
    exact enqueueAll_congr (log_queue _) (log_now _) _

end Code

end BaasConnector.Worker.LadderJobs
