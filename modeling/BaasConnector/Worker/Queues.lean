import Mathlib
import BaasConnector.Connector.Records
import BaasConnector.Lib.Keyed

namespace BaasConnector.Worker.Queues

open BaasConnector.Lib.Keyed BaasConnector.Connector.Records
open BaasConnector.Taxonomy.Status (DeliveryStatus)

inductive QueueName
  | inboundWebhook | outboxDispatch | operationResolve | reconciliation | poll | maintenance
deriving DecidableEq, Repr

inductive ReconciliationScope
  | DAILY | INTRADAY | BACKFILL | MANUAL
deriving DecidableEq, Repr

inductive QueuedJob
  | inbound_webhook (eventId : String)
  | outbox_dispatch (deliveryId : String)
  | operation_resolve (operationId : String) (step : Nat)
  | reconciliation_sweep (scope : ReconciliationScope)
  | reconciliation (runId : String)
  | poll (connectionId stream : String) (scopeId : Option String)
deriving DecidableEq, Repr

def queueForKind : QueuedJob → QueueName
  | .inbound_webhook _ => .inboundWebhook
  | .outbox_dispatch _ => .outboxDispatch
  | .operation_resolve .. => .operationResolve
  | .reconciliation_sweep _ => .maintenance
  | .reconciliation _ => .reconciliation
  | .poll .. => .poll

def ReconciliationScope.text : ReconciliationScope → String
  | .DAILY => "DAILY"
  | .INTRADAY => "INTRADAY"
  | .BACKFILL => "BACKFILL"
  | .MANUAL => "MANUAL"

def jobIdOf : QueuedJob → String
  | .inbound_webhook eventId => "ibe-" ++ eventId
  | .outbox_dispatch deliveryId => "dlv-" ++ deliveryId
  | .operation_resolve operationId step => "opr-" ++ operationId ++ "-" ++ toString step
  | .reconciliation_sweep scope => "sweep-" ++ scope.text
  | .reconciliation runId => "rec-" ++ runId
  | .poll connectionId stream scopeId =>
    "poll-" ++ connectionId ++ "-" ++ stream ++ "-" ++ scopeId.getD "all"

structure QueuePolicy where
  concurrency : Nat
  attempts : Nat
  backoffMs : Option Nat
deriving DecidableEq, Repr

def queuePolicy : QueueName → QueuePolicy
  | .inboundWebhook => ⟨16, 3, some 1000⟩
  | .outboxDispatch => ⟨32, 1, none⟩
  | .operationResolve => ⟨8, 1, none⟩
  | .reconciliation => ⟨2, 3, some 30000⟩
  | .poll => ⟨4, 3, some 5000⟩
  | .maintenance => ⟨1, 1, none⟩

/-- What the queues are told to keep of finished jobs. -/
structure Retention where
  ageMs : Int
  count : Option Nat
deriving DecidableEq, Repr

def removeOnComplete : Retention := ⟨3600 * 1000, some 1000⟩

def removeOnFail : Retention := ⟨7 * 24 * 3600 * 1000, none⟩

/-- The piece of work that a job is for. The steps of one ladder are one work. -/
inductive Work
  | event (id : String)
  | delivery (id : String)
  | operation (id : String)
  | sweep (scope : ReconciliationScope)
  | run (id : String)
  | stream (connectionId stream : String) (scopeId : Option String)
deriving DecidableEq, Repr

def QueuedJob.work : QueuedJob → Work
  | .inbound_webhook eventId => .event eventId
  | .outbox_dispatch deliveryId => .delivery deliveryId
  | .operation_resolve operationId _ => .operation operationId
  | .reconciliation_sweep scope => .sweep scope
  | .reconciliation runId => .run runId
  | .poll connectionId stream scopeId => .stream connectionId stream scopeId

inductive RunStatus
  | QUEUED | RUNNING | COMPLETED | COMPLETED_WITH_BREAKS | FAILED
deriving DecidableEq, Repr

/-- The rows that the jobs are about. -/
structure Postgres where
  events : String → Option InboundEventStatus
  deliveries : String → Option DeliveryStatus
  operations : String → Option OperationStatusValue
  runs : String → Option RunStatus

/-- The work of a job is still to be done. A stream is polled again and again. -/
def Postgres.due (p : Postgres) : QueuedJob → Bool
  | .inbound_webhook eventId =>
    match p.events eventId with
    | some .RECEIVED | some .PROCESSING | some .FAILED => true
    | _ => false
  | .outbox_dispatch deliveryId => p.deliveries deliveryId == some .PENDING
  | .operation_resolve operationId _ =>
    match p.operations operationId with
    | some status => status.isStuck
    | none => false
  | .reconciliation runId => p.runs runId == some .QUEUED || p.runs runId == some .RUNNING
  | .reconciliation_sweep _ | .poll .. => true

inductive JobState
  | waiting
  | delayed (ready : Int)
  | active
  | completed (finishedOn : Int)
  | failed (finishedOn : Int)
deriving DecidableEq, Repr

/-- The next execution of the job is still to start. -/
def JobState.pending : JobState → Bool
  | .waiting | .delayed _ => true
  | .active | .completed _ | .failed _ => false

structure Job where
  data : QueuedJob
  state : JobState
  attemptsMade : Nat
deriving DecidableEq, Repr

abbrev Key := QueueName × String

def keyOf (data : QueuedJob) : Key := (queueForKind data, jobIdOf data)

def Job.key (job : Job) : Key := keyOf job.data

structure Broker where
  now : Int
  jobs : Rows Key Job Job.key
  postgres : Postgres

inductive Move
  | enqueue (job : QueuedJob) (delayMs : Option Nat)
  | promote (key : Key)
  | start (key : Key)
  | complete (key : Key)
  | fail (key : Key)
  | stall (key : Key) (again : Bool)
  | remove (key : Key)
  | tick (ms : Nat)
  | write (postgres : Postgres)

/-- The queue takes no second job under an id that it holds, in whatever state. -/
def Broker.enqueue (b : Broker) (job : QueuedJob) (delayMs : Option Nat) : Broker :=
  match b.jobs.get (keyOf job) with
  | some _ => b
  | none =>
    let state := match delayMs with
      | none | some 0 => JobState.waiting
      | some ms => .delayed (b.now + ms)
    { b with jobs := b.jobs.put ⟨job, state, 0⟩ }

def Broker.change (b : Broker) (key : Key) (f : Job → Option (JobState × Nat)) : Option Broker :=
  match b.jobs.get key with
  | none => none
  | some job =>
    match f job with
    | none => none
    | some (state, attemptsMade) => some { b with jobs := b.jobs.put ⟨job.data, state, attemptsMade⟩ }

def promoted (now : Int) (job : Job) : Option (JobState × Nat) :=
  match job.state with
  | .delayed ready => if ready ≤ now then some (.waiting, job.attemptsMade) else none
  | _ => none

def started (job : Job) : Option (JobState × Nat) :=
  if job.state = .waiting then some (.active, job.attemptsMade) else none

def completed (now : Int) (job : Job) : Option (JobState × Nat) :=
  if job.state = .active then some (.completed now, job.attemptsMade + 1) else none

/-- A failed attempt is tried again, each time after twice the delay, while the
queue's policy has attempts left. -/
def retried (now : Int) (job : Job) : Option (JobState × Nat) :=
  let policy := queuePolicy (queueForKind job.data)
  if job.state = .active then
    if job.attemptsMade + 1 < policy.attempts then
      some (.delayed (now + (policy.backoffMs.getD 0) * 2 ^ job.attemptsMade), job.attemptsMade + 1)
    else some (.failed now, job.attemptsMade + 1)
  else none

/-- The worker of an active job is gone: the job waits again, or fails for good. -/
def stalled (now : Int) (again : Bool) (job : Job) : Option (JobState × Nat) :=
  if job.state = .active then
    some (if again then .waiting else .failed now, job.attemptsMade)
  else none

def Broker.laterCompleted (b : Broker) (job : Job) (finishedOn : Int) : Nat :=
  (b.jobs.table.values.filter fun other =>
    match other.state with
    | .completed t => decide (other.key ≠ job.key ∧ other.key.1 = job.key.1 ∧ finishedOn ≤ t)
    | _ => false).length

/-- The retention of the queue lets go of a finished job. -/
def Broker.expired (b : Broker) (job : Job) : Bool :=
  match job.state with
  | .completed t => t + removeOnComplete.ageMs ≤ b.now ||
      (removeOnComplete.count.any fun count => count ≤ b.laterCompleted job t)
  | .failed t => t + removeOnFail.ageMs ≤ b.now
  | _ => false

def Broker.step (b : Broker) : Move → Option Broker
  | .enqueue job delayMs => some (b.enqueue job delayMs)
  | .promote key => b.change key (promoted b.now)
  | .start key => b.change key started
  | .complete key => b.change key (completed b.now)
  | .fail key => b.change key (retried b.now)
  | .stall key again => b.change key (stalled b.now again)
  | .remove key =>
    match b.jobs.get key with
    | none => none
    | some job => if b.expired job then some { b with jobs := b.jobs.delete key } else none
  | .tick ms => some { b with now := b.now + ms }
  | .write postgres => some { b with postgres }

def Broker.run : Broker → List Move → Option Broker
  | b, [] => some b
  | b, m :: ms =>
    match b.step m with
    | none => none
    | some b' => b'.run ms

/-- A job for the work is held whose execution starts from here on: it comes to
no state but waiting without a start. -/
def Broker.Ahead (b : Broker) (work : Work) : Prop :=
  ∃ key job, b.jobs.get key = some job ∧ job.data.work = work ∧
    ∀ moves b', b.run moves = some b' →
      (∀ job', b'.jobs.get key = some job' → job'.state.pending = false) → .start key ∈ moves

/-- No job is kept under the id, or one for the same work is still to start. -/
def Broker.Clear (b : Broker) (job : QueuedJob) : Prop :=
  b.jobs.get (keyOf job) = none ∨
    ∃ key held, b.jobs.get key = some held ∧ held.data.work = job.work ∧ held.state.pending = true

/-- What holds at every call of `enqueue` for work that is due. -/
def Broker.AtEnqueues (P : Broker → QueuedJob → Broker → Prop) : Broker → List Move → Prop
  | _, [] => True
  | b, m :: ms =>
    match b.step m with
    | none => True
    | some b' =>
      (∀ job delayMs, m = .enqueue job delayMs → b.postgres.due job = true → P b job b') ∧
        b'.AtEnqueues P ms

variable {b b' : Broker} {key : Key} {job : Job} {work : Work}

theorem change_get {k : Key} {f : Job → Option (JobState × Nat)} (h : b.change k f = some b')
    (hjob : b.jobs.get key = some job) :
    b'.jobs.get key = some job ∨
      (key = k ∧ ∃ state attemptsMade, f job = some (state, attemptsMade) ∧
        b'.jobs.get key = some ⟨job.data, state, attemptsMade⟩) := by
  unfold Broker.change at h
  cases hk : b.jobs.get k with
  | none => simp [hk] at h
  | some held =>
    cases hf : f held with
    | none => simp [hk, hf] at h
    | some p =>
      obtain ⟨state, attemptsMade⟩ := p
      simp only [hk, hf, Option.some.injEq] at h
      have hkey : held.key = k := Rows.key_of_get hk
      have hkey : Job.key ⟨held.data, state, attemptsMade⟩ = k := hkey
      rw [← h, Rows.get_put, hkey]
      by_cases he : key = k
      · subst he
        rw [hjob, Option.some.injEq] at hk
        subst hk
        exact .inr ⟨rfl, state, attemptsMade, hf, if_pos rfl⟩
      · exact .inl (by rw [if_neg he]; exact hjob)

/-- A job that is to start stays so until it starts. -/
theorem pending_stays {m : Move} (hstep : b.step m = some b') (hjob : b.jobs.get key = some job)
    (hpending : job.state.pending = true) (hm : m ≠ .start key) :
    ∃ job', b'.jobs.get key = some job' ∧ job'.state.pending = true := by
  have hchange : ∀ {k : Key} {f : Job → Option (JobState × Nat)}, b.change k f = some b' →
      (k = key → ∀ state attemptsMade, f job = some (state, attemptsMade) → state.pending = true) →
      ∃ job', b'.jobs.get key = some job' ∧ job'.state.pending = true := by
    intro k f h hf
    obtain hsame | ⟨hk, state, attemptsMade, hfj, hget⟩ := change_get h hjob
    · exact ⟨job, hsame, hpending⟩
    · exact ⟨_, hget, hf hk.symm state attemptsMade hfj⟩
  cases m with
  | enqueue data delayMs =>
    simp only [Broker.step, Option.some.injEq] at hstep
    rw [← hstep]
    unfold Broker.enqueue
    cases hk : b.jobs.get (keyOf data) with
    | some held => exact ⟨job, hjob, hpending⟩
    | none =>
      refine ⟨job, ?_, hpending⟩
      have hne : key ≠ keyOf data := by
        rintro rfl
        rw [hjob] at hk
        cases hk
      exact (Rows.get_put_ne b.jobs _ hne).trans hjob
  | promote k =>
    refine hchange hstep fun _ state attemptsMade hf => ?_
    unfold promoted at hf
    split at hf
    · split at hf
      · cases hf
        rfl
      · cases hf
    · cases hf
  | start k =>
    refine hchange hstep fun hk => ?_
    exact absurd (by rw [hk]) hm
  | complete k =>
    refine hchange hstep fun _ state attemptsMade hf => ?_
    simp only [completed] at hf
    split at hf
    · next h => rw [h] at hpending; cases hpending
    · cases hf
  | fail k =>
    refine hchange hstep fun _ state attemptsMade hf => ?_
    simp only [retried] at hf
    split at hf
    · next h => rw [h] at hpending; cases hpending
    · cases hf
  | stall k again =>
    refine hchange hstep fun _ state attemptsMade hf => ?_
    simp only [stalled] at hf
    split at hf
    · next h => rw [h] at hpending; cases hpending
    · cases hf
  | remove k =>
    simp only [Broker.step] at hstep
    cases hk : b.jobs.get k with
    | none => simp [hk] at hstep
    | some held =>
      simp only [hk] at hstep
      split at hstep
      · next hexpired =>
        cases hstep
        refine ⟨job, ?_, hpending⟩
        have hne : key ≠ k := by
          rintro rfl
          rw [hjob, Option.some.injEq] at hk
          subst hk
          cases hs : job.state <;> simp [Broker.expired, hs, JobState.pending] at hexpired hpending
        rw [Rows.get_delete, if_neg hne]
        exact hjob
      · cases hstep
  | tick ms =>
    cases hstep
    exact ⟨job, hjob, hpending⟩
  | write postgres =>
    cases hstep
    exact ⟨job, hjob, hpending⟩

theorem start_mem_of_run {moves : List Move} (hrun : b.run moves = some b')
    (hjob : b.jobs.get key = some job) (hpending : job.state.pending = true)
    (hend : ∀ job', b'.jobs.get key = some job' → job'.state.pending = false) :
    .start key ∈ moves := by
  induction moves generalizing b job with
  | nil =>
    cases hrun
    have := hend job hjob
    rw [hpending] at this
    cases this
  | cons m ms ih =>
    by_cases hm : m = .start key
    · exact hm ▸ List.mem_cons_self
    · rw [Broker.run] at hrun
      cases hs : b.step m with
      | none => simp [hs] at hrun
      | some v =>
        simp only [hs] at hrun
        obtain ⟨job', hjob', hpending'⟩ := pending_stays hs hjob hpending hm
        exact List.mem_cons_of_mem _ (ih hrun hjob' hpending')

theorem ahead_iff : b.Ahead work ↔
    ∃ key job, b.jobs.get key = some job ∧ job.data.work = work ∧ job.state.pending = true := by
  constructor
  · rintro ⟨key, job, hjob, hwork, hstart⟩
    refine ⟨key, job, hjob, hwork, ?_⟩
    by_contra hn
    have hmem := hstart [] b rfl fun job' hjob' => by
      rw [hjob, Option.some.injEq] at hjob'
      rw [← hjob']
      exact Bool.eq_false_iff.mpr hn
    cases hmem
  · rintro ⟨key, job, hjob, hwork, hpending⟩
    exact ⟨key, job, hjob, hwork, fun moves b' hrun hend => start_mem_of_run hrun hjob hpending hend⟩

theorem enqueue_ahead_iff (b : Broker) (job : QueuedJob) (delayMs : Option Nat) :
    (b.enqueue job delayMs).Ahead job.work ↔ b.Clear job := by
  rw [ahead_iff]
  unfold Broker.enqueue Broker.Clear
  cases hk : b.jobs.get (keyOf job) with
  | some held => simp
  | none =>
    refine iff_of_true ⟨keyOf job, _, Rows.get_put_self b.jobs _, rfl, ?_⟩ (.inl rfl)
    split <;> rfl

/-- A run queues a job that is still to start at every call for work that is due,
if and only if every such call finds the id free or the work still waiting. -/
theorem due_jobs_start_iff (b : Broker) (moves : List Move) :
    b.AtEnqueues (fun _ job b' => b'.Ahead job.work) moves ↔
      b.AtEnqueues (fun b job _ => b.Clear job) moves := by
  induction moves generalizing b with
  | nil => rfl
  | cons m ms ih =>
    simp only [Broker.AtEnqueues]
    cases hs : b.step m with
    | none => rfl
    | some b' =>
      refine and_congr ?_ (ih b')
      refine forall_congr' fun job => forall_congr' fun delayMs => imp_congr_right fun hm => ?_
      subst hm
      cases hs
      rw [enqueue_ahead_iff]

section Sample

def idle : Broker := ⟨0, .empty, ⟨fun _ => none, fun _ => some .PENDING, fun _ => none, fun _ => none⟩⟩

/-- A delivery that waits for an earlier one queues itself again while it is active. -/
def waitForOrder : List Move :=
  [.enqueue (.outbox_dispatch "whd_1") none, .start (.outboxDispatch, "dlv-whd_1"),
    .enqueue (.outbox_dispatch "whd_1") (some 200)]

theorem own_job_dropped :
    ¬ ∀ (b : Broker) (moves : List Move), b.jobs = .empty →
      b.AtEnqueues (fun _ job b' => b'.Ahead job.work) moves := by
  intro h
  have hahead := (h idle waitForOrder rfl).2.2.1 (.outbox_dispatch "whd_1") (some 200) rfl rfl
  obtain ⟨key, job, hjob, _, hpending⟩ := ahead_iff.mp hahead
  have hstarted : job.state.pending = false :=
    Rows.forall_get (p := fun job : Job => job.state.pending = false) |>.mpr (by decide) key job hjob
  rw [hstarted] at hpending
  cases hpending

end Sample

end BaasConnector.Worker.Queues
