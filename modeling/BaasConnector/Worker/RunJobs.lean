import BaasConnector.Lib.History
import BaasConnector.Lib.Keyed
import BaasConnector.Worker.Queues

namespace BaasConnector.Worker.Windows

open BaasConnector.Worker.Queues

def intradayWindowHours : Int := 4

def dayMs : Int := 86400000

/-- The day of an instant in UTC, counted from the epoch. -/
def toDay (instant : Int) : Int := instant / dayMs

/-- The day of an instant where clocks are `offset` ahead of UTC. -/
def localDay (offset : Int → Int) (instant : Int) : Int := toDay (instant + offset instant)

structure Window where
  windowStart : Int
  windowEnd : Int
deriving DecidableEq, Repr

def window (brasilia : Int → Int) (scope : ReconciliationScope) (now : Int) : Window :=
  if scope = .INTRADAY then ⟨now - intradayWindowHours * 3600000, now⟩
  else
    let yesterday := localDay brasilia (now - dayMs)
    ⟨yesterday * dayMs, yesterday * dayMs + dayMs - 1⟩

end BaasConnector.Worker.Windows

namespace BaasConnector.Worker.RunJobs

open BaasConnector.Lib.Keyed BaasConnector.Worker.Windows
open BaasConnector.Worker.Queues (RunStatus ReconciliationScope queuePolicy)

/-- A run is named after the unique index of its row. -/
structure RunKey where
  connectionId : String
  accountId : String
  scope : ReconciliationScope
  window : Window
deriving DecidableEq, Repr

structure ReconciliationRun where
  key : RunKey
  status : RunStatus
  error : Option String
deriving DecidableEq, Repr

abbrev Runs := Rows RunKey ReconciliationRun ReconciliationRun.key

def ReconciliationRun.queued (key : RunKey) : ReconciliationRun := ⟨key, .QUEUED, none⟩

def Runs.setStatus (runs : Runs) (key : RunKey) (status : RunStatus) (error : Option String) : Runs :=
  match runs.get key with
  | none => runs
  | some run => runs.put { run with status := status, error := error.or run.error }

structure Account where
  id : String
  connectionId : String
  providerAccountId : Option String
deriving DecidableEq, Repr

/-- Where a sweep stands. A run that it has created waits to be enqueued. -/
inductive Sweeper
  | idle
  | sweeping (accounts : List Account) (scope : ReconciliationScope) (window : Window)
  | enqueuing (key : RunKey) (rest : List Account)
deriving DecidableEq

/-- A job of the queue, with the attempts made and the times it was found stalled. -/
inductive Job
  | waiting (attemptsMade stalledCount : Nat)
  | active (w : Nat) (attemptsMade stalledCount : Nat)
  | finished
deriving DecidableEq

def maxStalledCount : Nat := 1

def Job.failed (attemptsMade stalledCount : Nat) : Job :=
  if attemptsMade + 1 < (queuePolicy .reconciliation).attempts then .waiting (attemptsMade + 1) stalledCount
  else .finished

def Job.stalled (attemptsMade stalledCount : Nat) : Job :=
  if stalledCount < maxStalledCount then .waiting attemptsMade (stalledCount + 1) else .finished

/-- Where a job stands in `run` and `execute`. -/
inductive Runner
  | idle
  | finding (key : RunKey)
  | marking (key : RunKey)
  | loading (key : RunKey)
  | reconciling (key : RunKey)
  | resolving (key : RunKey)
  | closing (key : RunKey) (reason : String)
  | failing (key : RunKey) (message : String)
deriving DecidableEq

def Runner.key : Runner → Option RunKey
  | .idle => none
  | .finding key | .marking key | .loading key | .reconciling key | .resolving key => some key
  | .closing key _ | .failing key _ => some key

structure State where
  runs : Runs
  jobs : RunKey → Option Job
  sweepers : Nat → Sweeper
  runners : Nat → Runner

def State.init : State := ⟨.empty, fun _ => none, fun _ => .idle, fun _ => .idle⟩

/-- What a job reads from outside the rows of the runs. -/
structure Outside where
  accountFound : Bool
  statementFacet : Bool
  breaks : Bool
deriving DecidableEq, Repr

inductive Action
  | sweep (p : Nat) (scope : ReconciliationScope) (now : Int) (accounts : List Account)
  | advance (p : Nat)
  | abort (p : Nat)
  | take (w : Nat) (key : RunKey)
  | work (w : Nat) (outside : Outside)
  | throw (w : Nat) (message : String)
  | crash (w : Nat)
  | openBreak (connectionId accountId : String) (createdAt now : Int)
deriving DecidableEq

section Sweep

def State.setSweeper (s : State) (p : Nat) (sweeper : Sweeper) : State :=
  { s with sweepers := Function.update s.sweepers p sweeper }

def keyFor (account : Account) (scope : ReconciliationScope) (window : Window) : RunKey :=
  ⟨account.connectionId, account.id, scope, window⟩

/-- An empty id reads as none. -/
def Account.opened (account : Account) : Bool := account.providerAccountId.any fun id => decide (id ≠ "")

def State.advance (s : State) (p : Nat) : State :=
  match s.sweepers p with
  | .idle => s
  | .sweeping [] _ _ => s.setSweeper p .idle
  | .sweeping (account :: rest) scope window =>
    if account.opened then
      match s.runs.get (keyFor account scope window) with
      | some _ => s.setSweeper p (.sweeping rest scope window)
      | none =>
        { s with runs := s.runs.put (.queued (keyFor account scope window)) }.setSweeper p
          (.enqueuing (keyFor account scope window) rest)
    else s.setSweeper p (.sweeping rest scope window)
  | .enqueuing key rest =>
    { s with jobs := Function.update s.jobs key (some ((s.jobs key).getD (.waiting 0 0))) }.setSweeper p
      (.sweeping rest key.scope key.window)

end Sweep

section Run

/-- The job of the runner, when the runner holds it, comes to an end by `next`. -/
def State.release (s : State) (w : Nat) (next : Nat → Nat → Job) : State :=
  match (s.runners w).key with
  | none => s
  | some key =>
    { s with
      jobs := match s.jobs key with
        | some (.active w' attemptsMade stalledCount) =>
          if w' = w then Function.update s.jobs key (some (next attemptsMade stalledCount)) else s.jobs
        | _ => s.jobs
      runners := Function.update s.runners w .idle }

def State.setRunner (s : State) (w : Nat) (runner : Runner) : State :=
  { s with runners := Function.update s.runners w runner }

def State.work (s : State) (w : Nat) (outside : Outside) : State :=
  match s.runners w with
  | .idle => s
  | .finding key =>
    match s.runs.get key with
    | none => s.release w fun _ _ => .finished
    | some run => if run.status = .QUEUED then s.setRunner w (.marking key)
        else s.release w fun _ _ => .finished
  | .marking key => { s with runs := s.runs.setStatus key .RUNNING none }.setRunner w (.loading key)
  | .loading key =>
    if outside.accountFound then
      if outside.statementFacet then s.setRunner w (.reconciling key)
      else s.setRunner w (.closing key "no_statement_facet")
    else s.setRunner w (.closing key "account_not_found")
  | .reconciling key =>
    { s with
      runs := s.runs.setStatus key (if outside.breaks then .COMPLETED_WITH_BREAKS
        else .COMPLETED) none }.setRunner w
        (.resolving key)
  | .resolving _ => s.release w fun _ _ => .finished
  | .closing key reason =>
    { s with runs := s.runs.setStatus key .FAILED (some reason) }.release w fun _ _ => .finished
  | .failing key message => { s with runs := s.runs.setStatus key .FAILED (some message) }.release w .failed

/-- Only what follows the mark of the run stands in the `try` of the source. -/
def State.throw (s : State) (w : Nat) (message : String) : State :=
  match s.runners w with
  | .idle => s
  | .finding _ | .marking _ | .failing .. => s.release w .failed
  | .loading key | .reconciling key | .resolving key | .closing key _ => s.setRunner w (.failing key message)

def State.take (s : State) (w : Nat) (key : RunKey) : State :=
  match s.runners w, s.jobs key with
  | .idle, some (.waiting attemptsMade stalledCount) =>
    { s with jobs := Function.update s.jobs key (some (.active w attemptsMade stalledCount)) }.setRunner w
      (.finding key)
  | _, _ => s

end Run

/-- The run from which the ladder hangs its break. No job is enqueued for it. -/
def syntheticKey (connectionId accountId : String) (createdAt now : Int) : RunKey :=
  ⟨connectionId, accountId, .MANUAL, ⟨createdAt, now⟩⟩

variable (brasilia : Int → Int)

def State.step (s : State) : Action → State
  | .sweep p scope now accounts =>
    match s.sweepers p with
    | .idle => s.setSweeper p (.sweeping accounts scope (window brasilia scope now))
    | _ => s
  | .advance p => s.advance p
  | .abort p => s.setSweeper p .idle
  | .take w key => s.take w key
  | .work w outside => s.work w outside
  | .throw w message => s.throw w message
  | .crash w => s.release w .stalled
  | .openBreak connectionId accountId createdAt now =>
    { s with runs := s.runs.createNew (.queued (syntheticKey connectionId accountId createdAt now)) }

def run (actions : List Action) : State := actions.foldl (State.step brasilia) .init

theorem run_append (actions : List Action) (action : Action) :
    run brasilia (actions ++ [action]) = (run brasilia actions).step brasilia action := by
  rw [run, run, List.foldl_append]
  rfl

end BaasConnector.Worker.RunJobs
