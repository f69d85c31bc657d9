import BaasConnector.AdapterKit.HttpClient
import BaasConnector.Lib.History

namespace BaasConnector.AdapterKit.CircuitBreaker

open BaasConnector.Lib.Effects BaasConnector.Lib.History BaasConnector.AdapterKit.HttpClient

/-- `reachesRatio` compares the quotient of the failures and the total with the ratio. -/
structure BreakerPolicy where
  minimumRequests : Nat
  reachesRatio : Nat → Nat → Bool
  windowMs : Int
  openMs : Int
  halfOpenProbes : Nat

def defaultBreakerPolicy : BreakerPolicy where
  minimumRequests := 20
  reachesRatio := fun failures total => decide (total ≤ 2 * failures)
  windowMs := 60000
  openMs := 30000
  halfOpenProbes := 3

structure BreakerBucket where
  successes : Nat
  failures : Nat
  windowStart : Int
  openedAt : Option Int
  probesInFlight : Nat
deriving DecidableEq

inductive CircuitState
  | CLOSED | OPEN | HALF_OPEN
deriving DecidableEq

variable (policy : BreakerPolicy)

def windowOver (now : Int) (existing : BreakerBucket) : Bool :=
  decide (policy.windowMs < now - existing.windowStart)

def bucket (now : Int) : Option BreakerBucket → BreakerBucket
  | none => ⟨0, 0, now, none, 0⟩
  | some existing => if windowOver policy now existing then ⟨0, 0, now, existing.openedAt, 0⟩ else existing

def state (now : Int) (bucket : BreakerBucket) : CircuitState :=
  match bucket.openedAt with
  | none => .CLOSED
  | some openedAt => if policy.openMs ≤ now - openedAt then .HALF_OPEN else .OPEN

def recordSuccess (now : Int) (bucket : BreakerBucket) : BreakerBucket :=
  let counted := { bucket with
    successes := bucket.successes + 1
    probesInFlight := bucket.probesInFlight - 1 }
  match bucket.openedAt with
  | none => counted
  | some openedAt =>
    if policy.openMs ≤ now - openedAt then
      { counted with openedAt := none, failures := 0, successes := 0, windowStart := now }
    else counted

/-- The failure, counted, makes the requests of the window enough and the failed ones too many. -/
def tips (bucket : BreakerBucket) : Bool :=
  let failures := bucket.failures + 1
  let total := bucket.successes + failures
  decide (policy.minimumRequests ≤ total) && policy.reachesRatio failures total

def recordFailure (now : Int) (bucket : BreakerBucket) : BreakerBucket :=
  let counted := { bucket with
    failures := bucket.failures + 1
    probesInFlight := bucket.probesInFlight - 1 }
  if tips policy bucket then { counted with openedAt := some now } else counted

/-- How an attempt that was admitted ends. An error of the catalogue, or one
before the request is sent, aborts it. -/
inductive Outcome
  | answered (statusCode : Nat)
  | failed
  | aborted
deriving DecidableEq

/-- What the breaker is told of it. -/
def Outcome.report : Outcome → Option Bool
  | .answered statusCode =>
    if 200 ≤ statusCode ∧ statusCode < 300 then some true
    else if 500 ≤ statusCode then some false
    else none
  | .failed => some false
  | .aborted => none

/-- An attempt of a client: `assertClosed` has read the state and not gone on,
or has let the attempt run, a probe when the circuit was half open. -/
inductive Attempt
  | asked (read : CircuitState)
  | running (probe : Bool)
  | over
deriving DecidableEq

/-- One key of the breaker, and the attempts so far. -/
structure Circuit where
  stored : Option BreakerBucket
  attempts : List Attempt
deriving DecidableEq

def Circuit.initial : Circuit := ⟨none, []⟩

inductive Act
  | ask
  | decide (attempt : Nat)
  | finish (attempt : Nat) (outcome : Outcome)
deriving DecidableEq

structure Action where
  now : Int
  act : Act
deriving DecidableEq

namespace Circuit

variable (circuit : Circuit)

def openedAt : Option Int := circuit.stored.bind BreakerBucket.openedAt

def stateAt (now : Int) : CircuitState := state policy now (bucket policy now circuit.stored)

/-- The admitted probes that are still running. -/
def probes : Nat := circuit.attempts.count (.running true)

def ask (now : Int) : Circuit where
  stored := some (bucket policy now circuit.stored)
  attempts := circuit.attempts ++ [.asked (circuit.stateAt policy now)]

def letRun (now : Int) (attempt : Nat) (stored : Option BreakerBucket) : Circuit where
  stored := stored
  attempts := circuit.attempts.set attempt (.running (circuit.stateAt policy now = .HALF_OPEN))

/-- The rest of `assertClosed`, with the state that was read. -/
def decide (now : Int) (attempt : Nat) (read : CircuitState) : Circuit :=
  if read = .CLOSED then circuit.letRun policy now attempt circuit.stored
  else
    let bucket := bucket policy now circuit.stored
    if read = .HALF_OPEN ∧ bucket.probesInFlight < policy.halfOpenProbes then
      circuit.letRun policy now attempt (some { bucket with probesInFlight := bucket.probesInFlight + 1 })
    else ⟨some bucket, circuit.attempts.set attempt .over⟩

def finish (now : Int) (attempt : Nat) (outcome : Outcome) : Circuit where
  stored := match outcome.report with
    | some true => some (recordSuccess policy now (bucket policy now circuit.stored))
    | some false => some (recordFailure policy now (bucket policy now circuit.stored))
    | none => circuit.stored
  attempts := circuit.attempts.set attempt .over

end Circuit

def step (circuit : Circuit) (action : Action) : Circuit :=
  match action.act with
  | .ask => circuit.ask policy action.now
  | .decide attempt =>
    match circuit.attempts[attempt]? with
    | some (.asked read) => circuit.decide policy action.now attempt read
    | _ => circuit
  | .finish attempt outcome =>
    match circuit.attempts[attempt]? with
    | some (.running _) => circuit.finish policy action.now attempt outcome
    | _ => circuit

def run (actions : List Action) : Circuit := actions.foldl (step policy) .initial

/-- What is seen of an attempt: its outcome so far, and what the breaker was told. -/
structure Seen where
  outcome : Outcome
  told : List Bool

def watched : Prog.Env HttpCall HttpAnswer HttpThrown Seen := fun seen call reply seen' =>
  match call, reply with
  | .assertClosed key, .error error => error = .circuitOpen key ∧ seen' = seen
  | .recordSuccess _, reply => reply = .ok () ∧ seen' = { seen with told := seen.told ++ [true] }
  | .recordFailure _, reply => reply = .ok () ∧ seen' = { seen with told := seen.told ++ [false] }
  | .attempt, .ok response => seen' = { seen with outcome := .answered response.statusCode }
  | .attempt, .error error => seen' = if error.isBaasError then seen else { seen with outcome := .failed }
  | .onUnauthorized, .error error => seen' = if error.isBaasError then seen
      else { seen with outcome := .failed }
  | _, _ => seen' = seen

def Told (seen : Seen) : Prop := seen.told = seen.outcome.report.toList

/-- What the handler of an attempt finds: nothing is left to tell but of an error of the runtime. -/
def HandedOver (reply : Except HttpThrown Continuation) (seen : Seen) : Prop :=
  (∃ code name, reply = .error (.other code name)) ∧ seen = ⟨.failed, []⟩ ∨
    (∀ code name, reply ≠ .error (.other code name)) ∧ Told seen

theorem handedOver_error {error : HttpThrown} {outcome : Outcome} (h : outcome.report = none) :
    HandedOver (.error error) (if error.isBaasError then ⟨outcome, []⟩ else ⟨.failed, []⟩) := by
  cases error with
  | other code name => exact .inl ⟨⟨code, name, rfl⟩, rfl⟩
  | _ => exact .inr ⟨nofun, by rw [Told]; simp [HttpThrown.isBaasError, h]⟩

variable {options : HttpClientOptions} {init : HttpRequestInit} {remaining attempts : Nat}

theorem onFailure_told {error : HttpThrown} {seen : Seen} (h : HandedOver (.error error) seen) :
    (onFailure options init remaining attempts error).wp watched (fun _ => Told) seen := by
  obtain ⟨⟨code, name, hreply⟩, rfl⟩ | ⟨hreply, htold⟩ := h
  · cases hreply
    refine (Prog.wp_bind _ _ _ _ _).mpr ((Prog.wp_perform _ _ _ _).mpr fun reply seen' hreply => ?_)
    obtain ⟨rfl, rfl⟩ := hreply
    rw [Prog.onOk_ok]
    split
    · rfl
    · rfl
  · cases error with
    | other code name => exact absurd rfl (hreply code name)
    | _ => exact htold

theorem onRefusal_told {response : HttpAnswered}
    (hstatus : ¬ (200 ≤ response.statusCode ∧ response.statusCode < 300)) :
    (onRefusal options init remaining response).wp watched HandedOver
      ⟨.answered response.statusCode, []⟩ := by
  have hrest : ∀ seen, Told seen →
      (if canRetry options init remaining (.http response.statusCode response.retryAfterSeconds) then
        .pure (.again (.http response.statusCode response.retryAfterSeconds))
      else
        .throw (.baas (options.errorMapper
          { status := response.statusCode, body := response.body, providerSlug := options.providerSlug
            requestId := options.correlationId })) : HttpProg Continuation).wp watched HandedOver seen := by
    intro seen htold
    split
    · exact .inr ⟨nofun, htold⟩
    · exact .inr ⟨nofun, htold⟩
  unfold onRefusal countFailure
  rw [Prog.bind_eq, Prog.wp_bind]
  split
  · next hfailure =>
    refine (Prog.wp_perform _ _ _ _).mpr fun reply seen' hreply => ?_
    obtain ⟨rfl, rfl⟩ := hreply
    exact hrest _ (by simp [Told, Outcome.report, hstatus, hfailure])
  · next hfailure => exact hrest _ (by simp [Told, Outcome.report, hstatus, hfailure])

theorem onAnswer_told {authRetried : Bool} {response : HttpAnswered} :
    (onAnswer options init remaining attempts authRetried response).wp watched HandedOver
      ⟨.answered response.statusCode, []⟩ := by
  unfold onAnswer
  by_cases hok : 200 ≤ response.statusCode ∧ response.statusCode < 300
  · rw [if_pos hok]
    refine (Prog.wp_bind _ _ _ _ _).mpr ((Prog.wp_perform _ _ _ _).mpr fun reply seen' hreply => ?_)
    obtain ⟨rfl, rfl⟩ := hreply
    exact .inr ⟨nofun, by simp [Told, Outcome.report, hok]⟩
  · rw [if_neg hok, Prog.bind_eq, Prog.wp_bind]
    unfold renewCredentials
    split
    · next hrenew =>
      have hreport : (Outcome.answered response.statusCode).report = none := by
        have hstatus : ¬ 500 ≤ response.statusCode := by omega
        simp [Outcome.report, hok, hstatus]
      refine (Prog.wp_perform _ _ _ _).mpr fun reply seen' hreply => ?_
      cases reply with
      | error error =>
        have hseen : seen' = if error.isBaasError then _ else _ := hreply
        rw [hseen]
        exact handedOver_error hreport
      | ok renewed =>
        have hseen : seen' = _ := hreply
        rw [hseen]
        cases renewed with
        | true => exact .inr ⟨nofun, by simp [Told, hreport]⟩
        | false => exact onRefusal_told hok
    · exact onRefusal_told hok

/-- An attempt of the client tells the breaker once how it ended, or not at all. -/
theorem attemptOnce_told {authRetried : Bool} :
    (attemptOnce options init remaining attempts authRetried).wp watched (fun _ => Told) ⟨.aborted, []⟩ := by
  unfold attemptOnce
  rw [Prog.bind_eq, Prog.wp_bind, Prog.wp_perform]
  intro reply seen hreply
  cases reply with
  | error error =>
    obtain ⟨-, rfl⟩ := hreply
    rfl
  | ok _ =>
    have hseen : seen = _ := hreply
    rw [hseen, Prog.onOk_ok, Prog.bind_eq, Prog.wp_bind, Prog.wp_perform]
    intro reply seen hreply
    have hseen : seen = ⟨.aborted, []⟩ := by cases reply <;> exact hreply
    rw [hseen]
    cases reply with
    | error error => rfl
    | ok _ =>
      rw [Prog.onOk_ok, Prog.tryCatch_eq, Prog.wp_tryCatch]
      refine Prog.wp_mono watched (show Prog.wp watched _ HandedOver _ from ?_) ?_
      · rw [Prog.bind_eq, Prog.wp_bind, Prog.wp_perform]
        intro reply seen hreply
        cases reply with
        | error error =>
          have hseen : seen = if error.isBaasError then _ else _ := hreply
          rw [hseen]
          exact handedOver_error rfl
        | ok response =>
          have hseen : seen = _ := hreply
          rw [hseen]
          exact onAnswer_told
      · intro reply seen hhanded
        cases reply with
        | error error => exact onFailure_told hhanded
        | ok continuation =>
          obtain ⟨⟨_, _, hreply⟩, -⟩ | ⟨-, htold⟩ := hhanded
          · cases hreply
          · exact htold

end BaasConnector.AdapterKit.CircuitBreaker
