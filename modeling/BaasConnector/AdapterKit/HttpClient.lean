import BaasConnector.AdapterKit.Mapper
import BaasConnector.Lib.Effects
import BaasConnector.Taxonomy.Errors
import Mathlib.Data.Rat.Init

namespace BaasConnector.AdapterKit.Retry

open BaasConnector.Taxonomy.Errors

inductive TimeoutPhase
  | connect | headers | body
deriving DecidableEq, Repr

inductive AttemptOutcome
  | http (status : Nat) (retryAfterSeconds : Option ℚ)
  | network (code : Option String)
  | timeout (phase : TimeoutPhase)
deriving DecidableEq

/-- How often to try, and after which outcomes. -/
structure RetryPolicy where
  maxAttempts : Nat
  shouldRetry : AttemptOutcome → Bool

def defaultShouldRetry : AttemptOutcome → Bool
  | .network _ => true
  | .timeout phase => decide (phase = .connect)
  | .http status _ => decide (status = 408 ∨ status = 429 ∨ 500 ≤ status)

def defaultRetryPolicy : RetryPolicy := ⟨3, defaultShouldRetry⟩

/-- The provider has certainly not come to process the request. -/
def isProvablyPreCommit : AttemptOutcome → Bool
  | .timeout phase => decide (phase = .connect)
  | .network code =>
    decide (code = some "ECONNREFUSED" ∨ code = some "ENOTFOUND" ∨ code = some "EAI_AGAIN")
  | .http status _ => decide (status = 429 ∨ status = 503)

def outcomeToErrorCode : AttemptOutcome → BaasErrorCode
  | .timeout _ => .PROVIDER_TIMEOUT
  | .network _ => .PROVIDER_UNAVAILABLE
  | .http status _ =>
    if status = 429 then .PROVIDER_RATE_LIMITED
    else if status = 401 ∨ status = 403 then .PROVIDER_CREDENTIALS_INVALID
    else if 500 ≤ status then .PROVIDER_UNAVAILABLE
    else .PROVIDER_REJECTED

def AttemptOutcome.succeeded : AttemptOutcome → Bool
  | .http status _ => decide (200 ≤ status ∧ status < 300)
  | _ => false

/-- The provider has answered that it will not do it. -/
def AttemptOutcome.rejected : AttemptOutcome → Bool
  | .http status _ => decide (400 ≤ status ∧ status < 500 ∧ status ≠ 408)
  | _ => false

def AttemptOutcome.answered : AttemptOutcome → Bool
  | .http .. => true
  | _ => false

/-- Nobody can tell from the outcome whether the provider has done it. -/
def AttemptOutcome.indeterminate (outcome : AttemptOutcome) : Bool :=
  !outcome.succeeded && !outcome.rejected && !isProvablyPreCommit outcome

end BaasConnector.AdapterKit.Retry

namespace BaasConnector.AdapterKit.HttpClient

open BaasConnector.Lib.Effects BaasConnector.Taxonomy.Errors
open BaasConnector.AdapterKit.Mapper BaasConnector.AdapterKit.Retry

inductive Method
  | GET | POST | PUT | PATCH | DELETE
deriving DecidableEq, Repr

def Method.text : Method → String
  | .GET => "GET"
  | .POST => "POST"
  | .PUT => "PUT"
  | .PATCH => "PATCH"
  | .DELETE => "DELETE"

def idempotentMethods : List Method := [.GET, .PUT, .DELETE]

structure HttpRequestInit where
  method : Method
  path : String
  endpointClass : String
  idempotent : Option Bool
deriving DecidableEq, Repr

structure HttpClientOptions where
  providerSlug : String
  environment : String
  operationId : Option String
  correlationId : Option String
  retry : Option RetryPolicy
  errorMapper : MapErrorInput → CanonicalError
  renewsCredentials : Bool

/-- What can be thrown inside a request: an error of the catalogue, the one for
an unknown outcome, or an error of the runtime with its code and name. -/
inductive HttpThrown
  | baas (error : CanonicalError)
  | unavailable (code : BaasErrorCode) (slug : String) (attempts : Nat)
  | circuitOpen (key : String)
  | outcomeUnknown (slug operationId message : String)
  | other (code name : Option String)
deriving DecidableEq

/-- The errors of the catalogue, with the one for an unknown outcome. -/
def HttpThrown.isBaasError : HttpThrown → Bool
  | .other .. => false
  | _ => true

def HttpThrown.isOutcomeUnknown : HttpThrown → Bool
  | .outcomeUnknown .. => true
  | _ => false

structure HttpAnswered where
  statusCode : Nat
  body : Json
  retryAfterSeconds : Option ℚ

inductive HttpCall
  | assertClosed (key : String)
  | recordSuccess (key : String)
  | recordFailure (key : String)
  | prepare
  | attempt
  | onUnauthorized
  | sleep (attempt : Nat) (outcome : AttemptOutcome)

abbrev HttpAnswer : HttpCall → Type
  | .attempt => HttpAnswered
  | .onUnauthorized => Bool
  | _ => Unit

abbrev HttpProg (α : Type) := Prog HttpCall HttpAnswer HttpThrown α

abbrev perform (q : HttpCall) : HttpProg (HttpAnswer q) := Prog.perform q

structure HttpResponse where
  status : Nat
  body : Json
  attempts : Nat

/-- The outcome an error of the runtime stands for. -/
def toOutcome (code name : Option String) : AttemptOutcome :=
  if code = some "UND_ERR_CONNECT_TIMEOUT" then .timeout .connect
  else if code = some "UND_ERR_HEADERS_TIMEOUT" then .timeout .headers
  else if code = some "UND_ERR_BODY_TIMEOUT" then .timeout .body
  else if name = some "AbortError" ∨ code = some "ABORT_ERR" then .timeout .headers
  else .network code

variable (options : HttpClientOptions) (init : HttpRequestInit)

def policy : RetryPolicy := options.retry.getD defaultRetryPolicy

def isIdempotent : Bool := init.idempotent.getD (idempotentMethods.contains init.method)

def breakerKey : String :=
  options.providerSlug ++ ":" ++ options.environment ++ ":" ++ init.endpointClass

/-- The last failure as the canonical error for it. -/
def terminalError (outcome : AttemptOutcome) (attempts : Nat) : HttpThrown :=
  if !isIdempotent init && !isProvablyPreCommit outcome then
    let method := init.method.text
    let path := init.path
    .outcomeUnknown options.providerSlug (options.operationId.getD "sem-operacao")
      s!"A chamada {method} {path} falhou sem resposta conclusiva. Nao sabemos se o provedor processou; sera resolvido por conciliacao."
  else .unavailable (outcomeToErrorCode outcome) options.providerSlug attempts

/-- Another attempt is left, and repeating the request is safe. -/
def canRetry (remaining : Nat) (outcome : AttemptOutcome) : Bool :=
  decide (1 < remaining) && (policy options).shouldRetry outcome &&
    (isIdempotent init || isProvablyPreCommit outcome)

/-- What one attempt leads to: an answer, another attempt with new credentials,
or another attempt after a failure. -/
inductive Continuation
  | done (response : HttpResponse)
  | renewed
  | again (outcome : AttemptOutcome)

/-- A 401 or a 403 may be a credential that was revoked: one attempt with a new one. -/
def renewCredentials (authRetried : Bool) (status : Nat) : HttpProg Bool :=
  if (status = 401 ∨ status = 403) ∧ authRetried = false ∧ options.renewsCredentials = true then
    perform .onUnauthorized
  else pure false

def countFailure (status : Nat) : HttpProg Unit :=
  if 500 ≤ status then perform (.recordFailure (breakerKey options init)) else pure ()

/-- An answer outside the 2xx that no renewal takes up. -/
def onRefusal (remaining : Nat) (response : HttpAnswered) : HttpProg Continuation := do
  let outcome := AttemptOutcome.http response.statusCode response.retryAfterSeconds
  countFailure options init response.statusCode
  if canRetry options init remaining outcome then return .again outcome
  else
    throw (.baas (options.errorMapper
      { status := response.statusCode, body := response.body, providerSlug := options.providerSlug
        requestId := options.correlationId }))

def onAnswer (remaining attempts : Nat) (authRetried : Bool) (response : HttpAnswered) :
    HttpProg Continuation :=
  if 200 ≤ response.statusCode ∧ response.statusCode < 300 then do
    perform (.recordSuccess (breakerKey options init))
    return .done ⟨response.statusCode, response.body, attempts⟩
  else do
    if ← renewCredentials options authRetried response.statusCode then return .renewed
    else onRefusal options init remaining response

/-- A failure without an answer. -/
def onFailure (remaining attempts : Nat) (error : HttpThrown) : HttpProg Continuation := do
  match error with
  | .other code name =>
    let outcome := toOutcome code name
    perform (.recordFailure (breakerKey options init))
    if canRetry options init remaining outcome then return .again outcome
    else throw (terminalError options init outcome attempts)
  | error => throw error

def attemptOnce (remaining attempts : Nat) (authRetried : Bool) : HttpProg Continuation := do
  perform (.assertClosed (breakerKey options init))
  perform .prepare
  tryCatch (do onAnswer options init remaining attempts authRetried (← perform .attempt))
    (onFailure options init remaining attempts)

/-- Give up when no attempt is left. -/
def exhausted (attempts : Nat) (last : Option AttemptOutcome) : HttpProg HttpResponse := do
  perform .prepare
  throw (terminalError options init (last.getD (.network none)) attempts)

/-- The attempts that follow a renewal of the credentials: there is no second
one. -/
def renewedLoop (attempts : Nat) (last : Option AttemptOutcome) : Nat → HttpProg HttpResponse
  | 0 => exhausted options init attempts last
  | remaining + 1 => do
    match ← attemptOnce options init (remaining + 1) (attempts + 1) true with
    | .done response => return response
    | .renewed => exhausted options init (attempts + 1) last
    | .again outcome =>
      perform (.sleep (attempts - 1) outcome)
      renewedLoop (attempts + 1) (some outcome) remaining

def loop (attempts : Nat) (last : Option AttemptOutcome) : Nat → HttpProg HttpResponse
  | 0 => exhausted options init attempts last
  | remaining + 1 => do
    match ← attemptOnce options init (remaining + 1) (attempts + 1) false with
    | .done response => return response
    | .renewed => renewedLoop options init (attempts + 1) last (remaining + 1)
    | .again outcome =>
      perform (.sleep attempts outcome)
      loop (attempts + 1) (some outcome) remaining

def request : HttpProg HttpResponse := loop options init 0 none (policy options).maxAttempts

end BaasConnector.AdapterKit.HttpClient
