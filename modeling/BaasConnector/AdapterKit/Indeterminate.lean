import BaasConnector.AdapterKit.HttpClient
import BaasConnector.Lib.Footprint

namespace BaasConnector.AdapterKit.Indeterminate

open BaasConnector.Lib.Effects BaasConnector.Taxonomy.Errors BaasConnector.AdapterKit.Mapper
open BaasConnector.AdapterKit.Retry BaasConnector.AdapterKit.HttpClient

/-- The surroundings of a request, with the outcome of its last attempt. The
circuit breaker may refuse, preparing and renewing credentials may fail in any
way, and an attempt ends with an answer or with an error of the runtime. -/
def wire : Prog.Env HttpCall HttpAnswer HttpThrown (Option AttemptOutcome) := fun last q r last' =>
  match q, r with
  | .attempt, .ok answered => last' = some (.http answered.statusCode answered.retryAfterSeconds)
  | .attempt, .error e => ∃ code name, e = .other code name ∧ last' = some (toOutcome code name)
  | .assertClosed _, .ok _ | .recordSuccess _, .ok _ | .recordFailure _,
      .ok _ | .sleep .., .ok _ => last' = last
  | .assertClosed key, .error e => e = .circuitOpen key ∧ last' = last
  | .recordSuccess _, .error _ | .recordFailure _, .error _ | .sleep .., .error _ => False
  | .prepare, _ | .onUnauthorized, _ => last' = last

/-- The outcome of the last attempt leaves no doubt. -/
def Settled (last : Option AttemptOutcome) : Prop := ∀ o, last = some o → o.indeterminate = false

/-- The request is reported as unknown exactly when the doubt comes without an answer. -/
def Reported {α : Type} (r : Except HttpThrown α) (last : Option AttemptOutcome) : Prop :=
  ∀ o, last = some o → o.indeterminate = true →
    ((∃ e, r = .error e ∧ e.isOutcomeUnknown = true) ↔ o.answered = false)

theorem Settled.reported {α : Type} {last : Option AttemptOutcome} (h : Settled last)
    (r : Except HttpThrown α) : Reported r last :=
  fun o ho hi => by simp [h o ho] at hi

theorem Reported.error {α β : Type} {e : HttpThrown} {last : Option AttemptOutcome}
    (h : Reported (.error e : Except HttpThrown α) last) :
    Reported (.error e : Except HttpThrown β) last := by
  intro o ho hi
  simpa using h o ho hi

/-- After one attempt the request goes on without doubt, or ends as it should. -/
def Attempted (r : Except HttpThrown Continuation) (last : Option AttemptOutcome) : Prop :=
  match r with
  | .ok _ => Settled last
  | .error _ => Reported r last

theorem toOutcome_answered (code name : Option String) : (toOutcome code name).answered = false := by
  unfold toOutcome
  split_ifs <;> rfl

theorem settled_preCommit {o : AttemptOutcome} (h : isProvablyPreCommit o = true) : Settled (some o) := by
  intro o' ho
  rw [← Option.some.inj ho, AttemptOutcome.indeterminate, h]
  simp

variable {options : HttpClientOptions} {init : HttpRequestInit} {last : Option AttemptOutcome}

theorem settled_of_canRetry {remaining : Nat} {o : AttemptOutcome} (hwrite : isIdempotent init = false)
    (h : canRetry options init remaining o = true) : Settled (some o) := by
  rw [canRetry, hwrite, Bool.false_or, Bool.and_eq_true] at h
  exact settled_preCommit h.2

theorem onFailure_attempted {remaining attempts : Nat} {e : HttpThrown} (hwrite : isIdempotent init = false)
    (hother : ∀ code name, e = .other code name → last = some (toOutcome code name) ∨ Settled last)
    (hbaas : e.isBaasError = true → Reported (.error e : Except HttpThrown Continuation) last) :
    (onFailure options init remaining attempts e).wp wire Attempted last := by
  unfold onFailure
  cases e with
  | other code name =>
    refine (Prog.wp_bind _ _ _ _ _).mpr ((Prog.wp_perform _ _ _ _).mpr fun r last' hr => ?_)
    cases r with
    | error e => exact hr.elim
    | ok _ =>
      have hlast : last' = last := hr
      subst hlast
      rw [Prog.onOk_ok]
      cases hretry : canRetry options init remaining (toOutcome code name) with
      | true =>
        obtain hl | hl := hother code name rfl
        · rw [hl]
          exact settled_of_canRetry hwrite hretry
        · exact hl
      | false =>
        obtain hl | hl := hother code name rfl
        · intro o ho hi
          rw [hl, Option.some.injEq] at ho
          subst ho
          have hdoubt : isProvablyPreCommit (toOutcome code name) = false := by
            simp only [AttemptOutcome.indeterminate, Bool.and_eq_true, Bool.not_eq_true'] at hi
            exact hi.2
          refine iff_of_true ⟨_, rfl, ?_⟩ (toOutcome_answered code name)
          simp [terminalError, hwrite, hdoubt, HttpThrown.isOutcomeUnknown]
        · exact hl.reported _
  | baas error => exact hbaas rfl
  | unavailable code slug attempts => exact hbaas rfl
  | circuitOpen key => exact hbaas rfl
  | outcomeUnknown slug operationId message => exact hbaas rfl

theorem settled_rejected {status : Nat} {retryAfter : Option ℚ} (h : status = 401 ∨ status = 403) :
    Settled (some (.http status retryAfter)) := by
  intro o ho
  rw [← Option.some.inj ho]
  obtain rfl | rfl := h <;> rfl

theorem settled_succeeded {status : Nat} {retryAfter : Option ℚ} (h : 200 ≤ status ∧ status < 300) :
    Settled (some (.http status retryAfter)) := by
  intro o ho
  rw [← Option.some.inj ho, AttemptOutcome.indeterminate, AttemptOutcome.succeeded, decide_eq_true h]
  rfl

/-- What the handler of an attempt finds. -/
def Caught (r : Except HttpThrown Continuation) (last : Option AttemptOutcome) : Prop :=
  match r with
  | .ok _ => Settled last
  | .error e => (∀ code name, e = .other code name → last = some (toOutcome code name) ∨ Settled last) ∧
      (e.isBaasError = true → Reported (.error e : Except HttpThrown Continuation) last)

theorem Settled.caught (h : Settled last) (r : Except HttpThrown Continuation) : Caught r last := by
  cases r with
  | ok _ => exact h
  | error e => exact ⟨fun _ _ _ => .inr h, fun _ => h.reported _⟩

theorem onRefusal_caught {remaining : Nat} {response : HttpAnswered} (hwrite : isIdempotent init = false)
    (hlast : last = some (.http response.statusCode response.retryAfterSeconds)) :
    (onRefusal options init remaining response).wp wire Caught last := by
  have hrest : (if canRetry options init remaining (.http response.statusCode response.retryAfterSeconds) then
      .pure (.again (.http response.statusCode response.retryAfterSeconds))
    else
      .throw (.baas (options.errorMapper
        { status := response.statusCode, body := response.body, providerSlug := options.providerSlug
          requestId := options.correlationId })) : HttpProg Continuation).wp wire Caught last := by
    split
    · next hretry =>
      rw [hlast]
      exact settled_of_canRetry hwrite hretry
    · change Caught (.error _) last
      refine ⟨fun _ _ he => (by cases he), fun _ o ho _ => ?_⟩
      rw [hlast, Option.some.injEq] at ho
      refine iff_of_false ?_ (by rw [← ho]; exact Bool.true_eq_false.mp)
      rintro ⟨e, he, hunknown⟩
      cases he
      cases hunknown
  unfold onRefusal countFailure
  dsimp only
  rw [Prog.bind_eq, Prog.wp_bind]
  split
  · refine (Prog.wp_perform _ _ _ _).mpr fun r last' hr => ?_
    cases r with
    | error e => exact hr.elim
    | ok _ =>
      have hsame : last' = last := hr
      rw [hsame]
      exact hrest
  · exact hrest

theorem onAnswer_caught {remaining attempts : Nat} {authRetried : Bool} {response : HttpAnswered}
    (hwrite : isIdempotent init = false)
    (hlast : last = some (.http response.statusCode response.retryAfterSeconds)) :
    (onAnswer options init remaining attempts authRetried response).wp wire Caught last := by
  unfold onAnswer
  by_cases hok : 200 ≤ response.statusCode ∧ response.statusCode < 300
  · rw [if_pos hok]
    refine (Prog.wp_bind _ _ _ _ _).mpr ((Prog.wp_perform _ _ _ _).mpr fun r last' hr => ?_)
    have hsettled : Settled last := hlast ▸ settled_succeeded hok
    cases r with
    | error e => exact hr.elim
    | ok _ =>
      have hsame : last' = last := hr
      rw [hsame]
      exact hsettled
  · rw [if_neg hok, Prog.bind_eq, Prog.wp_bind]
    unfold renewCredentials
    split
    · next hrenew =>
      rw [Prog.wp_perform]
      intro r last' hr
      have hsame : last' = last := by cases r <;> exact hr
      have hsettled : Settled last' := by
        rw [hsame, hlast]
        exact settled_rejected hrenew.1
      cases r with
      | error e => exact hsettled.caught (.error e)
      | ok renewed =>
        cases renewed with
        | true => exact hsettled
        | false => exact onRefusal_caught hwrite (hsame.trans hlast)
    · exact onRefusal_caught hwrite hlast

theorem attemptOnce_attempted {remaining attempts : Nat} {authRetried : Bool}
    (hwrite : isIdempotent init = false) (hlast : Settled last) :
    (attemptOnce options init remaining attempts authRetried).wp wire Attempted last := by
  unfold attemptOnce
  rw [Prog.bind_eq, Prog.wp_bind, Prog.wp_perform]
  intro r last' hr
  cases r with
  | error e =>
    rw [hr.2]
    exact hlast.reported _
  | ok _ =>
    have hsame : last' = last := hr
    subst hsame
    rw [Prog.onOk_ok, Prog.bind_eq, Prog.wp_bind, Prog.wp_perform]
    intro r last'' hr
    have hsame' : last'' = last' := by cases r <;> exact hr
    subst hsame'
    cases r with
    | error e => exact hlast.reported _
    | ok _ =>
      rw [Prog.onOk_ok, Prog.tryCatch_eq, Prog.wp_tryCatch]
      refine Prog.wp_mono wire (show Prog.wp wire _ Caught _ from ?_) fun r w hr => ?_
      · rw [Prog.bind_eq, Prog.wp_bind, Prog.wp_perform]
        intro r w hr
        cases r with
        | error e =>
          obtain ⟨code, name, rfl, hw⟩ := hr
          refine ⟨fun _ _ he => ?_, fun h => by cases h⟩
          cases he
          exact .inl hw
        | ok answered => exact onAnswer_caught hwrite hr
      · cases r with
        | ok _ => exact hr
        | error e => exact onFailure_attempted hwrite hr.1 hr.2

theorem exhausted_reported {attempts : Nat} {o : Option AttemptOutcome} (hlast : Settled last) :
    (exhausted options init attempts o).wp wire Reported last := by
  unfold exhausted
  rw [Prog.bind_eq, Prog.wp_bind, Prog.wp_perform]
  intro r last' hr
  have hsame : last' = last := by cases r <;> exact hr
  subst hsame
  cases r with
  | error e => exact hlast.reported _
  | ok _ => exact hlast.reported _

theorem sleep_reported {attempt : Nat} {o : AttemptOutcome} {p : HttpProg HttpResponse}
    (hp : p.wp wire Reported last) :
    ((perform (.sleep attempt o)).bind fun _ => p).wp wire Reported last := by
  rw [Prog.wp_bind, Prog.wp_perform]
  intro r last' hr
  cases r with
  | error e => exact hr.elim
  | ok _ =>
    have hsame : last' = last := hr
    rw [hsame]
    exact hp

theorem renewedLoop_reported (hwrite : isIdempotent init = false) (remaining attempts : Nat)
    (o : Option AttemptOutcome) {last : Option AttemptOutcome} (hlast : Settled last) :
    (renewedLoop options init attempts o remaining).wp wire Reported last := by
  induction remaining generalizing attempts o last with
  | zero => exact exhausted_reported hlast
  | succ remaining ih =>
    unfold renewedLoop
    rw [Prog.bind_eq, Prog.wp_bind]
    refine Prog.wp_mono wire (attemptOnce_attempted hwrite hlast) fun r last' hr => ?_
    cases r with
    | error e => exact Reported.error hr
    | ok continuation =>
      have hsettled : Settled last' := hr
      cases continuation with
      | done response => exact hsettled.reported _
      | renewed => exact exhausted_reported hsettled
      | again outcome => exact sleep_reported (ih _ _ hsettled)

theorem loop_reported (hwrite : isIdempotent init = false) (remaining attempts : Nat)
    (o : Option AttemptOutcome) {last : Option AttemptOutcome} (hlast : Settled last) :
    (loop options init attempts o remaining).wp wire Reported last := by
  induction remaining generalizing attempts o last with
  | zero => exact exhausted_reported hlast
  | succ remaining ih =>
    unfold loop
    rw [Prog.bind_eq, Prog.wp_bind]
    refine Prog.wp_mono wire (attemptOnce_attempted hwrite hlast) fun r last' hr => ?_
    cases r with
    | error e => exact Reported.error hr
    | ok continuation =>
      have hsettled : Settled last' := hr
      cases continuation with
      | done response => exact hsettled.reported _
      | renewed => exact renewedLoop_reported hwrite _ _ _ hsettled
      | again outcome => exact sleep_reported (ih _ _ hsettled)

/-- A write whose last attempt leaves a doubt is reported as unknown exactly
when that attempt ended without an answer. -/
theorem doubtful_write_unknown_iff (hwrite : isIdempotent init = false) :
    (request options init).wp wire (fun r last => ∀ o, last = some o → o.indeterminate = true →
      ((∃ e, r = .error e ∧ e.isOutcomeUnknown = true) ↔ o.answered = false)) none :=
  loop_reported hwrite _ 0 none fun o ho => by cases ho

section Sample

def sampleOptions : HttpClientOptions :=
  { providerSlug := "MOCK_BANK", environment := "HOMOLOGACAO", operationId := some "opr_1"
    correlationId := none, retry := none
    errorMapper := buildErrorMapper commonErrorMappings .PROVIDER_REJECTED, renewsCredentials := false }

def sampleWrite : HttpRequestInit := ⟨.POST, "/pix", "write", none⟩

theorem doubtful_write_unknown_iff_post :
    (request sampleOptions sampleWrite).wp wire (fun r last => ∀ o, last = some o → o.indeterminate = true →
      ((∃ e, r = .error e ∧ e.isOutcomeUnknown = true) ↔ o.answered = false)) none :=
  doubtful_write_unknown_iff rfl

/-- A write that the provider answers with 500 is reported as a plain failure. -/
theorem answered_write_reported_failed :
    ¬ ∀ (options : HttpClientOptions) (init : HttpRequestInit), isIdempotent init = false →
      options.errorMapper = buildErrorMapper commonErrorMappings .PROVIDER_REJECTED →
      (request options init).wp wire (fun r last => ∀ o, last = some o → o.indeterminate = true →
        ∃ e, r = .error e ∧ e.isOutcomeUnknown = true) none := by
  intro h
  refine Prog.not_wp_of_may ?_ (h sampleOptions sampleWrite rfl rfl)
  refine ⟨.ok (), none, rfl, .ok (), none, rfl, .ok ⟨500, .null, none⟩, _, rfl, .ok (),
    _, rfl, fun hall => ?_⟩
  obtain ⟨e, he, hunknown⟩ := hall _ rfl rfl
  cases he
  cases hunknown

end Sample

end BaasConnector.AdapterKit.Indeterminate
