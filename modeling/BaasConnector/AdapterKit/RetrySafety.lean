import BaasConnector.AdapterKit.Indeterminate

namespace BaasConnector.AdapterKit.RetrySafety

open BaasConnector.Lib.Effects BaasConnector.AdapterKit.Retry BaasConnector.AdapterKit.HttpClient
open BaasConnector.AdapterKit.Indeterminate

inductive HttpEvent
  | attempted (outcome : AttemptOutcome)
  | reauthenticated
deriving DecidableEq

def HttpEvent.isAttempt : HttpEvent → Bool
  | .attempted _ => true
  | .reauthenticated => false

def attemptsOf (log : List HttpEvent) : Nat := log.countP HttpEvent.isAttempt

def reauthenticationsOf (log : List HttpEvent) : Nat := log.countP fun e => !e.isAttempt

/-- The provider has refused the connection or the request before processing it. -/
inductive Refused : AttemptOutcome → Prop
  | connectTimeout : Refused (.timeout .connect)
  | connection : Refused (.network (some "ECONNREFUSED"))
  | hostNotFound : Refused (.network (some "ENOTFOUND"))
  | lookupFailed : Refused (.network (some "EAI_AGAIN"))
  | tooManyRequests (after : Option ℚ) : Refused (.http 429 after)
  | unavailable (after : Option ℚ) : Refused (.http 503 after)

inductive Denied : AttemptOutcome → Prop
  | unauthorized (after : Option ℚ) : Denied (.http 401 after)
  | forbidden (after : Option ℚ) : Denied (.http 403 after)

/-- No error of the connection phase: what the circuit breaker and the credential
store may throw. -/
def HttpThrown.Unconnected (e : HttpThrown) : Prop :=
  ∀ code name, e = .other code name → isProvablyPreCommit (toOutcome code name) = false

/-- The surroundings of a request, with the attempts and the renewals of the
credentials so far, the newest one at the head. -/
def tapped : Prog.Env HttpCall HttpAnswer HttpThrown (List HttpEvent) := fun log q r log' =>
  match q, r with
  | .attempt, .ok answered =>
    log' = .attempted (.http answered.statusCode answered.retryAfterSeconds) :: log
  | .attempt, .error e =>
    ∃ code name, e = .other code name ∧ log' = .attempted (toOutcome code name) :: log
  | .onUnauthorized, .ok true => log' = .reauthenticated :: log
  | .onUnauthorized, .error e | .recordSuccess _, .error e | .recordFailure _, .error e =>
    HttpThrown.Unconnected e ∧ log' = log
  | .sleep .., .error _ => False
  | _, _ => log' = log

/-- The log after which a write may be attempted. -/
inductive Ready : List HttpEvent → Prop
  | start : Ready []
  | refused {o : AttemptOutcome} (log : List HttpEvent) (h : Refused o) : Ready (.attempted o :: log)
  | renewed {o : AttemptOutcome} (log : List HttpEvent) (h : Denied o) :
      Ready (.reauthenticated :: .attempted o :: log)

/-- Every attempt was made when a write may be attempted. -/
inductive Careful : List HttpEvent → Prop
  | nil : Careful []
  | attempted {log : List HttpEvent} (o : AttemptOutcome) (hlog : Careful log) (h : Ready log) :
      Careful (.attempted o :: log)
  | reauthenticated {log : List HttpEvent} {o : AttemptOutcome} (hlog : Careful (.attempted o :: log)) :
      Careful (.reauthenticated :: .attempted o :: log)

theorem refused_of_preCommit {o : AttemptOutcome} (h : isProvablyPreCommit o = true) : Refused o := by
  cases o with
  | http status after =>
    simp only [isProvablyPreCommit, decide_eq_true_eq] at h
    obtain rfl | rfl := h
    · exact .tooManyRequests after
    · exact .unavailable after
  | network code =>
    simp only [isProvablyPreCommit, decide_eq_true_eq] at h
    obtain rfl | rfl | rfl := h
    · exact .connection
    · exact .hostNotFound
    · exact .lookupFailed
  | timeout phase =>
    simp only [isProvablyPreCommit, decide_eq_true_eq] at h
    subst h
    exact .connectTimeout

theorem Careful.tail {e : HttpEvent} {log : List HttpEvent} (h : Careful (e :: log)) : Careful log := by
  cases h with
  | attempted o hlog _ => exact hlog
  | reauthenticated hlog => exact hlog

theorem Careful.older {newer log : List HttpEvent} (h : Careful (newer ++ log)) : Careful log := by
  induction newer with
  | nil => exact h
  | cons e newer ih => exact ih h.tail

/-- Between two attempts there is at most a renewal, and the older one says why
the newer one was made. -/
theorem Careful.excused {newer older : List HttpEvent} {o : AttemptOutcome}
    (h : Careful (newer ++ .attempted o :: older)) (hnewer : ∃ o', HttpEvent.attempted o' ∈ newer) :
    Refused o ∨ Denied o ∧ newer.getLast? = some .reauthenticated := by
  obtain ⟨o', ho'⟩ := hnewer
  obtain ⟨before, e, rfl⟩ : ∃ before e, newer = before ++ [e] :=
    ⟨_, _, (List.dropLast_append_getLast (List.ne_nil_of_mem ho')).symm⟩
  rw [List.append_assoc] at h
  have hlast := h.older
  cases hlast with
  | attempted _ _ hready =>
    cases hready with
    | refused _ hrefused => exact .inl hrefused
  | reauthenticated _ =>
    have hbefore : HttpEvent.attempted o' ∈ before := by simpa using ho'
    obtain ⟨before', e', rfl⟩ : ∃ before' e', before = before' ++ [e'] :=
      ⟨_, _, (List.dropLast_append_getLast (List.ne_nil_of_mem hbefore)).symm⟩
    rw [List.append_assoc] at h
    have hnext := h.older
    cases hnext with
    | attempted _ _ hready =>
      cases hready with
      | renewed _ hdenied => exact .inr ⟨hdenied, by simp⟩

variable {options : HttpClientOptions} {init : HttpRequestInit} {log : List HttpEvent}

theorem refused_of_canRetry {remaining : Nat} {o : AttemptOutcome}
    (h : canRetry options init remaining o = true) (hwrite : isIdempotent init = false) : Refused o := by
  rw [canRetry, hwrite, Bool.false_or, Bool.and_eq_true] at h
  exact refused_of_preCommit h.2

/-- What one attempt adds to the log. -/
def Logged (init : HttpRequestInit) (authRetried : Bool) (log : List HttpEvent) :
    Except HttpThrown Continuation → List HttpEvent → Prop
  | .ok (.done _), log' => ∃ o, log' = .attempted o :: log
  | .ok .renewed, log' => authRetried = false ∧ ∃ o, Denied o ∧ log' = .reauthenticated :: .attempted o :: log
  | .ok (.again _), log' => ∃ o, log' = .attempted o :: log ∧ (isIdempotent init = false → Refused o)
  | .error _, log' => log' = log ∨ ∃ o, log' = .attempted o :: log

/-- What the handler of an attempt finds: an error of the runtime is the
outcome of the attempt, or none of the connection phase. -/
def Handed (init : HttpRequestInit) (authRetried : Bool) (log : List HttpEvent) :
    Except HttpThrown Continuation → List HttpEvent → Prop
  | .error e, log' => ∃ o, log' = .attempted o :: log ∧
      ∀ code name, e = .other code name →
        o = toOutcome code name ∨ isProvablyPreCommit (toOutcome code name) = false
  | r, log' => Logged init authRetried log r log'

theorem onFailure_logged {authRetried : Bool} {remaining attempts : Nat} {e : HttpThrown} {o : AttemptOutcome}
    (he : ∀ code name, e = .other code name →
      o = toOutcome code name ∨ isProvablyPreCommit (toOutcome code name) = false) :
    (onFailure options init remaining attempts e).wp tapped (Logged init authRetried log)
      (.attempted o :: log) := by
  cases e with
  | other code name =>
    refine (Prog.wp_bind _ _ _ _ _).mpr ((Prog.wp_perform _ _ _ _).mpr fun r log' hr => ?_)
    cases r with
    | error e => exact .inr ⟨o, hr.2⟩
    | ok _ =>
      have hlog : log' = .attempted o :: log := hr
      subst hlog
      rw [Prog.onOk_ok]
      cases hretry : canRetry options init remaining (toOutcome code name) with
      | false => exact .inr ⟨o, rfl⟩
      | true =>
        refine ⟨o, rfl, fun hwrite => ?_⟩
        obtain ho | hnot := he code name rfl
        · exact ho ▸ refused_of_canRetry hretry hwrite
        · rw [canRetry, hwrite, hnot, Bool.or_self, Bool.and_false] at hretry
          cases hretry
  | baas error => exact .inr ⟨o, rfl⟩
  | unavailable code slug attempts => exact .inr ⟨o, rfl⟩
  | circuitOpen key => exact .inr ⟨o, rfl⟩
  | outcomeUnknown slug operationId message => exact .inr ⟨o, rfl⟩

theorem onRefusal_handed {authRetried : Bool} {remaining : Nat} {response : HttpAnswered} :
    (onRefusal options init remaining response).wp tapped (Handed init authRetried log)
      (.attempted (.http response.statusCode response.retryAfterSeconds) :: log) := by
  have hrest : (if canRetry options init remaining (.http response.statusCode response.retryAfterSeconds) then
      .pure (.again (.http response.statusCode response.retryAfterSeconds))
    else
      .throw (.baas (options.errorMapper
        { status := response.statusCode, body := response.body, providerSlug := options.providerSlug
          requestId := options.correlationId })) : HttpProg Continuation).wp tapped
      (Handed init authRetried log)
      (.attempted (.http response.statusCode response.retryAfterSeconds) :: log) := by
    split
    · next hretry => exact ⟨_, rfl, refused_of_canRetry hretry⟩
    · exact ⟨_, rfl, fun _ _ h => by cases h⟩
  unfold onRefusal countFailure
  rw [Prog.bind_eq, Prog.wp_bind]
  split
  · refine (Prog.wp_perform _ _ _ _).mpr fun r log' hr => ?_
    cases r with
    | error e => exact ⟨_, hr.2, fun code name h => .inr (hr.1 code name h)⟩
    | ok _ =>
      have hlog : log' = _ := hr
      rw [hlog]
      exact hrest
  · exact hrest

theorem onAnswer_handed {authRetried : Bool} {remaining attempts : Nat} {response : HttpAnswered} :
    (onAnswer options init remaining attempts authRetried response).wp tapped (Handed init authRetried log)
      (.attempted (.http response.statusCode response.retryAfterSeconds) :: log) := by
  unfold onAnswer
  by_cases hok : 200 ≤ response.statusCode ∧ response.statusCode < 300
  · rw [if_pos hok]
    refine (Prog.wp_bind _ _ _ _ _).mpr ((Prog.wp_perform _ _ _ _).mpr fun r log' hr => ?_)
    cases r with
    | error e => exact ⟨_, hr.2, fun code name h => .inr (hr.1 code name h)⟩
    | ok _ => exact ⟨_, hr⟩
  · rw [if_neg hok, Prog.bind_eq, Prog.wp_bind]
    unfold renewCredentials
    split
    · next hrenew =>
      have hdenied : Denied (.http response.statusCode response.retryAfterSeconds) := by
        obtain h | h := hrenew.1
        · exact h ▸ .unauthorized _
        · exact h ▸ .forbidden _
      rw [Prog.wp_perform]
      intro r log' hr
      cases r with
      | error e => exact ⟨_, hr.2, fun code name h => .inr (hr.1 code name h)⟩
      | ok renewed =>
        cases renewed with
        | true => exact ⟨hrenew.2.1, _, hdenied, hr⟩
        | false =>
          have hlog : log' = _ := hr
          rw [hlog]
          exact onRefusal_handed
    · exact onRefusal_handed

theorem attemptOnce_logged {authRetried : Bool} {remaining attempts : Nat} :
    (attemptOnce options init remaining attempts authRetried).wp tapped
      (Logged init authRetried log) log := by
  unfold attemptOnce
  rw [Prog.bind_eq, Prog.wp_bind, Prog.wp_perform]
  intro r log' hr
  have hsame : log' = log := by cases r <;> exact hr
  subst hsame
  cases r with
  | error e => exact .inl rfl
  | ok _ =>
    rw [Prog.onOk_ok, Prog.bind_eq, Prog.wp_bind, Prog.wp_perform]
    intro r log'' hr
    have hsame : log'' = log' := by cases r <;> exact hr
    subst hsame
    cases r with
    | error e => exact .inl rfl
    | ok _ =>
      rw [Prog.onOk_ok, Prog.tryCatch_eq, Prog.wp_tryCatch]
      refine Prog.wp_mono tapped (show Prog.wp tapped _ (Handed init authRetried log'') _ from ?_) ?_
      · rw [Prog.bind_eq, Prog.wp_bind, Prog.wp_perform]
        intro r w hr
        cases r with
        | error e =>
          obtain ⟨code, name, rfl, hw⟩ := hr
          refine ⟨_, hw, fun code' name' h => ?_⟩
          cases h
          exact .inl rfl
        | ok answered =>
          have hw : w = _ := hr
          rw [hw]
          exact onAnswer_handed
      · intro r w hr
        cases r with
        | ok _ => exact hr
        | error e =>
          obtain ⟨o, rfl, he⟩ := hr
          exact onFailure_logged he

/-- The attempts stay within the budget, with one more for a renewal, and a
write is attempted again only after a refusal or a renewal. -/
def Safe (init : HttpRequestInit) (bound : Nat) (log : List HttpEvent) : Prop :=
  attemptsOf log ≤ bound + 1 ∧ reauthenticationsOf log ≤ 1 ∧ (isIdempotent init = false → Careful log)

theorem attemptsOf_attempted (o : AttemptOutcome) (log : List HttpEvent) :
    attemptsOf (.attempted o :: log) = attemptsOf log + 1 := List.countP_cons_of_pos rfl

theorem attemptsOf_reauthenticated (log : List HttpEvent) :
    attemptsOf (.reauthenticated :: log) = attemptsOf log := List.countP_cons_of_neg Bool.false_ne_true

theorem reauthenticationsOf_attempted (o : AttemptOutcome) (log : List HttpEvent) :
    reauthenticationsOf (.attempted o :: log) = reauthenticationsOf log :=
  List.countP_cons_of_neg Bool.false_ne_true

theorem reauthenticationsOf_reauthenticated (log : List HttpEvent) :
    reauthenticationsOf (.reauthenticated :: log) = reauthenticationsOf log + 1 := List.countP_cons_of_pos rfl

/-- What holds of the log before an attempt, with so many attempts left. -/
structure Prepared (init : HttpRequestInit) (bound remaining renewals : Nat) (log : List HttpEvent) :
    Prop where
  attempts : attemptsOf log + remaining ≤ bound + renewals
  renewals_le : renewals ≤ 1
  renewals_eq : reauthenticationsOf log = renewals
  careful : isIdempotent init = false → Careful log
  ready : isIdempotent init = false → Ready log

variable {bound remaining renewals : Nat}

theorem Prepared.safe (h : Prepared init bound remaining renewals log) : Safe init bound log := by
  obtain ⟨hattempts, hle, heq, hcareful, _⟩ := h
  exact ⟨by omega, by omega, hcareful⟩

theorem Prepared.safe_attempted (h : Prepared init bound (remaining + 1) renewals log) (o : AttemptOutcome) :
    Safe init bound (.attempted o :: log) := by
  obtain ⟨hattempts, hle, heq, hcareful, hready⟩ := h
  refine ⟨?_, ?_, fun hwrite => .attempted o (hcareful hwrite) (hready hwrite)⟩
  · rw [attemptsOf_attempted]
    omega
  · rw [reauthenticationsOf_attempted]
    omega

theorem Prepared.again {o : AttemptOutcome} (h : Prepared init bound (remaining + 1) renewals log)
    (ho : isIdempotent init = false → Refused o) :
    Prepared init bound remaining renewals (.attempted o :: log) := by
  obtain ⟨hattempts, hle, heq, hcareful, hready⟩ := h
  refine ⟨?_, hle, ?_, fun hwrite => .attempted o (hcareful hwrite) (hready hwrite),
    fun hwrite => .refused log (ho hwrite)⟩
  · rw [attemptsOf_attempted]
    omega
  · rw [reauthenticationsOf_attempted, heq]

theorem Prepared.renewed {o : AttemptOutcome} (h : Prepared init bound (remaining + 1) 0 log)
    (ho : Denied o) : Prepared init bound (remaining + 1) 1 (.reauthenticated :: .attempted o :: log) := by
  obtain ⟨hattempts, hle, heq, hcareful, hready⟩ := h
  refine ⟨?_, Nat.le_refl 1, ?_, fun hwrite => .reauthenticated
    (.attempted o (hcareful hwrite) (hready hwrite)),
    fun _ => .renewed log ho⟩
  · rw [attemptsOf_reauthenticated, attemptsOf_attempted]
    omega
  · rw [reauthenticationsOf_reauthenticated, reauthenticationsOf_attempted, heq]

theorem exhausted_safe {attempts : Nat} {o : Option AttemptOutcome} (hlog : Safe init bound log) :
    (exhausted options init attempts o).wp tapped (fun _ log' => Safe init bound log') log := by
  unfold exhausted
  rw [Prog.bind_eq, Prog.wp_bind, Prog.wp_perform]
  intro r log' hr
  have hsame : log' = log := by cases r <;> exact hr
  subst hsame
  cases r <;> exact hlog

theorem sleep_safe {attempt : Nat} {o : AttemptOutcome} {p : HttpProg HttpResponse}
    (hp : p.wp tapped (fun _ log' => Safe init bound log') log) :
    ((perform (.sleep attempt o)).bind fun _ => p).wp tapped (fun _ log' => Safe init bound log') log := by
  rw [Prog.wp_bind, Prog.wp_perform]
  intro r log' hr
  cases r with
  | error e => exact hr.elim
  | ok _ =>
    have hsame : log' = log := hr
    rw [hsame]
    exact hp

theorem error_safe {e : HttpThrown} {authRetried : Bool} {log' : List HttpEvent}
    (h : Prepared init bound (remaining + 1) renewals log)
    (hlog : Logged init authRetried log (.error e) log') :
    Safe init bound log' := by
  obtain rfl | ⟨o, rfl⟩ := hlog
  · exact h.safe
  · exact h.safe_attempted o

theorem renewedLoop_safe (remaining attempts : Nat) (o : Option AttemptOutcome) {log : List HttpEvent}
    (h : Prepared init bound remaining 1 log) :
    (renewedLoop options init attempts o remaining).wp tapped (fun _ log' => Safe init bound log') log := by
  induction remaining generalizing attempts o log with
  | zero => exact exhausted_safe h.safe
  | succ remaining ih =>
    unfold renewedLoop
    rw [Prog.bind_eq, Prog.wp_bind]
    refine Prog.wp_mono tapped attemptOnce_logged fun r log' hr => ?_
    cases r with
    | error e => exact error_safe h hr
    | ok continuation =>
      cases continuation with
      | done response =>
        obtain ⟨o, rfl⟩ := hr
        exact h.safe_attempted o
      | renewed => exact absurd hr.1 Bool.true_eq_false.mp
      | again outcome =>
        obtain ⟨o, rfl, ho⟩ := hr
        exact sleep_safe (ih _ _ (h.again ho))

theorem loop_safe (remaining attempts : Nat) (o : Option AttemptOutcome) {log : List HttpEvent}
    (h : Prepared init bound remaining 0 log) :
    (loop options init attempts o remaining).wp tapped (fun _ log' => Safe init bound log') log := by
  induction remaining generalizing attempts o log with
  | zero => exact exhausted_safe h.safe
  | succ remaining ih =>
    unfold loop
    rw [Prog.bind_eq, Prog.wp_bind]
    refine Prog.wp_mono tapped attemptOnce_logged fun r log' hr => ?_
    cases r with
    | error e => exact error_safe h hr
    | ok continuation =>
      cases continuation with
      | done response =>
        obtain ⟨o, rfl⟩ := hr
        exact h.safe_attempted o
      | renewed =>
        obtain ⟨_, o, ho, rfl⟩ := hr
        exact renewedLoop_safe _ _ _ (h.renewed ho)
      | again outcome =>
        obtain ⟨o, rfl, ho⟩ := hr
        exact sleep_safe (ih _ _ (h.again ho))

variable (options init)

/-- A request makes one attempt more than its policy allows at most. A write is
attempted again only after an attempt that was refused, or that was denied and
followed by the one renewal of the credentials. -/
theorem request_attempts_bounded_and_safe :
    (request options init).wp tapped (fun _ log =>
      attemptsOf log ≤ (policy options).maxAttempts + 1 ∧ reauthenticationsOf log ≤ 1 ∧
      (isIdempotent init = false → ∀ newer o older, log = newer ++ .attempted o :: older →
        (∃ o', .attempted o' ∈ newer) →
          Refused o ∨ Denied o ∧ newer.getLast? = some .reauthenticated)) [] := by
  have hstart : Prepared init (policy options).maxAttempts (policy options).maxAttempts 0 [] :=
    ⟨by simp [attemptsOf], by omega, by simp [reauthenticationsOf], fun _ => .nil, fun _ => .start⟩
  refine Prog.wp_mono tapped (loop_safe _ 0 none hstart) fun r log hlog => ?_
  obtain ⟨hattempts, hrenewals, hcareful⟩ := hlog
  refine ⟨hattempts, hrenewals, fun hwrite newer o older heq hnewer => ?_⟩
  have hsplit := hcareful hwrite
  rw [heq] at hsplit
  exact hsplit.excused hnewer

end BaasConnector.AdapterKit.RetrySafety
