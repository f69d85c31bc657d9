import BaasConnector.AdapterKit.CircuitBreaker

namespace BaasConnector.AdapterKit.HalfOpen

open BaasConnector.Lib.History BaasConnector.AdapterKit.CircuitBreaker

variable (policy : BreakerPolicy)

/-- The step lets an attempt run. -/
def Admits (circuit : Circuit) (action : Action) (attempt : Nat) : Prop :=
  action.act = .decide attempt ∧ (∃ read, circuit.attempts[attempt]? = some (.asked read)) ∧
    ∃ probe, (step policy circuit action).attempts[attempt]? = some (.running probe)

/-- An admitted probe ends, with what the breaker is told. -/
def EndsProbe (circuit : Circuit) (action : Action) (report : Option Bool) : Prop :=
  ∃ attempt outcome, action.act = .finish attempt outcome ∧ circuit.attempts[attempt]? =
    some (.running true) ∧
    outcome.report = report

/-- What a circuit promises of one step. -/
structure Disciplined (circuit : Circuit) (action : Action) : Prop where
  cooling : circuit.stateAt policy action.now = .OPEN → ∀ attempt, ¬ Admits policy circuit action attempt
  bounded : ∀ now, (step policy circuit action).stateAt policy now = .HALF_OPEN →
    (step policy circuit action).probes ≤ policy.halfOpenProbes
  admitted : ∀ attempt read, action.act = .decide attempt → circuit.attempts[attempt]? = some (.asked read) →
    circuit.stateAt policy action.now = .HALF_OPEN → circuit.probes < policy.halfOpenProbes →
      Admits policy circuit action attempt
  reopened : EndsProbe circuit action (some false) → (step policy circuit action).openedAt = some action.now
  closed : circuit.openedAt ≠ none → (step policy circuit action).openedAt = none →
    ∃ report, EndsProbe circuit action report

/-- The window of the bucket is over while a probe is running. -/
def Forgets (circuit : Circuit) (now : Int) : Prop :=
  0 < circuit.probes ∧ ∃ stored ∈ circuit.stored, windowOver policy now stored = true

/-- The end of an attempt, a probe or not, goes right with what the breaker is told. -/
def Tells (circuit : Circuit) (now : Int) (probe : Bool) : Option Bool → Prop
  | none => probe = false
  | some success => ¬ Forgets policy circuit now ∧
    if probe then success = true ∨ tips policy (bucket policy now circuit.stored) = true
    else circuit.probes = 0 ∧ (success = true → circuit.stateAt policy now ≠ .HALF_OPEN)

/-- A condition for a step to go right: the state that an attempt has read still stands, no
probe ends untold, and what the breaker is told it takes as it was meant. -/
def Orderly (circuit : Circuit) (action : Action) : Prop :=
  match action.act with
  | .ask => ¬ Forgets policy circuit action.now
  | .decide attempt => ∀ read, circuit.attempts[attempt]? = some (.asked read) →
    read = circuit.stateAt policy action.now ∧ (read ≠ .CLOSED → ¬ Forgets policy circuit action.now)
  | .finish attempt outcome => ∀ probe, circuit.attempts[attempt]? = some (.running probe) →
    Tells policy circuit action.now probe outcome.report

/-- The count of the bucket is right. -/
structure Inv (circuit : Circuit) : Prop where
  counted : (circuit.stored.elim 0 BreakerBucket.probesInFlight) = circuit.probes
  bounded : circuit.probes ≤ policy.halfOpenProbes

variable {policy} {circuit : Circuit} {now : Int} {attempt : Nat}

@[simp] theorem openedAt_bucket (now : Int) (stored : Option BreakerBucket) :
    (bucket policy now stored).openedAt = stored.bind BreakerBucket.openedAt := by
  cases stored with
  | none => rfl
  | some stored =>
    rw [bucket]
    split
    · rfl
    · rfl

theorem probesInFlight_bucket (h : Inv policy circuit) (hkept : ¬ Forgets policy circuit now) :
    (bucket policy now circuit.stored).probesInFlight = circuit.probes := by
  rw [← h.counted]
  cases hstored : circuit.stored with
  | none => rfl
  | some stored =>
    rw [bucket]
    split
    · next hover =>
      have hnone : circuit.probes = 0 := by
        by_contra hne
        exact hkept ⟨Nat.pos_of_ne_zero hne, stored, hstored, hover⟩
      rw [← h.counted, hstored] at hnone
      exact hnone.symm
    · rfl

/-- One attempt moves on. -/
theorem count_set_attempt {attempts : List Attempt} {old : Attempt} (new : Attempt)
    (hold : attempts[attempt]? = some old) :
    (attempts.set attempt new).count (.running true) + (if old = .running true then 1 else 0) =
      attempts.count (.running true) + (if new = .running true then 1 else 0) := by
  obtain ⟨hlt, rfl⟩ := List.getElem?_eq_some_iff.1 hold
  rw [List.count_set hlt]
  simp only [beq_iff_eq]
  split
  · next hrunning =>
    have hpos := List.count_pos_iff.2 (hrunning ▸ List.getElem_mem hlt)
    omega
  · omega

@[simp] theorem probesInFlight_recordSuccess (bucket : BreakerBucket) :
    (recordSuccess policy now bucket).probesInFlight = bucket.probesInFlight - 1 := by
  unfold recordSuccess
  split
  · rfl
  · simp only
    split
    · rfl
    · rfl

@[simp] theorem probesInFlight_recordFailure (bucket : BreakerBucket) :
    (recordFailure policy now bucket).probesInFlight = bucket.probesInFlight - 1 := by
  unfold recordFailure
  simp only
  split
  · rfl
  · rfl

theorem openedAt_recordSuccess (bucket : BreakerBucket) :
    (recordSuccess policy now bucket).openedAt =
      if state policy now bucket = .HALF_OPEN then none else bucket.openedAt := by
  unfold recordSuccess state
  split
  · simp_all
  · simp only
    split
    · simp
    · simp_all

theorem openedAt_recordFailure (bucket : BreakerBucket) :
    (recordFailure policy now bucket).openedAt = if tips policy bucket = true then some now
      else bucket.openedAt := by
  unfold recordFailure
  simp only
  split
  · rfl
  · rfl

/-- A step that neither admits nor ends a probe, and leaves the circuit open if it was. -/
theorem Disciplined.quiet {action : Action} (hinv : Inv policy (step policy circuit action))
    (hact : ∀ attempt read, action.act = .decide attempt → circuit.attempts[attempt]? ≠ some (.asked read))
    (hends : ¬ EndsProbe circuit action (some false))
    (hopened : circuit.openedAt ≠ none → (step policy circuit action).openedAt ≠ none) :
    Disciplined policy circuit action where
  cooling := by
    rintro - attempt ⟨hdecide, ⟨read, hread⟩, -⟩
    exact hact attempt read hdecide hread
  bounded := fun now _ => hinv.bounded
  admitted := fun attempt read hdecide hread => absurd hread (hact attempt read hdecide)
  reopened := fun h => absurd h hends
  closed := fun hopen hclosed => absurd hclosed (hopened hopen)

theorem Inv.ask (h : Inv policy circuit) (hkept : ¬ Forgets policy circuit now) :
    Inv policy (circuit.ask policy now) := by
  have hprobes : (circuit.ask policy now).probes = circuit.probes := by
    simp [Circuit.ask, Circuit.probes]
  refine ⟨?_, by rw [hprobes]; exact h.bounded⟩
  rw [hprobes, ← probesInFlight_bucket h hkept]
  rfl

theorem probes_letRun (policy : BreakerPolicy) (now : Int)
    (stored : Option BreakerBucket) {read : CircuitState}
    (hread : circuit.attempts[attempt]? = some (.asked read)) :
    (circuit.letRun policy now attempt stored).probes =
      circuit.probes + if circuit.stateAt policy now = .HALF_OPEN then 1 else 0 := by
  have hcount := count_set_attempt (.running (circuit.stateAt policy now = .HALF_OPEN)) hread
  simpa [Circuit.letRun, Circuit.probes] using hcount

/-- What an attempt finds that goes on with the state that stands. -/
theorem decide_cases (attempt : Nat) (h : Inv policy circuit)
    (hkept : circuit.stateAt policy now ≠ .CLOSED → ¬ Forgets policy circuit now) :
    let next := circuit.decide policy now attempt (circuit.stateAt policy now)
    (circuit.stateAt policy now = .CLOSED ∧ next = circuit.letRun policy now attempt circuit.stored) ∨
    (circuit.stateAt policy now = .HALF_OPEN ∧ circuit.probes < policy.halfOpenProbes ∧
      ∃ bucket : BreakerBucket, next = circuit.letRun policy now attempt (some bucket) ∧
        bucket.probesInFlight = circuit.probes + 1 ∧ bucket.openedAt = circuit.openedAt) ∨
    (circuit.stateAt policy now ≠ .CLOSED ∧
      (circuit.stateAt policy now = .HALF_OPEN → policy.halfOpenProbes ≤ circuit.probes) ∧
      ∃ bucket : BreakerBucket, next = ⟨some bucket, circuit.attempts.set attempt .over⟩ ∧
        bucket.probesInFlight = circuit.probes ∧ bucket.openedAt = circuit.openedAt) := by
  intro next
  simp only [next, Circuit.decide]
  by_cases hclosed : circuit.stateAt policy now = .CLOSED
  · exact .inl ⟨hclosed, by rw [if_pos hclosed]⟩
  · have hcount := probesInFlight_bucket h (hkept hclosed)
    rw [if_neg hclosed, hcount]
    split
    · next hfree => exact .inr (.inl ⟨hfree.1, hfree.2, _, rfl, rfl, openedAt_bucket now circuit.stored⟩)
    · next hfull =>
      refine .inr (.inr ⟨hclosed, fun hhalf => ?_, _, rfl, hcount, openedAt_bucket now circuit.stored⟩)
      exact Nat.not_lt.1 fun hlt => hfull ⟨hhalf, hlt⟩

theorem probes_over (circuit' : Circuit) {old : Attempt} (hold : circuit.attempts[attempt]? = some old)
    (hnext : circuit'.attempts = circuit.attempts.set attempt .over) :
    circuit'.probes + (if old = .running true then 1 else 0) = circuit.probes := by
  simpa [Circuit.probes, hnext] using count_set_attempt .over hold

theorem Inv.decide (h : Inv policy circuit)
    (hread : circuit.attempts[attempt]? = some (.asked (circuit.stateAt policy now)))
    (hkept : circuit.stateAt policy now ≠ .CLOSED → ¬ Forgets policy circuit now) :
    Inv policy (circuit.decide policy now attempt (circuit.stateAt policy now)) := by
  obtain ⟨hclosed, hnext⟩ | ⟨hhalf, hfree, bucket, hnext, hcount, -⟩ | ⟨-, -, bucket, hnext, hcount, -⟩ :=
    decide_cases attempt h hkept
  · have hprobes := probes_letRun policy now circuit.stored hread
    rw [hclosed, if_neg nofun, Nat.add_zero] at hprobes
    rw [hnext]
    exact ⟨hprobes ▸ h.counted, hprobes ▸ h.bounded⟩
  · have hprobes := probes_letRun policy now (some bucket) hread
    rw [if_pos hhalf] at hprobes
    rw [hnext]
    exact ⟨hprobes ▸ hcount, hprobes ▸ hfree⟩
  · have hprobes := probes_over ⟨some bucket, circuit.attempts.set attempt .over⟩ hread rfl
    rw [if_neg nofun, Nat.add_zero] at hprobes
    rw [hnext]
    exact ⟨hprobes ▸ hcount, hprobes ▸ h.bounded⟩

theorem getElem?_over {attempts : List Attempt} :
    (attempts.set attempt .over)[attempt]? ≠ some (.running true) ∧
      (attempts.set attempt .over)[attempt]? ≠ some (.running false) := by
  rw [List.getElem?_set]
  split
  · split
    · simp
    · simp
  · simp_all

theorem getElem?_letRun {read : CircuitState} {stored : Option BreakerBucket}
    (hread : circuit.attempts[attempt]? = some (.asked read)) :
    ∃ probe, (circuit.letRun policy now attempt stored).attempts[attempt]? = some (.running probe) := by
  obtain ⟨hlt, -⟩ := List.getElem?_eq_some_iff.1 hread
  exact ⟨_, by rw [Circuit.letRun, List.getElem?_set_self hlt]⟩

theorem disciplined_decide (h : Inv policy circuit)
    (hread : circuit.attempts[attempt]? = some (.asked (circuit.stateAt policy now)))
    (hkept : circuit.stateAt policy now ≠ .CLOSED → ¬ Forgets policy circuit now) :
    Disciplined policy circuit ⟨now, .decide attempt⟩ := by
  have hstep : step policy circuit ⟨now, .decide attempt⟩ =
      circuit.decide policy now attempt (circuit.stateAt policy now) := by
    simp [step, hread]
  have hcases := decide_cases attempt h hkept
  refine ⟨?_, ?_, ?_, ?_, ?_⟩
  · rintro hopen _ ⟨hact, -, probe, hprobe⟩
    cases hact
    rw [hstep] at hprobe
    obtain ⟨hclosed, -⟩ | ⟨hhalf, -⟩ | ⟨-, -, bucket, hnext, -⟩ := hcases
    · exact absurd (hopen.symm.trans hclosed) nofun
    · exact absurd (hopen.symm.trans hhalf) nofun
    · rw [hnext] at hprobe
      cases probe with
      | true => exact getElem?_over.1 hprobe
      | false => exact getElem?_over.2 hprobe
  · intro now' _
    rw [hstep]
    exact (h.decide hread hkept).bounded
  · rintro _ read hact hread' hhalf hfree
    cases hact
    refine ⟨rfl, ⟨read, hread'⟩, ?_⟩
    rw [hstep]
    obtain ⟨hclosed, -⟩ | ⟨-, -, bucket, hnext, -⟩ | ⟨-, hfull, -⟩ := hcases
    · exact absurd (hhalf.symm.trans hclosed) nofun
    · rw [hnext]
      exact getElem?_letRun hread
    · exact absurd (hfull hhalf) (Nat.not_le.2 hfree)
  · rintro ⟨_, _, hact, -⟩
    cases hact
  · intro hopen hclosed
    refine absurd ?_ hopen
    rw [← hclosed, hstep]
    obtain ⟨-, hnext⟩ | ⟨-, -, bucket, hnext, -, hopened⟩ | ⟨-, -, bucket, hnext, -, hopened⟩ := hcases
    · rw [hnext]
      rfl
    · rw [hnext]
      exact hopened.symm
    · rw [hnext]
      exact hopened.symm

/-- What is left of the bucket when an attempt ends. -/
structure Finished (policy : BreakerPolicy) (circuit : Circuit) (now : Int)
    (attempt : Nat) (outcome : Outcome)
    (probe : Bool) : Prop where
  counted : ((circuit.finish policy now attempt outcome).stored.elim 0 BreakerBucket.probesInFlight) =
    circuit.probes - if probe then 1 else 0
  reopened : probe = true → outcome.report = some false →
    (circuit.finish policy now attempt outcome).openedAt = some now
  closed : probe = false → circuit.openedAt ≠ none →
    (circuit.finish policy now attempt outcome).openedAt ≠ none

theorem finished_success (h : Inv policy circuit) {outcome : Outcome} {probe : Bool}
    (hreport : outcome.report = some true) (htells : Tells policy circuit now probe (some true)) :
    Finished policy circuit now attempt outcome probe := by
  obtain ⟨hkept, htells⟩ := htells
  have hstored : (circuit.finish policy now attempt outcome).stored =
      some (recordSuccess policy now (bucket policy now circuit.stored)) := by
    simp [Circuit.finish, hreport]
  refine ⟨?_, fun _ hfailure => by simp [hreport] at hfailure, ?_⟩
  · rw [hstored, Option.elim_some, probesInFlight_recordSuccess, probesInFlight_bucket h hkept]
    cases probe with
    | true => rfl
    | false =>
      have hnone : circuit.probes = 0 := htells.1
      simp [hnone]
  · rintro rfl hopen
    have hstate : state policy now (bucket policy now circuit.stored) ≠ .HALF_OPEN := htells.2 rfl
    rw [Circuit.openedAt, hstored, Option.bind_some, openedAt_recordSuccess, if_neg hstate, openedAt_bucket]
    exact hopen

theorem finished_failure (h : Inv policy circuit) {outcome : Outcome} {probe : Bool}
    (hreport : outcome.report = some false) (htells : Tells policy circuit now probe (some false)) :
    Finished policy circuit now attempt outcome probe := by
  obtain ⟨hkept, htells⟩ := htells
  have hstored : (circuit.finish policy now attempt outcome).stored =
      some (recordFailure policy now (bucket policy now circuit.stored)) := by
    simp [Circuit.finish, hreport]
  refine ⟨?_, ?_, ?_⟩
  · rw [hstored, Option.elim_some, probesInFlight_recordFailure, probesInFlight_bucket h hkept]
    cases probe with
    | true => rfl
    | false =>
      have hnone : circuit.probes = 0 := htells.1
      simp [hnone]
  · rintro rfl -
    have htips : tips policy (bucket policy now circuit.stored) = true := htells.resolve_left nofun
    rw [Circuit.openedAt, hstored, Option.bind_some, openedAt_recordFailure, if_pos htips]
  · rintro - hopen
    rw [Circuit.openedAt, hstored, Option.bind_some, openedAt_recordFailure, openedAt_bucket]
    split
    · exact nofun
    · exact hopen

theorem finished (attempt : Nat) (h : Inv policy circuit) {outcome : Outcome} {probe : Bool}
    (htells : Tells policy circuit now probe outcome.report) :
    Finished policy circuit now attempt outcome probe := by
  cases hreport : outcome.report with
  | none =>
    rw [hreport] at htells
    have hstored : (circuit.finish policy now attempt outcome).stored = circuit.stored := by
      simp [Circuit.finish, hreport]
    refine ⟨?_, fun _ hfailure => by simp [hreport] at hfailure, fun _ hopen => ?_⟩
    · rw [hstored, h.counted, htells]
      simp
    · rw [Circuit.openedAt, hstored]
      exact hopen
  | some success =>
    rw [hreport] at htells
    cases success with
    | true => exact finished_success h hreport htells
    | false => exact finished_failure h hreport htells

theorem inv_finish (h : Inv policy circuit) {outcome : Outcome} {probe : Bool}
    (hrunning : circuit.attempts[attempt]? = some (.running probe))
    (htells : Tells policy circuit now probe outcome.report) :
    Inv policy (circuit.finish policy now attempt outcome) := by
  have hprobes := probes_over (circuit.finish policy now attempt outcome) hrunning rfl
  have hcounted := (finished attempt h htells).counted
  have hbounded := h.bounded
  simp only [Attempt.running.injEq] at hprobes
  constructor
  · omega
  · omega

theorem disciplined_finish (h : Inv policy circuit) {outcome : Outcome} {probe : Bool}
    (hrunning : circuit.attempts[attempt]? = some (.running probe))
    (htells : Tells policy circuit now probe outcome.report) :
    Disciplined policy circuit ⟨now, .finish attempt outcome⟩ := by
  have hstep : step policy circuit ⟨now, .finish attempt outcome⟩ =
    circuit.finish policy now attempt outcome := by
    simp [step, hrunning]
  have hfinished := finished attempt h htells
  refine ⟨?_, ?_, ?_, ?_, ?_⟩
  · rintro - _ ⟨hact, -⟩
    cases hact
  · intro now' _
    rw [hstep]
    exact (inv_finish h hrunning htells).bounded
  · rintro _ read hact
    cases hact
  · rintro ⟨_, _, hact, hprobe, hreport⟩
    cases hact
    rw [hrunning] at hprobe
    cases hprobe
    rw [hstep]
    exact hfinished.reopened rfl hreport
  · intro hopen hclosed
    rw [hstep] at hclosed
    cases probe with
    | true => exact ⟨_, _, _, rfl, hrunning, rfl⟩
    | false => exact absurd hclosed (hfinished.closed rfl hopen)

theorem quiet_step {action : Action} (h : Inv policy circuit) (hstep : step policy circuit action = circuit)
    (hact : ∀ attempt read, action.act = .decide attempt → circuit.attempts[attempt]? ≠ some (.asked read))
    (hends : ¬ EndsProbe circuit action (some false)) :
    Inv policy (step policy circuit action) ∧ Disciplined policy circuit action := by
  have hinv : Inv policy (step policy circuit action) := by rwa [hstep]
  exact ⟨hinv, .quiet hinv hact hends (by rw [hstep]; exact fun hopen => hopen)⟩

/-- An orderly step keeps the count right, and to the discipline. -/
theorem orderly_step {action : Action} (h : Inv policy circuit) (horderly : Orderly policy circuit action) :
    Inv policy (step policy circuit action) ∧ Disciplined policy circuit action := by
  obtain ⟨now, act⟩ := action
  cases act with
  | ask =>
    have hinv := h.ask horderly
    refine ⟨hinv, .quiet hinv nofun ?_ ?_⟩
    · rintro ⟨_, _, hact, -⟩
      cases hact
    · intro hopen
      have hopened : (circuit.ask policy now).openedAt = circuit.openedAt :=
        openedAt_bucket now circuit.stored
      exact hopened ▸ hopen
  | decide attempt =>
    by_cases hasked : ∃ read, circuit.attempts[attempt]? = some (.asked read)
    · obtain ⟨read, hattempt⟩ := hasked
      obtain ⟨rfl, hkept⟩ := horderly read hattempt
      have hstep : step policy circuit ⟨now, .decide attempt⟩ =
          circuit.decide policy now attempt (circuit.stateAt policy now) := by
        simp [step, hattempt]
      exact ⟨hstep ▸ h.decide hattempt hkept, disciplined_decide h hattempt hkept⟩
    · apply quiet_step h
      · simp only [step]
        split
        · next read hread => exact absurd ⟨read, hread⟩ hasked
        · rfl
      · rintro _ read hact hread
        cases hact
        exact hasked ⟨read, hread⟩
      · rintro ⟨_, _, hact, -⟩
        cases hact
  | finish attempt outcome =>
    by_cases hrunning : ∃ probe, circuit.attempts[attempt]? = some (.running probe)
    · obtain ⟨probe, hattempt⟩ := hrunning
      have hstep : step policy circuit ⟨now, .finish attempt outcome⟩ =
          circuit.finish policy now attempt outcome := by
        simp [step, hattempt]
      have htells := horderly probe hattempt
      exact ⟨hstep ▸ inv_finish h hattempt htells, disciplined_finish h hattempt htells⟩
    · apply quiet_step h
      · simp only [step]
        split
        · next probe hprobe => exact absurd ⟨probe, hprobe⟩ hrunning
        · rfl
      · rintro _ read hact
        cases hact
      · rintro ⟨_, _, hact, hprobe, -⟩
        cases hact
        exact hrunning ⟨true, hprobe⟩

/-- In an orderly run every step keeps to the discipline. -/
theorem orderly_run_disciplined {actions : List Action}
    (h : Always (fun before action => Orderly policy (run policy before) action) actions) :
    Always (fun before action => Disciplined policy (run policy before) action) actions :=
  h.kept ⟨rfl, Nat.zero_le _⟩ orderly_step

def strict : BreakerPolicy := { defaultBreakerPolicy with minimumRequests := 1, halfOpenProbes := 1 }

/-- An attempt fails, and a probe after the cool-down succeeds. -/
def recovery : List Action :=
  [⟨0, .ask⟩, ⟨0, .decide 0⟩, ⟨5, .finish 0 .failed⟩, ⟨30005, .ask⟩, ⟨30005, .decide 1⟩,
    ⟨30010, .finish 1 (.answered 200)⟩]

theorem recovery_disciplined :
    Always (fun before action => Disciplined strict (run strict before) action) recovery := by
  apply orderly_run_disciplined
  refine AlwaysFrom.always (show AlwaysFrom _ [] recovery from ⟨?_, ?_, ?_, ?_, ?_, ?_, trivial⟩) always_nil
  · exact fun hforgets => absurd hforgets.1 (by decide)
  · intro read hread
    cases (show _ = some (Attempt.asked .CLOSED) by decide).symm.trans hread
    exact ⟨by decide, fun _ hforgets => absurd hforgets.1 (by decide)⟩
  · intro probe hprobe
    cases (show _ = some (Attempt.running false) by decide).symm.trans hprobe
    exact ⟨fun hforgets => absurd hforgets.1 (by decide), by decide, nofun⟩
  · exact fun hforgets => absurd hforgets.1 (by decide)
  · intro read hread
    cases (show _ = some (Attempt.asked .HALF_OPEN) by decide).symm.trans hread
    exact ⟨by decide, fun _ hforgets => absurd hforgets.1 (by decide)⟩
  · intro probe hprobe
    cases (show _ = some (Attempt.running true) by decide).symm.trans hprobe
    refine ⟨fun ⟨_, stored, hstored, hover⟩ => ?_, .inl rfl⟩
    cases (show _ = some (⟨0, 1, 0, some 5, 1⟩ : BreakerBucket) by decide).symm.trans hstored
    exact absurd hover (by decide)

/-- Twenty attempts that fail forty seconds into their window, and one more after the cool-down. -/
def lateWindow : List Action :=
  (List.range 20).flatMap (fun attempt => [⟨0, .ask⟩, ⟨0, .decide attempt⟩]) ++
    (List.range 20).map (fun attempt => ⟨40000, .finish attempt (.answered 503)⟩) ++
    [⟨70000, .ask⟩, ⟨70000, .decide 20⟩]

theorem failed_probe_ignored : ¬ ∀ policy actions,
    Always (fun before action => Disciplined policy (run policy before) action) actions := by
  intro h
  have hlast := h defaultBreakerPolicy (lateWindow ++ [⟨70005, .finish 20 .failed⟩]) lateWindow _ [] rfl
  have hopened := hlast.reopened ⟨20, .failed, rfl, by decide +kernel, rfl⟩
  revert hopened
  decide +kernel

end BaasConnector.AdapterKit.HalfOpen
