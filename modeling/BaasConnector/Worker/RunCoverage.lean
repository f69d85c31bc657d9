import BaasConnector.Worker.RunJobs

namespace BaasConnector.Worker.RunCoverage

open BaasConnector.Lib.Keyed BaasConnector.Worker.Windows BaasConnector.Worker.RunJobs
open BaasConnector.Worker.Queues (RunStatus queuePolicy)

variable {brasilia : Int → Int} {s : State} {action : Action} {actions : List Action}
    {key : RunKey} {w p : Nat}
variable {runner : Runner}

section Statements

def Enqueuing (s : State) (key : RunKey) : Prop :=
  s.jobs key = none ∧ ∃ p rest, s.sweepers p = .enqueuing key rest

def Enqueued (s : State) (key : RunKey) : Prop :=
  ∃ attemptsMade stalledCount, s.jobs key = some (.waiting attemptsMade stalledCount)

def starting (key : RunKey) (runner : Runner) : Prop := runner = .finding key ∨ runner = .marking key

def executing (key : RunKey) (runner : Runner) : Prop := runner = .loading key ∨ runner = .reconciling key

def Starting (s : State) (key : RunKey) : Prop := ∃ w, starting key (s.runners w)

def Executing (s : State) (key : RunKey) : Prop := ∃ w, executing key (s.runners w)

def completed (status : RunStatus) : Prop := status = .COMPLETED ∨ status = .COMPLETED_WITH_BREAKS

/-- The window is done, is being executed, or will be by a step that is there to be taken. -/
def Covered (s : State) (run : ReconciliationRun) : Prop :=
  completed run.status ∨ Executing s run.key ∨
    (run.status = .QUEUED ∧ (Enqueuing s run.key ∨ Enqueued s run.key ∨ Starting s run.key))

def Queued (s : State) (key : RunKey) : Prop := ∃ run, s.runs.get key = some run ∧ run.status = .QUEUED

/-- What an exception must find so that the window is not lost by it. -/
def SurvivesThrow (s : State) (w : Nat) : Runner → Prop
  | .finding key | .marking key => Queued s key → ∀ attemptsMade stalledCount,
      s.jobs key = some (.active w attemptsMade stalledCount) →
        attemptsMade + 1 < (queuePolicy .reconciliation).attempts
  | .loading _ | .reconciling _ | .resolving _ => False
  | .idle | .closing .. | .failing .. => True

def SurvivesCrash (s : State) (w : Nat) : Runner → Prop
  | .finding key | .marking key => Queued s key → ∀ attemptsMade stalledCount,
      s.jobs key = some (.active w attemptsMade stalledCount) → stalledCount < maxStalledCount
  | .loading _ | .reconciling _ => False
  | .idle | .resolving _ | .closing .. | .failing .. => True

/-- The steps after which every window that was covered still is. -/
def KeepsWindows (s : State) : Action → Prop
  | .abort p => ∀ key rest, s.sweepers p ≠ .enqueuing key rest
  | .work w outside => ∀ key, s.runners w = .loading key → outside.accountFound = true ∧
      outside.statementFacet = true
  | .throw w _ => SurvivesThrow s w (s.runners w)
  | .crash w => SurvivesCrash s w (s.runners w)
  | .openBreak connectionId accountId createdAt now =>
    ∃ run, s.runs.get (syntheticKey connectionId accountId createdAt now) = some run
  | .sweep .. | .advance _ | .take .. => True

end Statements

section Invariant

def calm : Runner → Prop
  | .closing .. | .failing .. => False
  | _ => True

structure Inv (s : State) : Prop where
  queued : ∀ key, Queued s key → Enqueuing s key ∨ Enqueued s key ∨ Starting s key
  running : ∀ key run, s.runs.get key = some run → run.status = .RUNNING → Executing s key
  notFailed : ∀ key run, s.runs.get key = some run → run.status ≠ .FAILED
  held : ∀ w key, (s.runners w).key = some key →
    ∃ attemptsMade stalledCount, s.jobs key = some (.active w attemptsMade stalledCount)
  created : ∀ key job, s.jobs key = some job → ∃ run, s.runs.get key = some run
  enqueuing : ∀ p key rest, s.sweepers p = .enqueuing key rest → ∃ run, s.runs.get key = some run
  calm : ∀ w, calm (s.runners w)

theorem key_of_starting (h : starting key runner) : runner.key = some key := by
  obtain rfl | rfl := h <;> rfl

theorem key_of_executing (h : executing key runner) : runner.key = some key := by
  obtain rfl | rfl := h <;> rfl

theorem inv_init : Inv State.init where
  queued := by
    rintro key ⟨run, hget, -⟩
    cases hget
  running := fun key run hget => by cases hget
  notFailed := fun key run hget => by cases hget
  held := fun w key hkey => by cases hkey
  created := fun key job hjob => by cases hjob
  enqueuing := fun p key rest hp => by cases hp
  calm := fun w => trivial

theorem Inv.setSweeper {sweeper : Sweeper} (h : Inv s) (hold : ∀ key rest, s.sweepers p ≠ .enqueuing key rest)
    (hnew : ∀ key rest, sweeper ≠ .enqueuing key rest) : Inv (s.setSweeper p sweeper) where
  queued := by
    intro key hqueued
    obtain ⟨hjob, p', rest, hp'⟩ | hlater := h.queued key hqueued
    · have hne : p' ≠ p := by
        rintro rfl
        exact hold key rest hp'
      exact .inl ⟨hjob, p', rest, (Function.update_of_ne hne _ _).trans hp'⟩
    · exact .inr hlater
  running := h.running
  notFailed := h.notFailed
  held := h.held
  created := h.created
  enqueuing := by
    intro p' key rest hp'
    by_cases hne : p' = p
    · subst hne
      exact absurd ((Function.update_self ..).symm.trans hp') (hnew key rest)
    · exact h.enqueuing p' key rest ((Function.update_of_ne hne _ _).symm.trans hp')
  calm := h.calm

theorem Inv.create {rest : List Account} (h : Inv s) (hold : ∀ key rest, s.sweepers p ≠ .enqueuing key rest)
    (hnone : s.runs.get key = none) :
    Inv ({ s with runs := s.runs.put (.queued key) }.setSweeper p (.enqueuing key rest)) := by
  have hjob : s.jobs key = none := by
    cases hjob : s.jobs key with
    | none => rfl
    | some job =>
      obtain ⟨run, hrun⟩ := h.created key job hjob
      rw [hnone] at hrun
      cases hrun
  have hget : ∀ key', (s.runs.put (.queued key)).get key' =
      if key' = key then some (.queued key) else s.runs.get key' := fun key' => Rows.get_put s.runs key' _
  have hkeeps : ∀ key', (∃ run, s.runs.get key' = some run) →
    ∃ run, (s.runs.put (.queued key)).get key' = some run := by
    rintro key' ⟨run, hrun⟩
    rw [hget]
    by_cases hk : key' = key
    · exact ⟨_, if_pos hk⟩
    · exact ⟨run, (if_neg hk).trans hrun⟩
  refine ⟨?_, ?_, ?_, h.held, ?_, ?_, h.calm⟩
  · rintro key' ⟨run, hrun, hstatus⟩
    by_cases hk : key' = key
    · subst hk
      exact .inl ⟨hjob, p, rest, Function.update_self ..⟩
    · have hrun' : s.runs.get key' = some run := ((hget key').trans (if_neg hk)).symm.trans hrun
      obtain ⟨hjob', p', rest', hp'⟩ | hlater := h.queued key' ⟨run, hrun', hstatus⟩
      · have hne : p' ≠ p := by
          rintro rfl
          exact hold key' rest' hp'
        exact .inl ⟨hjob', p', rest', (Function.update_of_ne hne _ _).trans hp'⟩
      · exact .inr hlater
  · intro key' run hrun hstatus
    by_cases hk : key' = key
    · have hnew := ((hget key').trans (if_pos hk)).symm.trans hrun
      cases hnew
      cases hstatus
    · exact h.running key' run (((hget key').trans (if_neg hk)).symm.trans hrun) hstatus
  · intro key' run hrun hstatus
    by_cases hk : key' = key
    · have hnew := ((hget key').trans (if_pos hk)).symm.trans hrun
      cases hnew
      cases hstatus
    · exact h.notFailed key' run (((hget key').trans (if_neg hk)).symm.trans hrun) hstatus
  · exact fun key' job hjob' => hkeeps key' (h.created key' job hjob')
  · intro p' key' rest' hp'
    by_cases hne : p' = p
    · subst hne
      cases (Function.update_self ..).symm.trans hp'
      exact ⟨_, (hget _).trans (if_pos rfl)⟩
    · exact hkeeps key' (h.enqueuing p' key' rest' ((Function.update_of_ne hne _ _).symm.trans hp'))

theorem Inv.enqueue {rest : List Account} {sweeper : Sweeper} (h : Inv s)
    (hp : s.sweepers p = .enqueuing key rest)
    (hnew : ∀ key rest, sweeper ≠ .enqueuing key rest) :
    Inv ({ s with jobs := Function.update s.jobs key (some ((s.jobs key).getD (.waiting 0 0))) }.setSweeper p
      sweeper) := by
  have hself : ∀ job, s.jobs key = some job →
      Function.update s.jobs key (some ((s.jobs key).getD (.waiting 0 0))) = s.jobs := by
    intro job hjob
    rw [hjob, Option.getD_some, ← hjob, Function.update_eq_self]
  have hsome : ∀ key' job, s.jobs key' = some job →
      Function.update s.jobs key (some ((s.jobs key).getD (.waiting 0 0))) key' = some job := by
    intro key' job hjob
    by_cases hk : key' = key
    · subst hk
      rw [hself job hjob, hjob]
    · rw [Function.update_of_ne hk, hjob]
  refine ⟨?_, h.running, h.notFailed, ?_, ?_, ?_, h.calm⟩
  · intro key' hqueued
    by_cases hk : key' = key
    · subst hk
      obtain ⟨hjob, -⟩ | ⟨attemptsMade, stalledCount, hjob⟩ | hstarting := h.queued key' hqueued
      · exact .inr (.inl ⟨0, 0, by simp [State.setSweeper, hjob]⟩)
      · exact .inr (.inl ⟨attemptsMade, stalledCount, hsome key' _ hjob⟩)
      · exact .inr (.inr hstarting)
    · obtain ⟨hjob, p', rest', hp'⟩ | ⟨attemptsMade, stalledCount, hjob⟩ | hstarting := h.queued key' hqueued
      · have hne : p' ≠ p := by
          rintro rfl
          cases hp.symm.trans hp'
          exact hk rfl
        exact .inl ⟨(Function.update_of_ne hk _ _).trans hjob, p', rest',
          (Function.update_of_ne hne _ _).trans hp'⟩
      · exact .inr (.inl ⟨attemptsMade, stalledCount, hsome key' _ hjob⟩)
      · exact .inr (.inr hstarting)
  · intro w key' hkey
    obtain ⟨attemptsMade, stalledCount, hjob⟩ := h.held w key' hkey
    exact ⟨attemptsMade, stalledCount, hsome key' _ hjob⟩
  · intro key' job hjob
    by_cases hk : key' = key
    · subst hk
      exact h.enqueuing p key' rest hp
    · exact h.created key' job ((Function.update_of_ne hk _ _).symm.trans hjob)
  · intro p' key' rest' hp'
    by_cases hne : p' = p
    · subst hne
      exact absurd ((Function.update_self ..).symm.trans hp') (hnew key' rest')
    · exact h.enqueuing p' key' rest' ((Function.update_of_ne hne _ _).symm.trans hp')

theorem Inv.take {attemptsMade stalledCount : Nat} (h : Inv s) (hw : s.runners w = .idle)
    (hjob : s.jobs key = some (.waiting attemptsMade stalledCount)) :
    Inv ({ s with
      jobs := Function.update s.jobs key (some (.active w attemptsMade stalledCount)) }.setRunner w
        (.finding key)) := by
  have hother : ∀ w' key', (s.runners w').key = some key' → w' ≠ w ∧ key' ≠ key := by
    intro w' key' hkey
    refine ⟨?_, ?_⟩
    · rintro rfl
      rw [hw] at hkey
      cases hkey
    · rintro rfl
      obtain ⟨attempts, stalled, hactive⟩ := h.held w' key' hkey
      cases hjob.symm.trans hactive
  refine ⟨?_, ?_, h.notFailed, ?_, ?_, h.enqueuing, ?_⟩
  · intro key' hqueued
    by_cases hk : key' = key
    · subst hk
      exact .inr (.inr ⟨w, .inl (Function.update_self ..)⟩)
    · obtain ⟨hnone, hp⟩ | ⟨attempts, stalled, hwaiting⟩ | ⟨w', hw'⟩ := h.queued key' hqueued
      · exact .inl ⟨(Function.update_of_ne hk _ _).trans hnone, hp⟩
      · exact .inr (.inl ⟨attempts, stalled, (Function.update_of_ne hk _ _).trans hwaiting⟩)
      · have hne := (hother w' key' (key_of_starting hw')).1
        refine .inr (.inr ⟨w', ?_⟩)
        simpa only [State.setRunner, Function.update_of_ne hne] using hw'
  · intro key' run hrun hstatus
    obtain ⟨w', hw'⟩ := h.running key' run hrun hstatus
    have hne := (hother w' key' (key_of_executing hw')).1
    refine ⟨w', ?_⟩
    simpa only [State.setRunner, Function.update_of_ne hne] using hw'
  · intro w' key' hkey
    by_cases hne : w' = w
    · subst hne
      simp only [State.setRunner, Function.update_self, Runner.key, Option.some.injEq] at hkey
      subst hkey
      exact ⟨attemptsMade, stalledCount, Function.update_self ..⟩
    · simp only [State.setRunner, Function.update_of_ne hne] at hkey
      obtain ⟨attempts, stalled, hactive⟩ := h.held w' key' hkey
      exact ⟨attempts, stalled, (Function.update_of_ne (hother w' key' hkey).2 _ _).trans hactive⟩
  · intro key' job hjob'
    by_cases hk : key' = key
    · subst hk
      exact h.created key' _ hjob
    · exact h.created key' job ((Function.update_of_ne hk _ _).symm.trans hjob')
  · intro w'
    by_cases hne : w' = w
    · subst hne
      simp only [State.setRunner, Function.update_self]
      trivial
    · simp only [State.setRunner, Function.update_of_ne hne]
      exact h.calm w'

theorem setRunner_of_ne {w' : Nat} (runner : Runner) (hne : w' ≠ w) :
    (s.setRunner w runner).runners w' = s.runners w' := Function.update_of_ne hne _ _

theorem setRunner_self (runner : Runner) : (s.setRunner w runner).runners w = runner :=
  Function.update_self ..

/-- A runner goes on with its run. -/
theorem Inv.setRunner (h : Inv s) (hkey : runner.key = (s.runners w).key)
    (hstarting : ∀ key, starting key (s.runners w) → starting key runner)
    (hexecuting : ∀ key, executing key (s.runners w) → executing key runner)
    (hcalm : RunCoverage.calm runner) : Inv (s.setRunner w runner) := by
  refine ⟨fun key hqueued => ?_, fun key run hrun hstatus => ?_, h.notFailed, fun w' key hw' => ?_, h.created,
    h.enqueuing, fun w' => ?_⟩
  · obtain henqueuing | henqueued | ⟨w', hw'⟩ := h.queued key hqueued
    · exact .inl henqueuing
    · exact .inr (.inl henqueued)
    · refine .inr (.inr ⟨w', ?_⟩)
      by_cases hne : w' = w
      · subst hne
        rw [setRunner_self]
        exact hstarting key hw'
      · rwa [setRunner_of_ne runner hne]
  · obtain ⟨w', hw'⟩ := h.running key run hrun hstatus
    refine ⟨w', ?_⟩
    by_cases hne : w' = w
    · subst hne
      rw [setRunner_self]
      exact hexecuting key hw'
    · rwa [setRunner_of_ne runner hne]
  · refine h.held w' key ?_
    by_cases hne : w' = w
    · subst hne
      rwa [setRunner_self, hkey] at hw'
    · rwa [setRunner_of_ne runner hne] at hw'
  · by_cases hne : w' = w
    · subst hne
      rwa [setRunner_self]
    · rw [setRunner_of_ne runner hne]
      exact h.calm w'

theorem get_setStatus (runs : Runs) (key key' : RunKey) (status : RunStatus) (error : Option String) :
    (runs.setStatus key status error).get key' =
      if key' = key then (runs.get key).map fun run =>
        { run with status := status, error := error.or run.error }
      else runs.get key' := by
  unfold Runs.setStatus
  cases hget : runs.get key with
  | none =>
    by_cases hk : key' = key
    · simp [hk, hget]
    · simp [hk]
  | some run =>
    have hkey : run.key = key := Rows.key_of_get hget
    simp only [Rows.get_put, hkey, Option.map_some]

/-- A runner moves its run on. -/
theorem Inv.setStatus {status : RunStatus} {error : Option String} (h : Inv s)
    (hold : (s.runners w).key = some key)
    (hkey : runner.key = some key) (hqueued : status ≠ .QUEUED) (hfailed : status ≠ .FAILED)
    (hrunning : status = .RUNNING → executing key runner) (hcalm : RunCoverage.calm runner) :
    Inv ({ s with runs := s.runs.setStatus key status error }.setRunner w runner) := by
  have hother : ∀ w' key', (s.runners w').key = some key' → key' ≠ key → w' ≠ w := by
    rintro w' key' hw' hk rfl
    rw [hold] at hw'
    exact hk (Option.some.inj hw').symm
  have hkeeps : ∀ key', (∃ run, s.runs.get key' = some run) →
      ∃ run, (s.runs.setStatus key status error).get key' = some run := by
    rintro key' ⟨run, hrun⟩
    rw [get_setStatus]
    by_cases hk : key' = key
    · subst hk
      rw [if_pos rfl, hrun]
      exact ⟨_, rfl⟩
    · exact ⟨run, (if_neg hk).trans hrun⟩
  have hstatus : ∀ key' run, (s.runs.setStatus key status error).get key' = some run →
      (key' = key ∧ run.status = status) ∨ (key' ≠ key ∧ s.runs.get key' = some run) := by
    intro key' run hrun
    rw [get_setStatus] at hrun
    by_cases hk : key' = key
    · rw [if_pos hk] at hrun
      obtain ⟨old, -, rfl⟩ := Option.map_eq_some_iff.mp hrun
      exact .inl ⟨hk, rfl⟩
    · rw [if_neg hk] at hrun
      exact .inr ⟨hk, hrun⟩
  refine ⟨?_, ?_, ?_, ?_, fun key' job hjob => hkeeps key' (h.created key' job hjob),
    fun p key' rest hp => hkeeps key' (h.enqueuing p key' rest hp), ?_⟩
  · rintro key' ⟨run, hrun, hrunStatus⟩
    obtain ⟨-, hnew⟩ | ⟨hk, hrun'⟩ := hstatus key' run hrun
    · exact absurd (hnew.symm.trans hrunStatus) hqueued
    obtain henqueuing | henqueued | ⟨w', hw'⟩ := h.queued key' ⟨run, hrun', hrunStatus⟩
    · exact .inl henqueuing
    · exact .inr (.inl henqueued)
    · refine .inr (.inr ⟨w', ?_⟩)
      have hsame := setRunner_of_ne (s := { s with runs := s.runs.setStatus key status error }) runner
        (hother w' key' (key_of_starting hw') hk)
      rwa [hsame]
  · intro key' run hrun hrunStatus
    obtain ⟨rfl, hnew⟩ | ⟨hk, hrun'⟩ := hstatus key' run hrun
    · refine ⟨w, ?_⟩
      rw [setRunner_self]
      exact hrunning (hnew.symm.trans hrunStatus)
    · obtain ⟨w', hw'⟩ := h.running key' run hrun' hrunStatus
      refine ⟨w', ?_⟩
      have hsame := setRunner_of_ne (s := { s with runs := s.runs.setStatus key status error }) runner
        (hother w' key' (key_of_executing hw') hk)
      rwa [hsame]
  · intro key' run hrun hrunStatus
    obtain ⟨-, hnew⟩ | ⟨hk, hrun'⟩ := hstatus key' run hrun
    · exact hfailed (hnew.symm.trans hrunStatus)
    · exact h.notFailed key' run hrun' hrunStatus
  · intro w' key' hw'
    refine h.held w' key' ?_
    by_cases hne : w' = w
    · subst hne
      rw [setRunner_self, hkey] at hw'
      rw [hold, hw']
    · have hsame := setRunner_of_ne (s := { s with runs := s.runs.setStatus key status error }) runner hne
      rwa [hsame] at hw'
  · intro w'
    by_cases hne : w' = w
    · subst hne
      rwa [setRunner_self]
    · have hsame := setRunner_of_ne (s := { s with runs := s.runs.setStatus key status error }) runner hne
      rw [hsame]
      exact h.calm w'

/-- A runner lets its job go without leaving a run behind. -/
theorem Inv.release {next : Nat → Nat → Job} {attemptsMade stalledCount : Nat} (h : Inv s)
    (hkey : (s.runners w).key = some key) (hjob : s.jobs key = some (.active w attemptsMade stalledCount))
    (hidle : ¬ executing key (s.runners w))
    (hnext : Queued s key → ∃ attempts stalled, next attemptsMade stalledCount = .waiting attempts stalled) :
    Inv (s.release w next) := by
  have hrelease : s.release w next =
      { s with jobs := Function.update s.jobs key (some (next attemptsMade stalledCount)) }.setRunner w
        .idle := by
    simp only [State.release, hkey, hjob, if_true, State.setRunner]
  rw [hrelease]
  have hother : ∀ w' key', (s.runners w').key = some key' → w' ≠ w → key' ≠ key := by
    rintro w' key' hw' hne rfl
    obtain ⟨attempts, stalled, hactive⟩ := h.held w' key' hw'
    cases hjob.symm.trans hactive
    exact hne rfl
  have hsame : ∀ w', w' ≠ w → ({ s with
      jobs := Function.update s.jobs key (some (next attemptsMade stalledCount)) }.setRunner w
        .idle).runners w' =
      s.runners w' := fun w' hne => Function.update_of_ne hne _ _
  refine ⟨?_, ?_, h.notFailed, ?_, ?_, h.enqueuing, ?_⟩
  · intro key' hqueued
    by_cases hk : key' = key
    · subst hk
      obtain ⟨attempts, stalled, hwaiting⟩ := hnext hqueued
      exact .inr (.inl ⟨attempts, stalled, by rw [← hwaiting]; exact Function.update_self ..⟩)
    · obtain ⟨hnone, hp⟩ | ⟨attempts, stalled, hwaiting⟩ | ⟨w', hw'⟩ := h.queued key' hqueued
      · exact .inl ⟨(Function.update_of_ne hk _ _).trans hnone, hp⟩
      · exact .inr (.inl ⟨attempts, stalled, (Function.update_of_ne hk _ _).trans hwaiting⟩)
      · have hne : w' ≠ w := by
          rintro rfl
          exact hk (Option.some.inj ((key_of_starting hw').symm.trans hkey))
        exact .inr (.inr ⟨w', by rwa [hsame w' hne]⟩)
  · intro key' run hrun hstatus
    obtain ⟨w', hw'⟩ := h.running key' run hrun hstatus
    have hne : w' ≠ w := by
      rintro rfl
      cases (key_of_executing hw').symm.trans hkey
      exact hidle hw'
    exact ⟨w', by rwa [hsame w' hne]⟩
  · intro w' key' hw'
    by_cases hne : w' = w
    · subst hne
      rw [setRunner_self] at hw'
      cases hw'
    · rw [hsame w' hne] at hw'
      obtain ⟨attempts, stalled, hactive⟩ := h.held w' key' hw'
      exact ⟨attempts, stalled, (Function.update_of_ne (hother w' key' hw' hne) _ _).trans hactive⟩
  · intro key' job hjob'
    by_cases hk : key' = key
    · subst hk
      exact h.created key' _ hjob
    · exact h.created key' job ((Function.update_of_ne hk _ _).symm.trans hjob')
  · intro w'
    by_cases hne : w' = w
    · subst hne
      rw [setRunner_self]
      trivial
    · rw [hsame w' hne]
      exact h.calm w'

theorem Inv.advance (h : Inv s) (p : Nat) : Inv (s.advance p) := by
  unfold State.advance
  cases hp : s.sweepers p with
  | idle => exact h
  | sweeping accounts scope window =>
    have hold : ∀ key rest, s.sweepers p ≠ .enqueuing key rest := by simp [hp]
    cases accounts with
    | nil => exact h.setSweeper hold (by simp)
    | cons account rest =>
      by_cases hopened : account.opened = true
      · cases hget : s.runs.get (keyFor account scope window) with
        | some run =>
          simp only [hopened, if_true, hget]
          exact h.setSweeper hold (by simp)
        | none =>
          simp only [hopened, if_true, hget]
          exact h.create hold hget
      · simp only [hopened, Bool.false_eq_true, if_false]
        exact h.setSweeper hold (by simp)
  | enqueuing key rest => exact h.enqueue hp (by simp)

theorem Inv.released {next : Nat → Nat → Job} (h : Inv s) (hkey : (s.runners w).key = some key)
    (hidle : ¬ executing key (s.runners w))
    (hnext : Queued s key → ∀ attemptsMade stalledCount,
      s.jobs key = some (.active w attemptsMade stalledCount) →
      ∃ attempts stalled, next attemptsMade stalledCount = .waiting attempts stalled) :
    Inv (s.release w next) := by
  obtain ⟨attemptsMade, stalledCount, hjob⟩ := h.held w key hkey
  exact h.release hkey hjob hidle fun hqueued => hnext hqueued attemptsMade stalledCount hjob

/-- A runner that is past the mark of its run holds the only job of it. -/
theorem Inv.not_queued (h : Inv s) (hkey : (s.runners w).key = some key)
    (hpast : ¬ starting key (s.runners w)) :
    ¬ Queued s key := by
  intro hqueued
  obtain ⟨attemptsMade, stalledCount, hjob⟩ := h.held w key hkey
  obtain ⟨hnone, -⟩ | ⟨attempts, stalled, hwaiting⟩ | ⟨w', hw'⟩ := h.queued key hqueued
  · cases hjob.symm.trans hnone
  · cases hjob.symm.trans hwaiting
  · obtain ⟨attempts, stalled, hactive⟩ := h.held w' key (key_of_starting hw')
    cases hjob.symm.trans hactive
    exact hpast hw'

theorem Inv.work {outside : Outside} (h : Inv s)
    (houtside : ∀ key, s.runners w = .loading key → outside.accountFound = true ∧
      outside.statementFacet = true) :
    Inv (s.work w outside) := by
  have hcalm := h.calm w
  unfold State.work
  cases hw : s.runners w with
  | idle => exact h
  | finding key =>
    have hkey : (s.runners w).key = some key := by rw [hw]; rfl
    have hidle : ¬ executing key (s.runners w) := by simp [executing, hw]
    simp only
    cases hget : s.runs.get key with
    | none =>
      refine h.released hkey hidle fun hqueued => ?_
      obtain ⟨run, hrun, -⟩ := hqueued
      cases hget.symm.trans hrun
    | some run =>
      simp only
      split
      · refine h.setRunner (by rw [hw]; rfl) (fun key' hstarting => ?_) (fun key' hexecuting => ?_) trivial
        · obtain hsame | hsame := hstarting
          · cases hw.symm.trans hsame
            exact .inr rfl
          · cases hw.symm.trans hsame
        · obtain hsame | hsame := hexecuting <;> cases hw.symm.trans hsame
      · rename_i hother
        refine h.released hkey hidle fun hqueued => ?_
        obtain ⟨run', hrun', hstatus⟩ := hqueued
        cases hget.symm.trans hrun'
        exact absurd hstatus hother
  | marking key =>
    exact h.setStatus (by rw [hw]; rfl) rfl (by decide) (by decide) (fun _ => .inl rfl) trivial
  | loading key =>
    obtain ⟨haccount, hfacet⟩ := houtside key hw
    simp only [haccount, hfacet, if_true]
    refine h.setRunner (by rw [hw]; rfl) (fun key' hstarting => ?_) (fun key' hexecuting => ?_) trivial
    · obtain hsame | hsame := hstarting <;> cases hw.symm.trans hsame
    · obtain hsame | hsame := hexecuting
      · cases hw.symm.trans hsame
        exact .inr rfl
      · cases hw.symm.trans hsame
  | reconciling key =>
    refine h.setStatus (by rw [hw]; rfl) rfl ?_ ?_ (fun hrunning => ?_) trivial
    · split <;> decide
    · split <;> decide
    · split at hrunning <;> cases hrunning
  | resolving key =>
    have hkey : (s.runners w).key = some key := by rw [hw]; rfl
    have hpast := h.not_queued hkey (by simp [starting, hw])
    exact h.released hkey (by simp [executing, hw]) fun hqueued => absurd hqueued hpast
  | closing key reason =>
    rw [hw] at hcalm
    exact hcalm.elim
  | failing key message =>
    rw [hw] at hcalm
    exact hcalm.elim

theorem failed_waiting {attemptsMade stalledCount : Nat}
    (h : attemptsMade + 1 < (queuePolicy .reconciliation).attempts) :
    ∃ attempts stalled, Job.failed attemptsMade stalledCount = .waiting attempts stalled :=
  ⟨attemptsMade + 1, stalledCount, if_pos h⟩

theorem stalled_waiting {attemptsMade stalledCount : Nat} (h : stalledCount < maxStalledCount) :
    ∃ attempts stalled, Job.stalled attemptsMade stalledCount = .waiting attempts stalled :=
  ⟨attemptsMade, stalledCount + 1, if_pos h⟩

theorem Inv.throw {message : String} (h : Inv s) (hkeeps : SurvivesThrow s w (s.runners w)) :
    Inv (s.throw w message) := by
  have hcalm := h.calm w
  unfold State.throw
  cases hw : s.runners w with
  | idle => exact h
  | finding key =>
    rw [hw] at hkeeps
    refine h.released (by rw [hw]; rfl) (by simp [executing, hw])
      fun hqueued attemptsMade stalledCount hjob => ?_
    exact failed_waiting (hkeeps hqueued attemptsMade stalledCount hjob)
  | marking key =>
    rw [hw] at hkeeps
    refine h.released (by rw [hw]; rfl) (by simp [executing, hw])
      fun hqueued attemptsMade stalledCount hjob => ?_
    exact failed_waiting (hkeeps hqueued attemptsMade stalledCount hjob)
  | loading key =>
    rw [hw] at hkeeps
    exact hkeeps.elim
  | reconciling key =>
    rw [hw] at hkeeps
    exact hkeeps.elim
  | resolving key =>
    rw [hw] at hkeeps
    exact hkeeps.elim
  | closing key reason =>
    rw [hw] at hcalm
    exact hcalm.elim
  | failing key reason =>
    rw [hw] at hcalm
    exact hcalm.elim

theorem Inv.crash (h : Inv s) (hkeeps : SurvivesCrash s w (s.runners w)) : Inv (s.release w .stalled) := by
  have hcalm := h.calm w
  cases hw : s.runners w with
  | idle =>
    have hsame : s.release w .stalled = s := by simp only [State.release, hw, Runner.key]
    rwa [hsame]
  | finding key =>
    rw [hw] at hkeeps
    refine h.released (by rw [hw]; rfl) (by simp [executing, hw])
      fun hqueued attemptsMade stalledCount hjob => ?_
    exact stalled_waiting (hkeeps hqueued attemptsMade stalledCount hjob)
  | marking key =>
    rw [hw] at hkeeps
    refine h.released (by rw [hw]; rfl) (by simp [executing, hw])
      fun hqueued attemptsMade stalledCount hjob => ?_
    exact stalled_waiting (hkeeps hqueued attemptsMade stalledCount hjob)
  | resolving key =>
    have hkey : (s.runners w).key = some key := by rw [hw]; rfl
    have hpast := h.not_queued hkey (by simp [starting, hw])
    exact h.released hkey (by simp [executing, hw]) fun hqueued => absurd hqueued hpast
  | loading key =>
    rw [hw] at hkeeps
    exact hkeeps.elim
  | reconciling key =>
    rw [hw] at hkeeps
    exact hkeeps.elim
  | closing key reason =>
    rw [hw] at hcalm
    exact hcalm.elim
  | failing key reason =>
    rw [hw] at hcalm
    exact hcalm.elim

theorem Inv.step (h : Inv s) (hkeeps : KeepsWindows s action) : Inv (s.step brasilia action) := by
  cases action with
  | sweep p scope now accounts =>
    simp only [State.step]
    split
    · rename_i hidle
      exact h.setSweeper (by simp [hidle]) (by simp)
    · exact h
  | advance p => exact h.advance p
  | abort p => exact h.setSweeper hkeeps (by simp)
  | take w key =>
    simp only [State.step, State.take]
    split
    · rename_i hidle hwaiting
      exact h.take hidle hwaiting
    · exact h
  | work w outside => exact h.work hkeeps
  | throw w message => exact h.throw hkeeps
  | crash w => exact h.crash hkeeps
  | openBreak connectionId accountId createdAt now =>
    obtain ⟨run, hrun⟩ := hkeeps
    have hsame : s.runs.createNew (.queued (syntheticKey connectionId accountId createdAt now)) = s.runs := by
      have hkey : s.runs.get (ReconciliationRun.queued
        (syntheticKey connectionId accountId createdAt now)).key =
        some run := hrun
      simp only [Rows.createNew, hkey]
    simp only [State.step, hsame]
    exact h

theorem Inv.covered {run : ReconciliationRun} (h : Inv s) (hrun : s.runs.get key = some run) :
    Covered s run := by
  have hkey : run.key = key := Rows.key_of_get hrun
  subst hkey
  cases hstatus : run.status with
  | QUEUED => exact .inr (.inr ⟨hstatus, h.queued _ ⟨run, hrun, hstatus⟩⟩)
  | RUNNING => exact .inr (.inl (h.running _ run hrun hstatus))
  | COMPLETED => exact .inl (.inl hstatus)
  | COMPLETED_WITH_BREAKS => exact .inl (.inr hstatus)
  | FAILED => exact absurd hstatus (h.notFailed _ run hrun)

end Invariant

end BaasConnector.Worker.RunCoverage
