import BaasConnector.Worker.RunCoverage

namespace BaasConnector.Worker.SkippedWindows

open BaasConnector.Lib.Keyed BaasConnector.Lib.History BaasConnector.Worker.Windows
      BaasConnector.Worker.RunJobs
open BaasConnector.Worker.RunCoverage
open BaasConnector.Worker.Queues (RunStatus)

variable {brasilia : Int → Int} {s : State} {action : Action} {actions : List Action}
    {key : RunKey} {w p : Nat}
variable {runner : Runner}

/-- As long as nothing dies between two steps that belong together, every window
that was created is done, being executed, or still to be executed. -/
theorem no_window_skipped (brasilia : Int → Int) (actions : List Action)
    (h : Always (fun before action => KeepsWindows (run brasilia before) action) actions) :
    ∀ key created, (run brasilia actions).runs.get key = some created →
      Covered (run brasilia actions) created := by
  have hinv : Inv (run brasilia actions) := by
    refine h.induction (I := fun actions => Inv (run brasilia actions)) inv_init
      fun actions action ih hkeeps => ?_
    rw [run_append]
    exact ih.step hkeeps
  exact fun key created hget => hinv.covered hget

def brasiliaOffset (_ : Int) : Int := -10800000

def account : Account := ⟨"acc_1", "con_1", some "provider_1"⟩

def dailyKey : RunKey := ⟨"con_1", "acc_1", .DAILY, ⟨1767225600000, 1767311999999⟩⟩

/-- Two pods sweep, the job fails before the mark of the run and is tried again. -/
def retriedRun : List Action :=
  [.sweep 0 .DAILY 1767344400000 [account], .sweep 1 .DAILY 1767344400001 [account], .advance 0, .advance 1,
    .advance 0, .take 0 dailyKey, .throw 0 "connection lost", .take 1 dailyKey, .work 1 ⟨true, true, false⟩,
    .work 1 ⟨true, true, false⟩, .work 1 ⟨true, true, false⟩, .work 1 ⟨true, true, false⟩, .crash 1]

theorem no_window_skipped_retried :
    Always (fun before action => KeepsWindows (run brasiliaOffset before) action) retriedRun ∧
      ∃ created, (run brasiliaOffset retriedRun).runs.get dailyKey = some created ∧
        created.status = .COMPLETED ∧ Covered (run brasiliaOffset retriedRun) created := by
  have hfrom : AlwaysFrom (fun before action => KeepsWindows (run brasiliaOffset before) action)
    [] retriedRun := by
    refine ⟨trivial, trivial, trivial, trivial, trivial, trivial, ?_, trivial, ?_, ?_,
      ?_, ?_, trivial, trivial⟩
    · intro _ attemptsMade stalledCount hjob
      cases hjob
      decide
    · intro key hloading
      cases hloading
    · intro key hloading
      cases hloading
    · exact fun _ _ => ⟨rfl, rfl⟩
    · intro key hloading
      cases hloading
  have hkeeps : Always (fun before action => KeepsWindows (run brasiliaOffset before) action) retriedRun :=
    hfrom.always always_nil
  have hget : (run brasiliaOffset retriedRun).runs.get dailyKey = some ⟨dailyKey, .COMPLETED, none⟩ := by
    decide
  exact ⟨hkeeps, _, hget, rfl, no_window_skipped brasiliaOffset retriedRun hkeeps dailyKey _ hget⟩

section Abandoned

/-- A run that waits while nothing is left that would take it up. -/
structure Abandoned (s : State) (key : RunKey) : Prop where
  queued : Queued s key
  job : s.jobs key = none
  sweepers : ∀ p rest, s.sweepers p ≠ .enqueuing key rest
  runners : ∀ w, (s.runners w).key ≠ some key

theorem Abandoned.setSweeper {sweeper : Sweeper} (h : Abandoned s key) (p : Nat)
    (hnew : ∀ rest, sweeper ≠ .enqueuing key rest) : Abandoned (s.setSweeper p sweeper) key := by
  refine ⟨h.queued, h.job, fun p' rest hp' => ?_, h.runners⟩
  by_cases hne : p' = p
  · subst hne
    exact hnew rest ((Function.update_self ..).symm.trans hp')
  · exact h.sweepers p' rest ((Function.update_of_ne hne _ _).symm.trans hp')

theorem Abandoned.setRunner (h : Abandoned s key) (w : Nat) (hnew : runner.key ≠ some key) :
    Abandoned (s.setRunner w runner) key := by
  refine ⟨h.queued, h.job, h.sweepers, fun w' => ?_⟩
  by_cases hne : w' = w
  · subst hne
    rwa [setRunner_self]
  · rw [setRunner_of_ne runner hne]
    exact h.runners w'

theorem Abandoned.setJob {other : RunKey} (h : Abandoned s key) (hother : other ≠ key) (job : Job) :
    Abandoned { s with jobs := Function.update s.jobs other (some job) } key :=
  ⟨h.queued, (Function.update_of_ne hother.symm _ _).trans h.job, h.sweepers, h.runners⟩

theorem Abandoned.setStatus {other : RunKey} (h : Abandoned s key) (hother : other ≠ key) (status : RunStatus)
    (error : Option String) : Abandoned { s with runs := s.runs.setStatus other status error } key := by
  obtain ⟨run, hrun, hstatus⟩ := h.queued
  exact ⟨⟨run, by rw [get_setStatus, if_neg hother.symm, hrun], hstatus⟩, h.job, h.sweepers, h.runners⟩

theorem Abandoned.release (h : Abandoned s key) (w : Nat) (next : Nat → Nat → Job) :
    Abandoned (s.release w next) key := by
  have hidle : Runner.idle.key ≠ some key := by simp [Runner.key]
  unfold State.release
  cases hkey : (s.runners w).key with
  | none => exact h
  | some other =>
    have hother : other ≠ key := fun hsame => h.runners w (hsame ▸ hkey)
    simp only
    split
    · split
      · exact (h.setJob hother _).setRunner w hidle
      · exact h.setRunner w hidle
    · exact h.setRunner w hidle

theorem Abandoned.advance (h : Abandoned s key) (p : Nat) : Abandoned (s.advance p) key := by
  unfold State.advance
  cases hp : s.sweepers p with
  | idle => exact h
  | sweeping accounts scope window =>
    cases accounts with
    | nil => exact h.setSweeper p (by simp)
    | cons account rest =>
      by_cases hopened : account.opened = true
      · cases hget : s.runs.get (keyFor account scope window) with
        | some run =>
          simp only [hopened, if_true, hget]
          exact h.setSweeper p (by simp)
        | none =>
          simp only [hopened, if_true, hget]
          obtain ⟨run, hrun, hstatus⟩ := h.queued
          have hother : key ≠ keyFor account scope window := by
            rintro rfl
            cases hget.symm.trans hrun
          have hput : (s.runs.put (.queued (keyFor account scope window))).get key = some run :=
            (Rows.get_put_ne s.runs (.queued (keyFor account scope window)) hother).trans hrun
          have hcreated : Abandoned { s with runs := s.runs.put (.queued (keyFor account scope window)) }
            key :=
            ⟨⟨run, hput, hstatus⟩, h.job, h.sweepers, h.runners⟩
          refine hcreated.setSweeper p fun rest' hsame => ?_
          cases hsame
          exact hother rfl
      · simp only [hopened, Bool.false_eq_true, if_false]
        exact h.setSweeper p (by simp)
  | enqueuing other rest =>
    have hother : other ≠ key := by
      rintro rfl
      exact h.sweepers p rest hp
    exact (h.setJob hother _).setSweeper p (by simp)

theorem Abandoned.work (h : Abandoned s key) (w : Nat) (outside : Outside) :
    Abandoned (s.work w outside) key := by
  have hkey := h.runners w
  unfold State.work
  cases hw : s.runners w with
  | idle => exact h
  | finding other =>
    rw [hw] at hkey
    simp only
    cases s.runs.get other with
    | none => exact h.release w _
    | some run =>
      simp only
      split
      · exact h.setRunner w hkey
      · exact h.release w _
  | marking other =>
    rw [hw] at hkey
    exact (h.setStatus (fun hsame => hkey (congrArg some hsame)) _ _).setRunner w hkey
  | loading other =>
    rw [hw] at hkey
    simp only
    split
    · split <;> exact h.setRunner w hkey
    · exact h.setRunner w hkey
  | reconciling other =>
    rw [hw] at hkey
    exact (h.setStatus (fun hsame => hkey (congrArg some hsame)) _ _).setRunner w hkey
  | resolving other => exact h.release w _
  | closing other reason =>
    rw [hw] at hkey
    exact (h.setStatus (fun hsame => hkey (congrArg some hsame)) _ _).release w _
  | failing other message =>
    rw [hw] at hkey
    exact (h.setStatus (fun hsame => hkey (congrArg some hsame)) _ _).release w _

theorem Abandoned.throw (h : Abandoned s key) (w : Nat) (message : String) :
    Abandoned (s.throw w message) key := by
  have hkey := h.runners w
  unfold State.throw
  cases hw : s.runners w with
  | idle => exact h
  | finding other => exact h.release w _
  | marking other => exact h.release w _
  | failing other reason => exact h.release w _
  | loading other =>
    rw [hw] at hkey
    exact h.setRunner w hkey
  | reconciling other =>
    rw [hw] at hkey
    exact h.setRunner w hkey
  | resolving other =>
    rw [hw] at hkey
    exact h.setRunner w hkey
  | closing other reason =>
    rw [hw] at hkey
    exact h.setRunner w hkey

theorem Abandoned.step (h : Abandoned s key) (action : Action) : Abandoned (s.step brasilia action) key := by
  cases action with
  | sweep p scope now accounts =>
    simp only [State.step]
    split
    · exact h.setSweeper p (by simp)
    · exact h
  | advance p => exact h.advance p
  | abort p => exact h.setSweeper p (by simp)
  | take w other =>
    simp only [State.step, State.take]
    split
    · rename_i hwaiting
      have hother : other ≠ key := by
        rintro rfl
        cases h.job.symm.trans hwaiting
      exact (h.setJob hother _).setRunner w fun hsame => hother (Option.some.inj hsame)
    · exact h
  | work w outside => exact h.work w outside
  | throw w message => exact h.throw w message
  | crash w => exact h.release w _
  | openBreak connectionId accountId createdAt now =>
    obtain ⟨run, hrun, hstatus⟩ := h.queued
    exact ⟨⟨run, Rows.get_createNew_of_some hrun, hstatus⟩, h.job, h.sweepers, h.runners⟩

/-- No later step takes up an abandoned run. -/
theorem Abandoned.run {before : List Action} (h : Abandoned (run brasilia before) key) (after : List Action) :
    Abandoned (run brasilia (before ++ after)) key := by
  induction after using List.reverseRecOn with
  | nil => rwa [List.append_nil]
  | append_singleton after action ih =>
    rw [← List.append_assoc, run_append]
    exact ih.step action

theorem Abandoned.not_covered {created : ReconciliationRun} (h : Abandoned s key)
    (hget : s.runs.get key = some created) : ¬ Covered s created := by
  have hkey : created.key = key := Rows.key_of_get hget
  subst hkey
  obtain ⟨run, hrun, hstatus⟩ := h.queued
  cases hget.symm.trans hrun
  rintro (hdone | ⟨w, hw⟩ | ⟨-, ⟨-, p, rest, hp⟩ | ⟨attemptsMade, stalledCount, hjob⟩ | ⟨w, hw⟩⟩)
  · obtain hdone | hdone := hdone <;> cases hstatus.symm.trans hdone
  · exact h.runners w (key_of_executing hw)
  · exact h.sweepers p rest hp
  · cases h.job.symm.trans hjob
  · exact h.runners w (key_of_starting hw)

end Abandoned

/-- The pod dies, or the queue refuses, between the run and its job. -/
def orphaned : List Action := [.sweep 0 .DAILY 1767344400000 [account], .advance 0, .abort 0]

theorem orphaned_window_skipped :
    (¬ ∀ key created, (run brasiliaOffset orphaned).runs.get key = some created →
        Covered (run brasiliaOffset orphaned) created) ∧
      ∀ after, ∃ created, (run brasiliaOffset (orphaned ++ after)).runs.get dailyKey = some created ∧
        created.status = .QUEUED ∧ ¬ Covered (run brasiliaOffset (orphaned ++ after)) created := by
  have habandoned : Abandoned (run brasiliaOffset orphaned) dailyKey := by
    have hrun : (run brasiliaOffset orphaned).runs.get dailyKey = some (.queued dailyKey) := by decide
    refine ⟨⟨_, hrun, rfl⟩, rfl, fun p rest hp => ?_, fun w hw => by cases hw⟩
    by_cases hne : p = 0
    · subst hne
      cases hp
    · have hsweepers : (run brasiliaOffset orphaned).sweepers =
        Function.update (Function.update (Function.update
          (fun _ => Sweeper.idle) 0 (.sweeping [account] .DAILY dailyKey.window)) 0
            (.enqueuing dailyKey [])) 0
          .idle := rfl
      rw [hsweepers, Function.update_of_ne hne, Function.update_of_ne hne, Function.update_of_ne hne] at hp
      cases hp
  refine ⟨fun hcovered => ?_, fun after => ?_⟩
  · obtain ⟨created, hget, -⟩ := habandoned.queued
    exact habandoned.not_covered hget (hcovered dailyKey created hget)
  · have hlater := habandoned.run after
    obtain ⟨created, hget, hstatus⟩ := hlater.queued
    exact ⟨created, hget, hstatus, hlater.not_covered hget⟩

end BaasConnector.Worker.SkippedWindows
