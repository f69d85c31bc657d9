import BaasConnector.Lib.History
import BaasConnector.Webhooks.AggregateLock

namespace BaasConnector.Webhooks.LockOwnership

open BaasConnector.Lib.History BaasConnector.Webhooks.AggregateLock

/-- A tick reaches Redis within 30 seconds of the refresh before it, or finds no
key. The answer to a SET is heard within 30 seconds, or while no other call has
its lock or its task. A call asks while no task runs with a lapsed lock. -/
def Timely (s : State) : Action → Prop
  | .set token => s.phase token = .asking → ∀ other, s.phase other = .running → ¬ s.Lapsed other
  | .heard token => s.phase token = .granted → ¬ s.Lapsed token ∨
      ∀ other, other ≠ token → s.phase other ≠ .granted ∧ s.phase other ≠ .running
  | .pexpire token => s.phase token = .running ∨ s.phase token = .completed →
      ¬ s.Lapsed token ∨ s.current = none
  | _ => True

/-- Whether a call was granted the lock, and has not given it up. -/
def Holding : Phase → Prop
  | .granted | .running | .completed => True
  | .asking | .done => False

/-- A call whose lock has not lapsed has the key, one task runs at a time, and
beside it only lapsed calls have yet to hear of their lock. -/
structure Inv (s : State) : Prop where
  owned : ∀ token, Holding (s.phase token) → ¬ s.Lapsed token →
    ∃ expiresAt, s.key = some (token, expiresAt) ∧ s.refreshedAt token + 30000 ≤ expiresAt
  alone : ∀ token other, s.phase token = .running → s.phase other = .running → token = other
  granted : ∀ token other, s.phase token = .running → s.phase other = .granted → s.Lapsed other

variable {s : State} {token : Nat}

theorem Inv.current (h : Inv s) (hphase : Holding (s.phase token)) (hlive : ¬ s.Lapsed token) :
    s.current = some token := by
  obtain ⟨expiresAt, hkey, hle⟩ := h.owned token hphase hlive
  exact current_eq_some.mpr ⟨expiresAt, hkey, Int.lt_of_lt_of_le (Int.not_le.mp hlive) hle⟩

theorem Inv.lapsed (h : Inv s) (hphase : Holding (s.phase token)) (hother : s.current ≠ some token) :
    s.Lapsed token :=
  Decidable.not_not.mp fun hlive => hother (h.current hphase hlive)

theorem initial_inv : Inv .initial where
  owned token hphase _ := hphase.elim
  alone token other htoken _ := by cases htoken
  granted token other htoken _ := by cases htoken

theorem Inv.elapse (h : Inv s) (ms : Nat) : Inv (s.elapse ms) := by
  have hlapsed : ∀ token, s.Lapsed token → (s.elapse ms).Lapsed token := by
    intro token hlapsed
    simp only [State.Lapsed, State.elapse] at hlapsed ⊢
    omega
  refine ⟨fun token hphase hlive => ?_, h.alone, fun token other htoken hother => ?_⟩
  · exact h.owned token hphase fun hold => hlive (hlapsed token hold)
  · exact hlapsed other (h.granted token other htoken hother)

theorem enter_self (s : State) (token : Nat) (phase : Phase) : (s.enter token phase).phase token = phase :=
  Function.update_self ..

theorem enter_of_ne {other : Nat} (phase : Phase) (hother : other ≠ token) :
    (s.enter token phase).phase other = s.phase other :=
  Function.update_of_ne hother ..

/-- A call that goes on to neither the lock nor the task disturbs no other one. -/
theorem Inv.enter (h : Inv s) {phase : Phase} (hphase : phase ≠ .granted ∧ phase ≠ .running)
    (hold : Holding phase → Holding (s.phase token)) : Inv (s.enter token phase) := by
  have hkept : ∀ {other : Nat} {phase' : Phase}, phase ≠ phase' →
      (s.enter token phase).phase other = phase' → s.phase other = phase' := by
    intro other phase' hne heq
    by_cases hother : other = token
    · rw [hother, enter_self] at heq
      exact absurd heq hne
    · rwa [enter_of_ne phase hother] at heq
  refine ⟨fun other hother hlive => h.owned other ?_ hlive, fun a b ha hb => ?_, fun a b ha hb => ?_⟩
  · by_cases hsame : other = token
    · rw [hsame, enter_self] at hother
      exact hsame ▸ hold hother
    · rwa [enter_of_ne phase hsame] at hother
  · exact h.alone a b (hkept hphase.2 ha) (hkept hphase.2 hb)
  · exact h.granted a b (hkept hphase.2 ha) (hkept hphase.1 hb)

theorem Inv.set (h : Inv s) (htimely : Timely s (.set token)) : Inv (s.set token) := by
  unfold State.set
  split
  · next hasking =>
    split
    · next hfree =>
      -- the key is free, so whoever holds the lock has lapsed, and no task runs
      have hnone : ∀ other, Holding (s.phase other) → s.Lapsed other := fun other hphase =>
        h.lapsed hphase (by rw [hfree]; exact Option.some_ne_none other |>.symm)
      have hidle : ∀ other, s.phase other ≠ .running := fun other hrunning =>
        htimely hasking other hrunning (hnone other (by rw [hrunning]; trivial))
      have hrunning : ∀ other, (s.enter token .granted).phase other ≠ .running := by
        intro other
        by_cases hother : other = token
        · rw [hother, enter_self]
          exact Phase.noConfusion
        · rw [enter_of_ne _ hother]
          exact hidle other
      refine ⟨fun other hphase hlive => ?_, fun a b ha => absurd ha (hrunning a),
        fun a b ha => absurd ha (hrunning a)⟩
      by_cases hother : other = token
      · refine ⟨s.now + lockTtlMs, by rw [hother], ?_⟩
        simp only [hother, Function.update_self, lockTtlMs, Int.le_refl]
      · have hphase' : Holding (s.phase other) := by
          simpa only [State.enter, Function.update_of_ne hother] using hphase
        refine absurd (hnone other hphase') ?_
        simpa only [State.Lapsed, State.enter, Function.update_of_ne hother] using hlive
    · exact h.enter ⟨Phase.noConfusion, Phase.noConfusion⟩ False.elim
  · exact h

theorem Inv.heard (h : Inv s) (htimely : Timely s (.heard token)) : Inv (s.heard token) := by
  unfold State.heard
  split
  · next hgranted =>
    have hholding : Holding (s.phase token) := by rw [hgranted]; trivial
    have hothers : ∀ other, other ≠ token → s.phase other ≠ .running ∧
        (s.phase other = .granted → s.Lapsed other) := by
      intro other hother
      obtain hlive | hquiet := htimely hgranted
      · refine ⟨fun hrunning => hlive (h.granted other token hrunning hgranted), fun hphase => ?_⟩
        refine h.lapsed (by rw [hphase]; trivial) ?_
        rw [h.current hholding hlive]
        exact fun heq => hother (Option.some.inj heq).symm
      · exact ⟨(hquiet other hother).2, fun hphase => absurd hphase (hquiet other hother).1⟩
    have hrunning : ∀ other, (s.enter token .running).phase other = .running → other = token := by
      intro other hphase
      by_contra hother
      rw [enter_of_ne _ hother] at hphase
      exact (hothers other hother).1 hphase
    refine ⟨fun other hphase hlive => h.owned other ?_ hlive, fun a b ha hb => ?_, fun a b _ hb => ?_⟩
    · by_cases hother : other = token
      · rw [hother]
        exact hholding
      · rwa [enter_of_ne _ hother] at hphase
    · rw [hrunning a ha, hrunning b hb]
    · have hother : b ≠ token := by
        rintro rfl
        rw [enter_self] at hb
        cases hb
      rw [enter_of_ne _ hother] at hb
      exact (hothers b hother).2 hb
  · exact h

theorem refreshed_of_ne {other : Nat} (hother : other ≠ token) :
    s.refreshed token other = s.refreshedAt other := by
  unfold State.refreshed
  split
  · rfl
  · exact Function.update_of_ne hother ..

theorem refreshed_lapsed (h : s.Lapsed token) : s.refreshed token = s.refreshedAt := if_pos h

theorem refreshed_live (h : ¬ s.Lapsed token) : s.refreshed token token = s.now := by
  rw [State.refreshed, if_neg h, Function.update_self]

theorem Inv.pexpire (h : Inv s) (htimely : Timely s (.pexpire token)) : Inv (s.pexpire token) := by
  unfold State.pexpire
  split
  · next hphase =>
    have hholding : Holding (s.phase token) := by obtain hp | hp := hphase <;> (rw [hp]; trivial)
    refine ⟨fun other hother hlive => ?_, h.alone, fun a b ha hb => ?_⟩
    · change ¬ s.refreshed token other + 30000 ≤ s.now at hlive
      change ∃ expiresAt, s.current.map _ = _ ∧ s.refreshed token other + 30000 ≤ expiresAt
      by_cases hsame : other = token
      · subst hsame
        by_cases hlapsed : s.Lapsed other
        · rw [refreshed_lapsed hlapsed] at hlive
          exact absurd hlapsed hlive
        · refine ⟨s.now + lockTtlMs, by rw [h.current hholding hlapsed]; rfl, ?_⟩
          rw [refreshed_live hlapsed]
          exact Int.le_refl _
      · rw [refreshed_of_ne hsame] at hlive
        have hcurrent := h.current hother hlive
        obtain hown | hfree := htimely hphase
        · rw [h.current hholding hown] at hcurrent
          exact absurd (Option.some.inj hcurrent).symm hsame
        · rw [hfree] at hcurrent
          cases hcurrent
    · have hsame : b ≠ token := by
        rintro rfl
        obtain hp | hp := hphase <;> cases hp.symm.trans hb
      change s.refreshed token b + 30000 ≤ s.now
      rw [refreshed_of_ne hsame]
      exact h.granted a b ha hb
  · exact h

theorem Inv.release (h : Inv s) : Inv (s.release token) := by
  unfold State.release
  split
  · next hcompleted =>
    have hentered : Inv (s.enter token .done) := h.enter ⟨Phase.noConfusion, Phase.noConfusion⟩ False.elim
    refine ⟨fun other hphase hlive => ?_, hentered.alone, hentered.granted⟩
    have hother : other ≠ token := by
      rintro rfl
      simp [State.enter, Holding] at hphase
    have hcurrent : s.current ≠ some token := by
      rw [h.current (by simpa only [State.enter, Function.update_of_ne hother] using hphase) hlive]
      exact fun heq => hother (Option.some.inj heq)
    obtain ⟨expiresAt, hkey, hle⟩ := hentered.owned other hphase hlive
    exact ⟨expiresAt, (if_neg hcurrent).trans hkey, hle⟩
  · exact h

theorem Inv.step (h : Inv s) {action : Action} (htimely : Timely s action) : Inv (step s action) := by
  cases action with
  | elapse ms => exact h.elapse ms
  | set token => exact h.set htimely
  | heard token => exact h.heard htimely
  | unheard token =>
    simp only [AggregateLock.step, State.unheard]
    split
    · exact h.enter ⟨Phase.noConfusion, Phase.noConfusion⟩ False.elim
    · exact h
  | pexpire token => exact h.pexpire htimely
  | complete token =>
    simp only [AggregateLock.step, State.complete]
    split
    · next hrunning => exact h.enter ⟨Phase.noConfusion, Phase.noConfusion⟩ fun _ => by rw [hrunning]; trivial
    · exact h
  | release token => exact h.release
  | releaseFailed token =>
    simp only [AggregateLock.step, State.releaseFailed]
    split
    · exact h.enter ⟨Phase.noConfusion, Phase.noConfusion⟩ False.elim
    · exact h

/-- A timely tick finds its own key, or none. -/
theorem ownerOnly_of_timely (h : Inv s) {action : Action} (htimely : Timely s action) : OwnerOnly s action := by
  by_cases hpexpire : ∃ token, action = .pexpire token
  · obtain ⟨token, rfl⟩ := hpexpire
    intro token' value hby hcurrent hvalue
    obtain rfl := Option.some.inj hby
    by_cases hphase : s.phase token = .running ∨ s.phase token = .completed
    · obtain hlive | hfree := htimely hphase
      · have hholding : Holding (s.phase token) := by obtain hp | hp := hphase <;> (rw [hp]; trivial)
        rw [h.current hholding hlive] at hcurrent
        exact absurd (Option.some.inj hcurrent).symm hvalue
      · rw [hfree] at hcurrent
        cases hcurrent
    · rw [AggregateLock.step, State.pexpire, if_neg hphase]
  · exact ownerOnly_of_not_pexpire fun token heq => hpexpire ⟨token, heq⟩

/-- One task runs at a time. -/
def Exclusive (s : State) : Prop :=
  ∀ token other, s.phase token = .running → s.phase other = .running → token = other

/-- In a run that is timely no call touches a key with another call's token, and
no two tasks run at once. -/
theorem lock_kept (actions : List Action)
    (h : Always (fun before action => Timely (run before) action) actions) :
    Always (fun before action => OwnerOnly (run before) action ∧ Exclusive (step (run before) action)) actions :=
  Always.kept (I := Inv) (Q := fun s action => OwnerOnly s action ∧ Exclusive (step s action)) initial_inv
    (fun hinv htimely => ⟨hinv.step htimely, ownerOnly_of_timely hinv htimely, (hinv.step htimely).alone⟩) h

section Sample

/-- A task that outlives its first 30 seconds, one that asks in the meantime, and
one that takes the lock after it. -/
def sampleRun : List Action :=
  [.set 0, .heard 0, .elapse 20000, .pexpire 0, .elapse 20000, .set 1, .pexpire 0, .complete 0, .release 0,
    .set 2, .heard 2]

theorem lock_kept_long_task :
    Always (fun before action => OwnerOnly (run before) action ∧ Exclusive (step (run before) action)) sampleRun ∧
      (run sampleRun).phase 1 = .done ∧ (run sampleRun).phase 2 = .running := by
  refine ⟨lock_kept sampleRun (@AlwaysFrom.always _ _ [] _ ?_ always_nil), by decide, by decide⟩
  refine ⟨fun _ => ?_, fun _ => .inl (by decide), trivial, fun _ => .inl (by decide), trivial, fun _ => ?_,
    fun _ => .inl (by decide), trivial, trivial, fun _ => ?_, fun _ => .inl (by decide), trivial⟩
  · intro other hrunning
    cases hrunning
  · intro other hrunning
    match other with
    | 0 => decide
    | n + 1 => cases hrunning
  · intro other hrunning
    match other with
    | 0 => cases hrunning
    | 1 => cases hrunning
    | n + 2 => cases hrunning

/-- A process that was paused past its lock's end pushes the expiry of its
successor's lock. -/
theorem late_tick_extends_successor :
    ¬ ∀ actions, Always (fun before action => OwnerOnly (run before) action) actions := by
  intro h
  have howner := h [.set 0, .heard 0, .elapse 30000, .set 1, .elapse 5, .pexpire 0]
    [.set 0, .heard 0, .elapse 30000, .set 1, .elapse 5] (.pexpire 0) [] rfl
  exact absurd (howner 0 1 rfl (by decide) (by decide)) (by decide)

end Sample

end BaasConnector.Webhooks.LockOwnership
