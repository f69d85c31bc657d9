import Mathlib.Data.List.Induction

namespace BaasConnector.Lib.History

variable {A : Type} {P : List A → A → Prop} {actions : List A}

/-- Some action of the run meets `P` after the actions before it. -/
def Once (P : List A → A → Prop) (actions : List A) : Prop :=
  ∃ before action after, actions = before ++ action :: after ∧ P before action

def Always (P : List A → A → Prop) (actions : List A) : Prop :=
  ∀ before action after, actions = before ++ action :: after → P before action

theorem append_split {before after : List A} {action last : A}
    (h : actions ++ [last] = before ++ action :: after) :
    (before = actions ∧ action = last) ∨ ∃ rest, after = rest ++ [last] ∧
    actions = before ++ action :: rest := by
  induction after using List.reverseRecOn with
  | nil =>
    obtain ⟨hbefore, hlast⟩ := List.append_inj' h rfl
    exact .inl ⟨hbefore.symm, (List.cons.inj hlast).1.symm⟩
  | append_singleton rest end' _ =>
    rw [← List.cons_append, ← List.append_assoc] at h
    obtain ⟨hactions, hlast⟩ := List.append_inj' h rfl
    exact .inr ⟨rest, by rw [(List.cons.inj hlast).1], hactions⟩

theorem once_append (last : A) : Once P (actions ++ [last]) ↔ Once P actions ∨ P actions last := by
  constructor
  · rintro ⟨before, action, after, hsplit, h⟩
    obtain ⟨rfl, rfl⟩ | ⟨rest, rfl, hactions⟩ := append_split hsplit
    · exact .inr h
    · exact .inl ⟨before, action, rest, hactions, h⟩
  · rintro (⟨before, action, after, rfl, h⟩ | h)
    · exact ⟨before, action, after ++ [last], by simp, h⟩
    · exact ⟨actions, last, [], rfl, h⟩

theorem not_once_nil : ¬ Once P [] := by
  rintro ⟨before, action, after, hsplit, -⟩
  exact absurd hsplit (by simp)

theorem Once.mono (h : Once P actions) (more : List A) : Once P (actions ++ more) := by
  obtain ⟨before, action, after, rfl, h⟩ := h
  exact ⟨before, action, after ++ more, by simp, h⟩

theorem always_append (last : A) : Always P (actions ++ [last]) ↔ Always P actions ∧ P actions last := by
  constructor
  · intro h
    refine ⟨fun before action after hsplit => ?_, h actions last [] rfl⟩
    exact h before action (after ++ [last]) (by rw [hsplit]; simp)
  · rintro ⟨hactions, hlast⟩ before action after hsplit
    obtain ⟨rfl, rfl⟩ | ⟨rest, -, hsplit⟩ := append_split hsplit
    · exact hlast
    · exact hactions before action rest hsplit

theorem Always.imp {Q : List A → A → Prop} (h : Always P actions)
    (himp : ∀ before action, action ∈ actions → P before action → Q before action) : Always Q actions := by
  intro before action after hsplit
  exact himp before action (by simp [hsplit]) (h before action after hsplit)

theorem Always.left {before after : List A} (h : Always P (before ++ after)) : Always P before :=
  fun first action rest hsplit => h first action (rest ++ after) (by rw [hsplit]; simp)

theorem always_nil : Always P [] := by
  intro before action after hsplit
  exact absurd hsplit (by simp)

def AlwaysFrom (P : List A → A → Prop) (before : List A) : List A → Prop
  | [] => True
  | action :: after => P before action ∧ AlwaysFrom P (before ++ [action]) after

theorem AlwaysFrom.always {before after : List A} (h : AlwaysFrom P before after)
    (hbefore : Always P before) :
    Always P (before ++ after) := by
  induction after generalizing before with
  | nil => rwa [List.append_nil]
  | cons action after ih =>
    have hnext := ih h.2 ((always_append action).mpr ⟨hbefore, h.1⟩)
    rwa [List.append_assoc] at hnext

theorem Always.alwaysFrom {before after : List A} (h : Always P (before ++ after)) :
    AlwaysFrom P before after := by
  induction after generalizing before with
  | nil => trivial
  | cons action after ih =>
    refine ⟨h before action after rfl, ih ?_⟩
    rwa [List.append_assoc]

def AlwaysFrom.decidable [∀ before action, Decidable (P before action)] :
    (before after : List A) → Decidable (AlwaysFrom P before after)
  | _, [] => isTrue trivial
  | before, action :: after =>
    have := AlwaysFrom.decidable (before ++ [action]) after
    inferInstanceAs (Decidable (P before action ∧ AlwaysFrom P (before ++ [action]) after))

instance [∀ before action, Decidable (P before action)] : Decidable (Always P actions) :=
  have := AlwaysFrom.decidable (P := P) [] actions
  decidable_of_iff (AlwaysFrom P [] actions) ⟨fun h => h.always always_nil, fun h => h.alwaysFrom⟩

theorem once_iff_not_always : Once P actions ↔ ¬ Always (fun before action => ¬ P before action) actions := by
  constructor
  · rintro ⟨before, action, after, hsplit, hP⟩ h
    exact h before action after hsplit hP
  · intro h
    by_contra hnone
    exact h fun before action after hsplit hP => hnone ⟨before, action, after, hsplit, hP⟩

instance [∀ before action, Decidable (P before action)] : Decidable (Once P actions) :=
  decidable_of_iff _ once_iff_not_always.symm

/-- An invariant of the runs whose steps all meet a condition. -/
theorem Always.induction {I : List A → Prop} (hnil : I [])
    (hstep : ∀ actions action, I actions → P actions action → I (actions ++ [action]))
    (h : Always P actions) : I actions := by
  induction actions using List.reverseRecOn with
  | nil => exact hnil
  | append_singleton actions action ih =>
    obtain ⟨hactions, hlast⟩ := (always_append action).mp h
    exact hstep actions action (ih hactions) hlast

/-- Where every step that meets a condition keeps an invariant and a promise, so
does every step of a run whose steps all meet it. -/
theorem Always.kept {S : Type} {step : S → A → S} {s : S} {I : S → Prop} {P Q : S → A → Prop} (hs : I s)
    (hstep : ∀ {s action}, I s → P s action → I (step s action) ∧ Q s action)
    (h : Always (fun before action => P (before.foldl step s) action) actions) :
    Always (fun before action => Q (before.foldl step s) action) actions := by
  have hrun : I (actions.foldl step s) ∧ Always
    (fun before action => Q (before.foldl step s) action) actions := by
    refine Always.induction (I := fun actions => I (actions.foldl step s) ∧
      Always (fun before action => Q (before.foldl step s) action) actions) ⟨hs, always_nil⟩ ?_ h
    intro actions action hactions hmeets
    obtain ⟨hinv, hkept⟩ := hstep hactions.1 hmeets
    rw [List.foldl_append]
    exact ⟨hinv, (always_append action).mpr ⟨hactions.2, hkept⟩⟩
  exact hrun.2

end BaasConnector.Lib.History
