import Mathlib.Data.List.Basic

namespace BaasConnector.Lib.Runs

variable {S A : Type} {step : S → A → S} {s : S} {a : A} {actions : List A} {P I : S → Prop}
  {Q R : S → A → Prop}

/-- The property holds of every state that the run passes, from the first to the last. -/
def Throughout (step : S → A → S) (s : S) (P : S → Prop) (actions : List A) : Prop :=
  ∀ before rest, actions = before ++ rest → P (before.foldl step s)

/-- Every action meets the condition in the state it finds. -/
def Each (step : S → A → S) (s : S) (Q : S → A → Prop) : List A → Prop
  | [] => True
  | a :: actions => Q s a ∧ Each step (step s a) Q actions

instance decidableEach (step : S → A → S) (Q : S → A → Prop) [∀ s a, Decidable (Q s a)] (s : S)
    (actions : List A) : Decidable (Each step s Q actions) :=
  match actions with
  | [] => .isTrue trivial
  | a :: actions =>
    have := decidableEach step Q (step s a) actions
    inferInstanceAs (Decidable (Q s a ∧ Each step (step s a) Q actions))

theorem throughout_nil : Throughout step s P [] ↔ P s := by
  constructor
  · intro h
    exact h [] [] rfl
  · intro h before rest hsplit
    obtain ⟨rfl, -⟩ := List.append_eq_nil_iff.mp hsplit.symm
    exact h

theorem throughout_cons : Throughout step s P (a :: actions) ↔
    P s ∧ Throughout step (step s a) P actions := by
  constructor
  · intro h
    refine ⟨h [] _ rfl, fun before rest hsplit => ?_⟩
    exact h (a :: before) rest (congrArg (a :: ·) hsplit)
  · rintro ⟨hs, h⟩ before rest hsplit
    cases before with
    | nil => exact hs
    | cons b before =>
      obtain ⟨rfl, hrest⟩ := List.cons.inj hsplit
      exact h before rest hrest

theorem Throughout.start (h : Throughout step s P actions) : P s := h [] actions rfl

theorem Throughout.imp {P' : S → Prop} (himp : ∀ s, P s → P' s) (h : Throughout step s P actions) :
    Throughout step s P' actions :=
  fun before rest hsplit => himp _ (h before rest hsplit)

theorem Each.and (hq : Each step s Q actions) (hr : Each step s R actions) :
    Each step s (fun s a => Q s a ∧ R s a) actions := by
  induction actions generalizing s with
  | nil => trivial
  | cons a actions ih => exact ⟨⟨hq.1, hr.1⟩, ih hq.2 hr.2⟩

/-- What the steps of a run keep holds throughout it. -/
theorem throughout_of_kept (hkept : ∀ s a, P s → Q s a → P (step s a)) (hs : P s)
    (h : Each step s Q actions) : Throughout step s P actions := by
  induction actions generalizing s with
  | nil => exact throughout_nil.mpr hs
  | cons a actions ih => exact throughout_cons.mpr ⟨hs, ih (hkept s a hs h.1) h.2⟩

/-- Where a step keeps a property just when it meets a condition, the property holds
throughout a run just when all its steps meet the condition. -/
theorem throughout_iff_each (hinv : ∀ s a, I s → R s a → Q s a → I (step s a))
    (hkept : ∀ s a, I s → R s a → P s → (P (step s a) ↔ Q s a)) (hI : I s) (hs : P s)
    (h : Each step s R actions) : Throughout step s P actions ↔ Each step s Q actions := by
  induction actions generalizing s with
  | nil => exact ⟨fun _ => trivial, fun _ => throughout_nil.mpr hs⟩
  | cons a actions ih =>
    have hstep := hkept s a hI h.1 hs
    rw [throughout_cons]
    constructor
    · rintro ⟨-, hrest⟩
      have ha := hstep.mp hrest.start
      exact ⟨ha, (ih (hinv s a hI h.1 ha) hrest.start h.2).mp hrest⟩
    · rintro ⟨ha, hrest⟩
      exact ⟨hs, (ih (hinv s a hI h.1 ha) (hstep.mpr ha) h.2).mpr hrest⟩

end BaasConnector.Lib.Runs
