import Mathlib.Logic.Function.Iterate
import Mathlib.Tactic.Common

namespace BaasConnector.Lib.Loops

variable {S : Type} {guard : S → Bool} {body : S → S} {s t : S}

/-- A while loop of so many turns at most, and nothing where they do not suffice. -/
def whileLoop (guard : S → Bool) (body : S → S) : ℕ → S → Option S
  | 0, s => if guard s then none else some s
  | fuel + 1, s => if guard s then whileLoop guard body fuel (body s) else some s

/-- Each of the first turns is taken. -/
def Running (guard : S → Bool) (body : S → S) (turns : ℕ) (s : S) : Prop :=
  ∀ turn < turns, guard (body^[turn] s) = true

def Ends (guard : S → Bool) (body : S → S) (s t : S) : Prop := ∃ fuel, whileLoop guard body fuel s = some t

theorem running_succ {turns : ℕ} :
    Running guard body (turns + 1) s ↔ guard s = true ∧ Running guard body turns (body s) := by
  constructor
  · exact fun h => ⟨h 0 (Nat.succ_pos _), fun turn hturn => h (turn + 1) (Nat.succ_lt_succ hturn)⟩
  · rintro ⟨hguard, h⟩ turn hturn
    cases turn with
    | zero => exact hguard
    | succ turn => exact h turn (Nat.lt_of_succ_lt_succ hturn)

theorem Running.mono {m n : ℕ} (h : Running guard body n s) (hle : m ≤ n) : Running guard body m s :=
  fun turn hturn => h turn (Nat.lt_of_lt_of_le hturn hle)

theorem whileLoop_eq_some {fuel : ℕ} : whileLoop guard body fuel s = some t ↔
    ∃ turns ≤ fuel, Running guard body turns s ∧ guard t = false ∧ body^[turns] s = t := by
  induction fuel generalizing s with
  | zero =>
    rw [whileLoop]
    split_ifs with hguard
    · refine ⟨nofun, ?_⟩
      rintro ⟨turns, hle, -, hstop, rfl⟩
      rw [Nat.le_zero.mp hle, Function.iterate_zero_apply, hguard] at hstop
      cases hstop
    · refine ⟨?_, ?_⟩
      · rintro ⟨⟩
        exact ⟨0, Nat.le_refl _, nofun, Bool.eq_false_iff.mpr hguard, rfl⟩
      · rintro ⟨turns, hle, -, -, rfl⟩
        rw [Nat.le_zero.mp hle]
        rfl
  | succ fuel ih =>
    rw [whileLoop]
    split_ifs with hguard
    · rw [ih]
      constructor
      · rintro ⟨turns, hle, hrun, hstop, rfl⟩
        exact ⟨turns + 1, Nat.succ_le_succ hle, running_succ.mpr ⟨hguard, hrun⟩, hstop, rfl⟩
      · rintro ⟨turns, hle, hrun, hstop, rfl⟩
        cases turns with
        | zero =>
          rw [Function.iterate_zero_apply, hguard] at hstop
          cases hstop
        | succ turns => exact ⟨turns, Nat.le_of_succ_le_succ hle, (running_succ.mp hrun).2, hstop, rfl⟩
    · constructor
      · rintro ⟨⟩
        exact ⟨0, Nat.zero_le _, nofun, Bool.eq_false_iff.mpr hguard, rfl⟩
      · rintro ⟨turns, -, hrun, -, rfl⟩
        cases turns with
        | zero => rfl
        | succ turns => exact absurd (hrun 0 (Nat.succ_pos _)) hguard

theorem ends_iff : Ends guard body s t ↔
    ∃ turns, Running guard body turns s ∧ guard t = false ∧ body^[turns] s = t := by
  constructor
  · rintro ⟨fuel, h⟩
    obtain ⟨turns, -, hrest⟩ := whileLoop_eq_some.mp h
    exact ⟨turns, hrest⟩
  · rintro ⟨turns, hrest⟩
    exact ⟨turns, whileLoop_eq_some.mpr ⟨turns, Nat.le_refl _, hrest⟩⟩

theorem whileLoop_mono {fuel more : ℕ} (h : whileLoop guard body fuel s = some t) (hle : fuel ≤ more) :
    whileLoop guard body more s = some t := by
  obtain ⟨turns, hturns, hrest⟩ := whileLoop_eq_some.mp h
  exact whileLoop_eq_some.mpr ⟨turns, Nat.le_trans hturns hle, hrest⟩

/-- A loop has one end. -/
theorem Ends.unique {u : S} (ht : Ends guard body s t) (hu : Ends guard body s u) : t = u := by
  obtain ⟨m, ht⟩ := ht
  obtain ⟨n, hu⟩ := hu
  have hm := whileLoop_mono ht (Nat.le_max_left m n)
  have hn := whileLoop_mono hu (Nat.le_max_right m n)
  rw [hm] at hn
  exact Option.some.inj hn

/-- A loop that cannot run for ever stops somewhere. -/
theorem exists_stop {bound : ℕ} (h : ∀ turns, Running guard body turns s → turns ≤ bound) :
    ∃ turns, Running guard body turns s ∧ guard (body^[turns] s) = false := by
  by_contra hnever
  have hrun : ∀ turns, Running guard body turns s := by
    intro turns
    induction turns with
    | zero => exact nofun
    | succ turns ih =>
      intro turn hturn
      obtain hlt | rfl := Nat.lt_succ_iff_lt_or_eq.mp hturn
      · exact ih turn hlt
      · exact eq_true_of_ne_false fun hstop => hnever ⟨turn, ih, hstop⟩
  exact absurd (h (bound + 1) (hrun _)) (Nat.not_succ_le_self bound)

end BaasConnector.Lib.Loops
