import Mathlib.Algebra.BigOperators.Group.List.Basic
import Mathlib.Algebra.Order.BigOperators.Group.List
import Mathlib.Algebra.Order.Floor.Ring
import Mathlib.Data.List.Sort
import Mathlib.Data.Rat.Floor

namespace BaasConnector.Lib.Apportionment

/-- A part is the proportional share, rounded down or up. -/
def Fair (amount : ℤ) (weight total : ℚ) (part : ℤ) : Prop :=
  part = ⌊amount * weight / total⌋ ∨ part = ⌈amount * weight / total⌉

/-- One more for each of the first positions. -/
def handOut : List ℕ → ℕ → List ℕ → List ℕ
  | position :: positions, left + 1, shares => handOut positions left (shares.modify position (· + 1))
  | _, _, shares => shares

theorem handOut_cons (position : ℕ) (positions : List ℕ) (left : ℕ) (shares : List ℕ) :
    handOut (position :: positions) (left + 1) shares =
      handOut positions left (shares.modify position (· + 1)) := rfl

theorem Fair.neg {amount : ℤ} {weight total : ℚ} {part : ℤ} (h : Fair amount weight total part) :
    Fair (-amount) weight total (-part) := by
  have hneg : ((-amount : ℤ) * weight / total : ℚ) = -(amount * weight / total) := by
    push_cast
    ring
  rw [Fair, hneg, Int.floor_neg, Int.ceil_neg]
  obtain rfl | rfl := h
  · exact Or.inr rfl
  · exact Or.inl rfl

theorem Fair.eq_zero {amount : ℤ} {total : ℚ} {part : ℤ} (h : Fair amount 0 total part) : part = 0 := by
  simpa [Fair] using h

theorem Fair.rescale {amount : ℤ} {weight total : ℚ} {part : ℤ} (factor : ℚ) (hfactor : factor ≠ 0)
    (h : Fair amount (factor * weight) (factor * total) part) : Fair amount weight total part := by
  have hshare : amount * (factor * weight) / (factor * total) = amount * weight / total := by
    rw [mul_left_comm, mul_div_mul_left _ _ hfactor]
  rwa [Fair, hshare] at h

theorem fair_floor (amount weight total : ℕ) : Fair amount weight total (amount * weight / total : ℕ) := by
  refine Or.inl (Eq.symm ?_)
  have h := Rat.floor_intCast_div_natCast ((amount * weight : ℕ) : ℤ) total
  push_cast at h ⊢
  exact h

theorem fair_succ {amount weight total : ℕ} (htotal : 0 < total) (hrest : 0 < amount * weight % total) :
    Fair amount weight total (amount * weight / total + 1 : ℕ) := by
  have hpos : (0 : ℚ) < total := Nat.cast_pos.mpr htotal
  have hdiv := Nat.div_add_mod (amount * weight) total
  have hmod := Nat.mod_lt (amount * weight) htotal
  have hlow : total * (amount * weight / total) < amount * weight := by omega
  have hhigh : amount * weight ≤ total * (amount * weight / total + 1) := by
    rw [Nat.mul_add, Nat.mul_one]
    omega
  refine Or.inr (Eq.symm (Int.ceil_eq_iff.mpr ⟨?_, ?_⟩))
  · push_cast
    rw [add_sub_cancel_right, lt_div_iff₀' hpos]
    exact_mod_cast hlow
  · push_cast
    rw [div_le_iff₀' hpos]
    exact_mod_cast hhigh

theorem handOut_length (positions : List ℕ) (left : ℕ) (shares : List ℕ) :
    (handOut positions left shares).length = shares.length := by
  induction positions generalizing left shares with
  | nil => rfl
  | cons position positions ih =>
    cases left with
    | zero => rfl
    | succ left => rw [handOut_cons, ih, List.length_modify]

theorem handOut_getElem? {positions : List ℕ} (hnodup : positions.Nodup) (left : ℕ) (shares : List ℕ)
    (i : ℕ) : (handOut positions left shares)[i]? =
      shares[i]?.map (· + if i ∈ positions.take left then 1 else 0) := by
  induction positions generalizing left shares with
  | nil =>
    change shares[i]? = _
    cases shares[i]? <;> simp
  | cons position positions ih =>
    obtain ⟨hnot, hnodup⟩ := List.nodup_cons.mp hnodup
    cases left with
    | zero =>
      change shares[i]? = _
      cases shares[i]? <;> simp
    | succ left =>
      rw [handOut_cons, ih hnodup, List.getElem?_modify, List.take_succ_cons]
      by_cases h : position = i
      · subst h
        have hout : position ∉ positions.take left := fun hmem => hnot (List.mem_of_mem_take hmem)
        cases shares[position]? <;> simp [hout]
      · have hne : i ≠ position := Ne.symm h
        simp [h, hne]

theorem sum_modify {shares : List ℕ} {position : ℕ} (h : position < shares.length) :
    (shares.modify position (· + 1)).sum = shares.sum + 1 := by
  induction shares generalizing position with
  | nil => exact absurd h (Nat.not_lt_zero _)
  | cons share shares ih =>
    cases position with
    | zero =>
      rw [List.modify_zero_cons, List.sum_cons, List.sum_cons]
      omega
    | succ position =>
      rw [List.modify_succ_cons, List.sum_cons, List.sum_cons, ih (Nat.lt_of_succ_lt_succ h)]
      omega

theorem handOut_sum {positions : List ℕ} {left : ℕ} {shares : List ℕ} (hleft : left ≤ positions.length)
    (hpositions : ∀ position ∈ positions, position < shares.length) :
    (handOut positions left shares).sum = shares.sum + left := by
  induction positions generalizing left shares with
  | nil =>
    obtain rfl := Nat.le_zero.mp hleft
    rfl
  | cons position positions ih =>
    cases left with
    | zero => rfl
    | succ left =>
      have hfirst := hpositions position List.mem_cons_self
      rw [handOut_cons, ih (Nat.le_of_succ_le_succ hleft), sum_modify hfirst]
      · omega
      · intro other hother
        rw [List.length_modify]
        exact hpositions other (List.mem_cons_of_mem _ hother)

/-- Numbers below a bound that add up to a multiple of it have at least so many positive ones among
them, and in descending order these stand first. -/
theorem take_positive {rests : List ℕ} {total left : ℕ} (htotal : 0 < total)
    (hsorted : rests.Pairwise (· ≥ ·)) (hbelow : ∀ rest ∈ rests, rest < total)
    (hsum : left * total ≤ rests.sum) :
    left ≤ rests.length ∧ ∀ rest ∈ rests.take left, 0 < rest := by
  induction rests generalizing left with
  | nil =>
    have hleft : left = 0 := by
      have hzero := Nat.le_zero.mp hsum
      exact (Nat.mul_eq_zero.mp hzero).resolve_right htotal.ne'
    subst hleft
    exact ⟨Nat.le_refl 0, nofun⟩
  | cons rest rests ih =>
    cases left with
    | zero => exact ⟨Nat.zero_le _, nofun⟩
    | succ left =>
      obtain ⟨hfirst, hsorted⟩ := List.pairwise_cons.mp hsorted
      have hrest := hbelow rest List.mem_cons_self
      rw [List.sum_cons, Nat.succ_mul] at hsum
      have hpositive : 0 < rest := by
        by_contra hzero
        have hall : rests.sum = 0 := List.sum_eq_zero fun other hother =>
          Nat.le_zero.mp ((hfirst other hother).trans (Nat.not_lt.mp hzero))
        omega
      have hkept : left * total ≤ rests.sum := by omega
      obtain ⟨hlength, htake⟩ := ih hsorted
        (fun other hother => hbelow other (List.mem_cons_of_mem _ hother)) hkept
      refine ⟨Nat.succ_le_succ hlength, ?_⟩
      rw [List.take_succ_cons]
      exact List.forall_mem_cons.mpr ⟨hpositive, htake⟩

variable {amount : ℕ} {weights : List ℕ}

/-- The proportional shares, rounded down. -/
def floors (amount : ℕ) (weights : List ℕ) : List ℕ := weights.map fun w => amount * w / weights.sum

def rests (amount : ℕ) (weights : List ℕ) : List ℕ := weights.map fun w => amount * w % weights.sum

def leftover (amount : ℕ) (weights : List ℕ) : ℕ := amount - (floors amount weights).sum

theorem sum_div_mod (amount total : ℕ) (weights : List ℕ) :
    total * (weights.map fun w => amount * w / total).sum + (weights.map fun w => amount * w % total).sum =
      amount * weights.sum := by
  induction weights with
  | nil => rfl
  | cons w weights ih =>
    have hdiv := Nat.div_add_mod (amount * w) total
    simp only [List.map_cons, List.sum_cons, Nat.mul_add]
    omega

theorem floors_le (htotal : 0 < weights.sum) : (floors amount weights).sum ≤ amount := by
  have h := sum_div_mod amount weights.sum weights
  apply Nat.le_of_mul_le_mul_right _ htotal
  rw [Nat.mul_comm, floors]
  omega

/-- What the shares rounded down leave over is what the remainders add up to. -/
theorem leftover_mul : leftover amount weights * weights.sum = (rests amount weights).sum := by
  have h := sum_div_mod amount weights.sum weights
  rw [leftover, Nat.sub_mul, Nat.mul_comm (floors amount weights).sum, floors, rests]
  omega

theorem map_getD_range (weights : List ℕ) :
    (List.range weights.length).map (fun i => weights.getD i 0) = weights := by
  apply List.ext_getElem?
  intro i
  by_cases h : i < weights.length <;> simp [h]

def restAt (amount : ℕ) (weights : List ℕ) (i : ℕ) : ℕ := amount * weights.getD i 0 % weights.sum

theorem map_restAt : (List.range weights.length).map (restAt amount weights) = rests amount weights := by
  rw [rests]
  conv_rhs => rw [← map_getD_range weights, List.map_map]
  rw [map_getD_range]
  rfl

/-- The parts that come of handing out what is left over in the order of the remainders. -/
def parts (amount : ℕ) (weights positions : List ℕ) : List ℕ :=
  handOut positions (leftover amount weights) (floors amount weights)

/-- Every position once, the larger remainders first. -/
structure Ranking (amount : ℕ) (weights positions : List ℕ) : Prop where
  perm : positions.Perm (List.range weights.length)
  sorted : positions.Pairwise fun i j => restAt amount weights j ≤ restAt amount weights i

theorem Ranking.take_positive {positions : List ℕ} (h : Ranking amount weights positions)
    (htotal : 0 < weights.sum) : leftover amount weights ≤ positions.length ∧
      ∀ i ∈ positions.take (leftover amount weights), 0 < restAt amount weights i := by
  have hsum : (positions.map (restAt amount weights)).sum = (rests amount weights).sum := by
    rw [← map_restAt]
    exact (h.perm.map _).sum_eq
  have htake := Apportionment.take_positive htotal (h.sorted.map _ fun i j hij => hij)
    (List.forall_mem_map.mpr fun i _ => Nat.mod_lt _ htotal)
    (leftover_mul.trans hsum.symm).le
  rw [List.length_map, ← List.map_take, List.forall_mem_map] at htake
  exact htake

theorem Ranking.parts_sum {positions : List ℕ} (h : Ranking amount weights positions)
    (htotal : 0 < weights.sum) : (parts amount weights positions).sum = amount := by
  rw [parts, handOut_sum (h.take_positive htotal).1, leftover, Nat.add_sub_cancel' (floors_le htotal)]
  intro position hposition
  rw [floors, List.length_map]
  exact List.mem_range.mp (h.perm.mem_iff.mp hposition)

theorem Ranking.parts_fair {positions : List ℕ} (h : Ranking amount weights positions)
    (htotal : 0 < weights.sum) {i w : ℕ} (hw : weights[i]? = some w) :
    ∃ part : ℕ, (parts amount weights positions)[i]? = some part ∧ Fair amount w weights.sum part := by
  rw [parts, handOut_getElem? (h.perm.nodup_iff.mpr List.nodup_range), floors, List.getElem?_map, hw]
  refine ⟨_, rfl, ?_⟩
  dsimp only
  split_ifs with hmem
  · have hrest := (h.take_positive htotal).2 i hmem
    rw [restAt, List.getD_eq_getElem?_getD, hw, Option.getD_some] at hrest
    exact fair_succ htotal hrest
  · exact fair_floor amount w weights.sum

end BaasConnector.Lib.Apportionment
