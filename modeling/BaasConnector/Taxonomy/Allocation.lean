import BaasConnector.Lib.Apportionment
import BaasConnector.Lib.Floats
import BaasConnector.Lib.Results
import BaasConnector.Lib.Sorting
import BaasConnector.Taxonomy.Money

namespace BaasConnector.Taxonomy.Allocation

open BaasConnector.Lib.Apportionment BaasConnector.Lib.Floats BaasConnector.Lib.Results
open BaasConnector.Lib.Sorting BaasConnector.Taxonomy.Amounts

structure Remainder where
  index : Nat
  rest : Nat
deriving DecidableEq, Repr

/-- The larger remainder goes first, of two equal ones the earlier. -/
def Before (a b : Remainder) : Prop := b.rest < a.rest ∨ (a.rest = b.rest ∧ a.index ≤ b.index)

instance : DecidableRel Before := fun _ _ => inferInstanceAs (Decidable (_ ∨ _))

/-- A weight in millionths. The conversion refuses what is not finite. -/
def scaledWeight (w : Float) : Except String Nat :=
  match nearestInt (w * 1000000) with
  | some scaled => .ok scaled.toNat
  | none => .error "The number Infinity cannot be converted to a BigInt because it is not an integer"

def remaindersOf (abs : Nat) (scaled : List Nat) : List Remainder :=
  (scaled.zipIdx.map fun entry => ⟨entry.2, abs * entry.1 % scaled.sum⟩).insertionSort Before

def allocate (amount : Amount) (weights : List Float) : Except String (List Amount) := do
  if weights.isEmpty then throw "allocate exige ao menos um peso"
  if weights.any fun w => !w.isFinite || w < 0 then throw "Pesos devem ser finitos e nao negativos"
  let scaled ← weights.mapM scaledWeight
  let total := scaled.sum
  if total = 0 then throw "A soma dos pesos deve ser maior que zero"
  let negative := amount.cents < 0
  let abs := amount.cents.natAbs
  let base := scaled.map fun w => abs * w / total
  let leftover := abs - base.sum
  (handOut ((remaindersOf abs scaled).map Remainder.index) leftover base).mapM fun (v : Nat) =>
    Amount.of (if negative then -(v : Int) else v)

/-- The weights counted in millionths, each to the nearest one. -/
def Scaled (weights : List Float) (scaled : List ℕ) : Prop :=
  List.Forall₂ (fun (w : Float) (s : ℕ) => nearestInt (w * 1000000) = some (s : ℤ)) weights scaled

theorem scaledWeight_ok {w : Float} {s : ℕ} (h : nearestInt (w * 1000000) = some (s : ℤ)) :
    scaledWeight w = .ok s := by
  unfold scaledWeight
  rw [h]
  rfl

theorem Scaled.mapM {weights : List Float} {scaled : List ℕ} (h : Scaled weights scaled) :
    weights.mapM scaledWeight = .ok scaled :=
  mapM_eq_ok.mpr (h.imp fun _ _ hs => scaledWeight_ok hs)

theorem before_orders (l : List Remainder) : Orders Before l where
  total a _ b _ := by
    unfold Before
    omega
  trans a _ b _ c _ := by
    unfold Before
    omega
  antisymm a _ b _ hab hba := by
    obtain ⟨i, m⟩ := a
    obtain ⟨j, n⟩ := b
    simp only [Before] at hab hba
    rw [Remainder.mk.injEq]
    omega

theorem remaindersOf_perm (abs : ℕ) (scaled : List ℕ) :
    ((remaindersOf abs scaled).map Remainder.index).Perm (List.range scaled.length) := by
  have hsort := (List.perm_insertionSort Before
    (scaled.zipIdx.map fun entry => ⟨entry.2, abs * entry.1 % scaled.sum⟩)).map Remainder.index
  rw [List.map_map] at hsort
  rw [List.range_eq_range', ← List.zipIdx_map_snd 0 scaled]
  exact hsort

theorem rest_of_mem {abs : ℕ} {scaled : List ℕ} {remainder : Remainder}
    (h : remainder ∈ remaindersOf abs scaled) : remainder.rest = restAt abs scaled remainder.index := by
  obtain ⟨⟨w, i⟩, hmem, rfl⟩ := List.mem_map.mp ((List.mem_insertionSort Before).mp h)
  rw [restAt, List.getD_eq_getElem?_getD, List.mk_mem_zipIdx_iff_getElem?.mp hmem, Option.getD_some]

theorem ranking (abs : ℕ) (scaled : List ℕ) :
    Ranking abs scaled ((remaindersOf abs scaled).map Remainder.index) where
  perm := remaindersOf_perm abs scaled
  sorted := by
    rw [List.pairwise_map]
    refine (pairwise_insertionSort (before_orders _)).imp_of_mem fun ha hb hab => ?_
    rw [← rest_of_mem ha, ← rest_of_mem hb]
    obtain hlt | ⟨heq, -⟩ := hab
    · exact hlt.le
    · exact heq.ge

def signed (amount : Amount) (v : ℕ) : ℤ := if amount.cents < 0 then -v else v

theorem signed_natAbs (amount : Amount) : signed amount amount.cents.natAbs = amount.cents := by
  unfold signed
  split_ifs <;> omega

theorem signed_fair {amount : Amount} {v : ℕ} {weight total : ℚ}
    (h : Fair amount.cents.natAbs weight total v) : Fair amount.cents weight total (signed amount v) := by
  unfold signed
  split_ifs with hneg
  · have hneg' := h.neg
    rwa [show -(amount.cents.natAbs : ℤ) = amount.cents by omega] at hneg'
  · rwa [show (amount.cents.natAbs : ℤ) = amount.cents by omega] at h

theorem signed_sum (amount : Amount) (vs : List ℕ) : (vs.map (signed amount)).sum = signed amount vs.sum := by
  induction vs with
  | nil =>
    unfold signed
    split_ifs <;> rfl
  | cons v vs ih =>
    rw [List.map_cons, List.sum_cons, List.sum_cons, ih]
    unfold signed
    split_ifs <;> push_cast <;> ring

theorem signed_neg (amount : Amount) {v : ℕ} (h : v ≤ amount.cents.natAbs) :
    signed (-amount) v = -signed amount v := by
  unfold signed
  rw [Amount.neg_cents]
  split_ifs <;> omega

theorem of_signed {amount : Amount} {v : ℕ} (h : v ≤ amount.cents.natAbs) :
    ∃ part, Amount.of (signed amount v) = .ok part := by
  have hlow := amount.atLeast
  have hhigh := amount.atMost
  refine ⟨⟨signed amount v, ?_, ?_⟩, Amount.of_ok.mpr rfl⟩ <;> unfold signed <;> split_ifs <;> omega

theorem allocate_eq {amount : Amount} {weights : List Float} {scaled : List ℕ}
    (hvalid : ∀ w ∈ weights, w.isFinite = true ∧ ¬ w < 0) (hscaled : Scaled weights scaled)
    (hpositive : 0 < scaled.sum) : allocate amount weights =
      (parts amount.cents.natAbs scaled ((remaindersOf amount.cents.natAbs scaled).map Remainder.index)).mapM
        fun v => Amount.of (signed amount v) := by
  have hne : weights.isEmpty = false := by
    cases hscaled with
    | nil => exact absurd hpositive (Nat.lt_irrefl 0)
    | cons => rfl
  have hany : (weights.any fun w => !w.isFinite || decide (w < 0)) = false := by
    rw [List.any_eq_false]
    intro w hw
    obtain ⟨hfinite, hnonneg⟩ := hvalid w hw
    rw [hfinite, decide_eq_false hnonneg]
    exact Bool.false_ne_true
  unfold allocate
  rw [hne, hany, hscaled.mapM]
  simp only [Bool.false_eq_true, if_false, ok_bind, hpositive.ne']
  rfl

theorem parts_le {amount : ℕ} {weights positions : List ℕ} (h : Ranking amount weights positions)
    (htotal : 0 < weights.sum) {v : ℕ} (hv : v ∈ parts amount weights positions) : v ≤ amount := by
  have hle := List.le_sum_of_mem hv
  rwa [h.parts_sum htotal] at hle

/-- The absolute values that the amount is split into. -/
def magnitudes (amount : Amount) (scaled : List ℕ) : List ℕ :=
  parts amount.cents.natAbs scaled ((remaindersOf amount.cents.natAbs scaled).map Remainder.index)

theorem magnitudes_neg (amount : Amount) (scaled : List ℕ) :
    magnitudes (-amount) scaled = magnitudes amount scaled := by
  rw [magnitudes, magnitudes, Amount.neg_cents, Int.natAbs_neg]

theorem allocate_ok (amount : Amount) {weights : List Float} {scaled : List ℕ}
    (hvalid : ∀ w ∈ weights, w.isFinite = true ∧ ¬ w < 0) (hscaled : Scaled weights scaled)
    (hpositive : 0 < scaled.sum) : ∃ results, allocate amount weights = .ok results ∧
      results.map Amount.cents = (magnitudes amount scaled).map (signed amount) := by
  have hall : ∀ vs : List ℕ, (∀ v ∈ vs, v ≤ amount.cents.natAbs) → ∃ results : List Amount,
      List.Forall₂ (fun (v : ℕ) result => Amount.of (signed amount v) = .ok result) vs results ∧
        results.map Amount.cents = vs.map (signed amount) := by
    intro vs
    induction vs with
    | nil => exact fun _ => ⟨[], .nil, rfl⟩
    | cons v vs ih =>
      intro hle
      obtain ⟨hv, hvs⟩ := List.forall_mem_cons.mp hle
      obtain ⟨part, hpart⟩ := of_signed hv
      obtain ⟨results, hresults, hcents⟩ := ih hvs
      refine ⟨part :: results, .cons hpart hresults, ?_⟩
      rw [List.map_cons, List.map_cons, hcents, Amount.of_ok.mp hpart]
  obtain ⟨results, hresults, hcents⟩ := hall (magnitudes amount scaled) fun v hv =>
    parts_le (ranking _ scaled) hpositive hv
  exact ⟨results, (allocate_eq hvalid hscaled hpositive).trans (mapM_eq_ok.mpr hresults), hcents⟩

theorem allocate_neg {amount : Amount} {weights : List Float} {scaled : List ℕ} {results : List Amount}
    (hvalid : ∀ w ∈ weights, w.isFinite = true ∧ ¬ w < 0) (hscaled : Scaled weights scaled)
    (hpositive : 0 < scaled.sum)
    (hcents : results.map Amount.cents = (magnitudes amount scaled).map (signed amount)) :
    allocate (-amount) weights = .ok (results.map (-·)) := by
  obtain ⟨others, hothers, hneg⟩ := allocate_ok (-amount) hvalid hscaled hpositive
  rw [hothers]
  refine congrArg Except.ok (List.map_injective_iff.mpr (fun a b h => Amount.ext h) ?_)
  rw [hneg, magnitudes_neg, List.map_map]
  have hmap : results.map (Amount.cents ∘ (-·)) = (results.map Amount.cents).map (-·) := by
    rw [List.map_map]
    rfl
  rw [hmap, hcents, List.map_map]
  exact List.map_congr_left fun v hv => signed_neg amount (parts_le (ranking _ scaled) hpositive hv)

/-- A weight gets its fair part. -/
def FairAt (amount : Amount) (parts : List Amount) (i : ℕ) (weight total : ℚ) : Prop :=
  ∃ part : Amount, parts[i]? = some part ∧ Fair amount.cents weight total part.cents

theorem fairAt {amount : Amount} {scaled : List ℕ} {results : List Amount} (hpositive : 0 < scaled.sum)
    (hcents : results.map Amount.cents = (magnitudes amount scaled).map (signed amount)) {i s : ℕ}
    (hs : scaled[i]? = some s) : FairAt amount results i s scaled.sum := by
  obtain ⟨v, hv, hfair⟩ := (ranking amount.cents.natAbs scaled).parts_fair hpositive hs
  have hi := congrArg (·[i]?) hcents
  rw [List.getElem?_map, List.getElem?_map, magnitudes, hv] at hi
  obtain ⟨part, hpart, hvalue⟩ := Option.map_eq_some_iff.mp hi
  exact ⟨part, hpart, hvalue ▸ signed_fair hfair⟩

theorem scaled_zero {w : Float} {s : ℕ} (h : nearestInt (w * 1000000) = some (s : ℤ))
    (hw : value w = some 0) : s = 0 := by
  obtain ⟨million, hmillion⟩ := value_of_isFinite.mp (show Float.isFinite 1000000 = true by decide)
  rw [nearestInt, value_zero_mul hw hmillion] at h
  have hs := Option.some.inj h
  norm_num at hs
  omega

theorem getElem?_of_forall₂ {A B : Type} {R : A → B → Prop} {as : List A} {bs : List B}
    (h : List.Forall₂ R as bs) {i : ℕ} {a : A} (ha : as[i]? = some a) : ∃ b, bs[i]? = some b ∧ R a b := by
  induction h generalizing i with
  | nil => cases ha
  | cons hab _ ih =>
    cases i with
    | zero => exact ⟨_, rfl, Option.some.inj ha ▸ hab⟩
    | succ i => exact ih ha

theorem fairAt_values {amount : Amount} {scaled : List ℕ} {values : List ℚ} {results : List Amount}
    (hexact : List.Forall₂ (fun (v : ℚ) (s : ℕ) => 1000000 * v = s) values scaled)
    (hfair : ∀ (i : ℕ) (s : ℕ), scaled[i]? = some s → FairAt amount results i s scaled.sum) {i : ℕ} {v : ℚ}
    (hv : values[i]? = some v) : FairAt amount results i v values.sum := by
  have hsum : 1000000 * values.sum = (scaled.sum : ℕ) := by
    clear hfair hv
    induction hexact with
    | nil => simp
    | cons h _ ih =>
      rw [List.sum_cons, List.sum_cons, mul_add, h, ih]
      push_cast
      rfl
  obtain ⟨s, hs, hscale⟩ := getElem?_of_forall₂ hexact hv
  obtain ⟨part, hpart, hfair⟩ := hfair i s hs
  refine ⟨part, hpart, Fair.rescale 1000000 (by norm_num) ?_⟩
  rwa [hscale, hsum]

/-- The parts add up to the amount, each of them the fair one for its weight in millionths. -/
theorem allocate_exact_and_fair (amount : Amount) {weights : List Float} {scaled : List ℕ}
    (hvalid : ∀ w ∈ weights, w.isFinite = true ∧ ¬ w < 0) (hscaled : Scaled weights scaled)
    (hpositive : 0 < scaled.sum) : ∃ parts : List Amount, allocate amount weights = .ok parts ∧
      parts.length = weights.length ∧ (parts.map Amount.cents).sum = amount.cents ∧
      (∀ (i s : ℕ), scaled[i]? = some s → FairAt amount parts i s scaled.sum) ∧
      (∀ (i : ℕ) (w : Float), weights[i]? = some w → value w = some 0 →
        ∃ part : Amount, parts[i]? = some part ∧ part.cents = 0) ∧
      allocate (-amount) weights = .ok (parts.map (-·)) ∧
      ∀ values : List ℚ, List.Forall₂ (fun w v => value w = some v) weights values →
        List.Forall₂ (fun (v : ℚ) (s : ℕ) => 1000000 * v = s) values scaled →
        ∀ (i : ℕ) (v : ℚ), values[i]? = some v → FairAt amount parts i v values.sum := by
  obtain ⟨results, hok, hcents⟩ := allocate_ok amount hvalid hscaled hpositive
  have hfair : ∀ i s : ℕ, scaled[i]? = some s → FairAt amount results i s scaled.sum :=
    fun i s hs => fairAt hpositive hcents hs
  have hlength := congrArg List.length hcents
  rw [List.length_map, List.length_map, magnitudes, parts, handOut_length, floors, List.length_map,
    ← hscaled.length_eq] at hlength
  refine ⟨results, hok, hlength, ?_, hfair, ?_, allocate_neg hvalid hscaled hpositive hcents,
    fun values _ hexact i v hv => fairAt_values hexact hfair hv⟩
  · rw [hcents, signed_sum, magnitudes, (ranking _ scaled).parts_sum hpositive, signed_natAbs]
  · intro i w hw hzero
    obtain ⟨s, hs, hnear⟩ := getElem?_of_forall₂ hscaled hw
    obtain ⟨part, hpart, hfair⟩ := hfair i s hs
    rw [scaled_zero hnear hzero, Nat.cast_zero] at hfair
    exact ⟨part, hpart, hfair.eq_zero⟩

theorem allocate_exact_and_fair_thirds : ∃ parts : List Amount,
    allocate ⟨-100, by decide, by decide⟩ [1, 0, 2] = .ok parts ∧ parts.length = 3 ∧
      (parts.map Amount.cents).sum = -100 := by
  obtain ⟨parts, hok, hlength, hsum, -⟩ :=
    @allocate_exact_and_fair ⟨-100, by decide, by decide⟩ [1, 0, 2] [1000000, 0, 2000000]
      (by decide) (by unfold Scaled; decide +kernel) (by decide)
  exact ⟨parts, hok, hlength, hsum⟩

/-- A weight below half a millionth counts for nothing, whatever the amount. -/
theorem share_below_a_millionth_lost :
    allocate ⟨4194305, by decide, by decide⟩ [1 / 4194304, 1] =
        .ok [⟨0, by decide, by decide⟩, ⟨4194305, by decide, by decide⟩] ∧
      value (1 / 4194304) = some (1 / 4194304) ∧ value 1 = some 1 ∧
      ¬ Fair 4194305 (1 / 4194304) (1 / 4194304 + 1) 0 := by
  refine ⟨by decide +kernel, by decide +kernel, by decide +kernel, ?_⟩
  norm_num [Fair]

end BaasConnector.Taxonomy.Allocation
