import BaasConnector.Lib.Keyed
import Mathlib
import Mathlib.Algebra.BigOperators.Group.Finset.Basic
import Mathlib.Algebra.Order.BigOperators.Group.Finset

namespace BaasConnector.Lib.Running

variable {G : Type*} [AddCommGroup G] [LinearOrder G]

/-- The total that starts here is never negative after any of the changes. -/
def Stays (start : G) : List G → Prop
  | [] => True
  | change :: changes => 0 ≤ start + change ∧ Stays (start + change) changes

/-- What the falling changes take together. -/
def falls (changes : List G) : G := (changes.filter (· < 0)).sum

variable {start : G} {changes rest : List G}

theorem stays_append : Stays start (changes ++ rest) ↔
    Stays start changes ∧ Stays (start + changes.sum) rest := by
  induction changes generalizing start with
  | nil => simp [Stays]
  | cons change changes ih =>
    rw [List.cons_append, Stays, Stays, ih, List.sum_cons, and_assoc, add_assoc]

theorem Stays.total (hstart : 0 ≤ start) (h : Stays start changes) : 0 ≤ start + changes.sum := by
  induction changes generalizing start with
  | nil => simpa using hstart
  | cons change changes ih =>
    have hrest := ih h.1 h.2
    rwa [List.sum_cons, ← add_assoc]

theorem falls_cons (change : G) (changes : List G) :
    falls (change :: changes) = (if change < 0 then change else 0) + falls changes := by
  unfold falls
  by_cases hneg : change < 0
  · simp [hneg]
  · simp [hneg]

variable [IsOrderedAddMonoid G]

theorem falls_nonpos (changes : List G) : falls changes ≤ 0 := by
  induction changes with
  | nil => exact le_refl 0
  | cons change changes ih =>
    rw [falls_cons]
    split
    · next hneg => exact add_nonpos hneg.le ih
    · simpa using ih

/-- A start that covers all falls is enough for any order. -/
theorem stays_of_falls (h : 0 ≤ start + falls changes) : Stays start changes := by
  induction changes generalizing start with
  | nil => trivial
  | cons change changes ih =>
    rw [falls_cons] at h
    by_cases hneg : change < 0
    · rw [if_pos hneg, ← add_assoc] at h
      have hafter : start + change + falls changes ≤ start + change :=
        add_le_of_nonpos_right (falls_nonpos changes)
      exact ⟨h.trans hafter, ih h⟩
    · rw [if_neg hneg, zero_add] at h
      have hrise : start ≤ start + change := le_add_of_nonneg_right (not_lt.mp hneg)
      have hstart : start + falls changes ≤ start := add_le_of_nonpos_right (falls_nonpos changes)
      exact ⟨(h.trans hstart).trans hrise, ih (h.trans (by gcongr))⟩

end BaasConnector.Lib.Running

namespace BaasConnector.Lib.Budget

variable {ι : Type}

/-- Whatever finite part of the shares is called in, the total stays within the
budget. -/
def Fits (share : ι → Int) (spent budget : Int) : Prop :=
  ∀ L : Finset ι, ∑ j ∈ L, share j + spent ≤ budget

variable {share share' : ι → Int} {spent spent' budget v : Int} {i : ι}

theorem Fits.spent_le (h : Fits share spent budget) : spent ≤ budget := by
  have hempty := h ∅
  simpa using hempty

theorem Fits.mono (h : Fits share spent budget) (hshare : ∀ j, share' j ≤ share j)
    (hs : spent' ≤ spent) : Fits share' spent' budget := by
  intro L
  have hL := h L
  have hsum : ∑ j ∈ L, share' j ≤ ∑ j ∈ L, share j := Finset.sum_le_sum fun j _ => hshare j
  omega

variable [DecidableEq ι]

theorem sum_update_notMem {L : Finset ι} (hi : i ∉ L) :
    ∑ j ∈ L, Function.update share i v j = ∑ j ∈ L, share j := by
  refine Finset.sum_congr rfl fun j hj => ?_
  have hne : j ≠ i := fun h => hi (h ▸ hj)
  rw [Function.update_of_ne hne]

theorem sum_update_mem {L : Finset ι} (hi : i ∈ L) :
    ∑ j ∈ L, Function.update share i v j = v + ∑ j ∈ L.erase i, share j := by
  rw [← Finset.add_sum_erase L _ hi, Function.update_self,
    sum_update_notMem (Finset.notMem_erase i L)]

/-- A new share that fits in beside all others. -/
theorem Fits.take (h : Fits share spent budget)
    (hroom : ∀ L : Finset ι, i ∉ L → v + ∑ j ∈ L, share j + spent ≤ budget) :
    Fits (Function.update share i v) spent budget := by
  intro L
  by_cases hi : i ∈ L
  · rw [sum_update_mem hi]
    exact hroom _ (Finset.notMem_erase i L)
  · rw [sum_update_notMem hi]
    exact h L

/-- A share that is spent, or given up. -/
theorem Fits.spend (h : Fits share spent budget) (hs : spent' ≤ spent + share i) :
    Fits (Function.update share i 0) spent' budget := by
  intro L
  by_cases hi : i ∈ L
  · have hL := h L
    rw [← Finset.add_sum_erase L share hi] at hL
    rw [sum_update_mem hi]
    omega
  · have hL := h (insert i L)
    rw [Finset.sum_insert hi] at hL
    rw [sum_update_notMem hi]
    omega

end BaasConnector.Lib.Budget

namespace BaasConnector.Lib.Keyed

variable {K V : Type} [DecidableEq K]

theorem sum_store (f : V → Int) (k : K) (v : V) (rs : List (K × V)) :
    ((store k v rs).map fun r => f r.2).sum + ((lookup k rs).map f).getD 0 =
      (rs.map fun r => f r.2).sum + f v := by
  induction rs with
  | nil => simp [store, lookup]
  | cons r rs ih =>
    by_cases hr : r.1 = k
    · rw [store, if_pos hr, lookup, if_pos hr]
      simp only [List.map_cons, List.sum_cons, Option.map_some, Option.getD_some]
      omega
    · rw [store, if_neg hr, lookup, if_neg hr, List.map_cons, List.sum_cons, List.map_cons,
        List.sum_cons]
      omega

namespace Table

/-- What the rows of a table add up to. -/
def total (t : Table K V) (f : K → V → Int) : Int := (t.rows.map fun r => f r.1 r.2).sum

variable {t : Table K V} {f g : K → V → Int}

theorem total_congr (h : ∀ k v, t.get k = some v → f k v = g k v) : t.total f = t.total g := by
  unfold total
  refine congrArg List.sum (List.map_congr_left fun r hr => ?_)
  exact h r.1 r.2 ((lookup_eq_some t.nodup).mpr hr)

theorem total_zero (h : ∀ k v, t.get k = some v → f k v = 0) : t.total f = 0 := by
  rw [total_congr (g := fun _ _ => 0) h]
  simp [total]

theorem total_nonneg (h : ∀ k v, t.get k = some v → 0 ≤ f k v) : 0 ≤ t.total f := by
  apply List.sum_nonneg
  intro x hx
  obtain ⟨r, hr, rfl⟩ := List.mem_map.mp hx
  exact h r.1 r.2 ((lookup_eq_some t.nodup).mpr hr)

theorem total_set_new {k : K} (v : V) (h : t.get k = none) :
    (t.set k v).total f = t.total f + f k v := by
  obtain ⟨rows, hnodup⟩ := t
  change lookup k rows = none at h
  change ((store k v rows).map fun r => f r.1 r.2).sum = (rows.map fun r => f r.1 r.2).sum + f k v
  clear hnodup
  induction rows with
  | nil => simp [store]
  | cons r rows ih =>
    have hr : r.1 ≠ k := fun hr => by simp [lookup, hr] at h
    rw [lookup, if_neg hr] at h
    rw [store, if_neg hr, List.map_cons, List.sum_cons, List.map_cons, List.sum_cons, ih h]
    omega

/-- A value that counts as much as the one it replaces. -/
theorem total_set_same {k : K} {v w : V} (h : t.get k = some w) (hf : f k v = f k w) :
    (t.set k v).total f = t.total f := by
  obtain ⟨rows, hnodup⟩ := t
  change lookup k rows = some w at h
  change ((store k v rows).map fun r => f r.1 r.2).sum = (rows.map fun r => f r.1 r.2).sum
  clear hnodup
  induction rows with
  | nil => cases h
  | cons r rows ih =>
    by_cases hr : r.1 = k
    · rw [lookup, if_pos hr, Option.some.injEq] at h
      rw [store, if_pos hr, List.map_cons, List.sum_cons, List.map_cons, List.sum_cons, hf, hr, h]
    · rw [lookup, if_neg hr] at h
      rw [store, if_neg hr, List.map_cons, List.sum_cons, List.map_cons, List.sum_cons, ih h]

/-- The rest of a table, and the one row that is taken out. -/
theorem total_delete {k : K} {v : V} (h : t.get k = some v) :
    t.total f = (t.delete k).total f + f k v := by
  obtain ⟨rows, hnodup⟩ := t
  change lookup k rows = some v at h
  change (rows.map fun r => f r.1 r.2).sum =
    ((rows.filter fun r => decide (r.1 ≠ k)).map fun r => f r.1 r.2).sum + f k v
  induction rows with
  | nil => cases h
  | cons r rows ih =>
    rw [List.map_cons, List.nodup_cons] at hnodup
    by_cases hr : r.1 = k
    · rw [lookup, if_pos hr, Option.some.injEq] at h
      have hrest : (rows.filter fun r => decide (r.1 ≠ k)) = rows := by
        apply List.filter_eq_self.mpr
        intro r' hr'
        have hne : r'.1 ≠ k := fun he => hnodup.1 (List.mem_map.mpr ⟨r', hr', by rw [he, hr]⟩)
        simp [hne]
      rw [List.filter_cons_of_neg (by simp [hr]), hrest, List.map_cons, List.sum_cons, hr, h]
      omega
    · rw [lookup, if_neg hr] at h
      rw [List.filter_cons_of_pos (by simp [hr]), List.map_cons, List.sum_cons, List.map_cons,
        List.sum_cons, ih hnodup.2 h]
      omega

/-- Two ways to count that differ on one row only. -/
theorem total_replace {k : K} {v : V} (hk : t.get k = some v)
    (h : ∀ k' v', k' ≠ k → t.get k' = some v' → g k' v' = f k' v') :
    t.total g = t.total f - f k v + g k v := by
  have hrest : (t.delete k).total g = (t.delete k).total f := by
    apply total_congr
    intro k' v' hv
    rw [get_delete] at hv
    split at hv
    · cases hv
    · next hne => exact h k' v' hne hv
  rw [total_delete (f := g) hk, total_delete (f := f) hk, hrest]
  omega

end Table

namespace Rows

variable {key : V → K}

/-- What the records of a table add up to. -/
def total (t : Rows K V key) (f : V → Int) : Int := (t.table.values.map f).sum

variable {t : Rows K V key} {f g : V → Int}

theorem total_put (t : Rows K V key) (f : V → Int) (v : V) :
    (t.put v).total f + ((t.get (key v)).map f).getD 0 = t.total f + f v := by
  have h := sum_store f (key v) v t.table.rows
  unfold total Table.values
  rw [List.map_map, List.map_map]
  exact h

theorem total_put_new {v : V} (h : t.get (key v) = none) : (t.put v).total f = t.total f + f v := by
  have hp := total_put t f v
  rw [h, Option.map_none, Option.getD_none] at hp
  omega

/-- A record that counts as much as the one it replaces. -/
theorem total_put_same {v : V} (old : V) (h : t.get (key v) = some old) (hf : f v = f old) :
    (t.put v).total f = t.total f := by
  have hp := total_put t f v
  rw [h, Option.map_some, Option.getD_some, hf] at hp
  omega

theorem total_congr (h : ∀ k v, t.get k = some v → f v = g v) : t.total f = t.total g := by
  unfold total
  refine congrArg List.sum (List.map_congr_left fun v hv => ?_)
  obtain ⟨k, hk⟩ := Table.mem_values.mp hv
  exact h k v hk

theorem total_zero (h : ∀ k v, t.get k = some v → f v = 0) : t.total f = 0 := by
  rw [total_congr (g := fun _ => 0) h]
  simp [total]

theorem total_table (t : Rows K V key) (f : V → Int) : t.total f = t.table.total fun _ v => f v :=
  congrArg List.sum List.map_map

theorem total_delete {k : K} {v : V} (h : t.get k = some v) : t.total f = (t.delete k).total f + f v := by
  rw [total_table, total_table]
  exact Table.total_delete h

theorem sum_filter (p : V → Bool) (f : V → Int) (l : List V) :
    ((l.filter p).map f).sum = (l.map fun v => if p v then f v else 0).sum := by
  induction l with
  | nil => rfl
  | cons v l ih =>
    rw [List.map_cons, List.sum_cons, ← ih, List.filter_cons]
    split
    · rw [List.map_cons, List.sum_cons]
    · rw [Int.zero_add]

/-- What the records that pass a test add up to. -/
theorem total_filter (t : Rows K V key) (p : V → Bool) (f : V → Int) :
    ((t.table.values.filter p).map f).sum = t.total fun v => if p v then f v else 0 :=
  sum_filter p f t.table.values

/-- Of counts that are not negative each is at most the total. -/
theorem le_total {k : K} {v : V} (hk : t.get k = some v) (h : ∀ k v, t.get k = some v → 0 ≤ f v) :
    f v ≤ t.total f := by
  have hrest : 0 ≤ (t.delete k).table.total fun _ v => f v := by
    refine Table.total_nonneg fun k' v' hv => ?_
    rw [show (t.delete k).table.get k' = _ from get_delete t k k'] at hv
    split at hv
    · cases hv
    · exact h k' v' hv
  rw [total_delete hk, total_table]
  omega

/-- The record of a key stays, unless one under the key is put. -/
theorem get_puts_of_ne {k : K} {vs : List V} (t : Rows K V key) (h : ∀ v ∈ vs, key v ≠ k) :
    (vs.foldl put t).get k = t.get k := by
  induction vs generalizing t with
  | nil => rfl
  | cons v vs ih =>
    rw [List.foldl_cons, ih _ fun w hw => h w (List.mem_cons_of_mem _ hw)]
    exact get_put_ne t v fun he => h v List.mem_cons_self he.symm

theorem get_puts_of_mem {vs : List V} (t : Rows K V key) (h : (vs.map key).Nodup) {v : V} (hv : v ∈ vs) :
    (vs.foldl put t).get (key v) = some v := by
  induction vs generalizing t with
  | nil => cases hv
  | cons w vs ih =>
    rw [List.map_cons, List.nodup_cons] at h
    rw [List.foldl_cons]
    by_cases hm : v ∈ vs
    · exact ih _ h.2 hm
    · have he : v = w := (List.mem_cons.mp hv).resolve_right hm
      subst he
      rw [get_puts_of_ne _ fun w hw hk => h.1 (List.mem_map.mpr ⟨w, hw, hk⟩)]
      exact get_put_self t v

end Rows

end BaasConnector.Lib.Keyed
