import Mathlib.Data.Fintype.EquivFin
import Mathlib.Data.List.Lookmap
import Mathlib.Data.List.Nodup

namespace BaasConnector.Lib.Keyed

variable {K V : Type} [DecidableEq K]

def lookup (k : K) : List (K × V) → Option V
  | [] => none
  | r :: rs => if r.1 = k then some r.2 else lookup k rs

/-- Overwrite the row of a key where it stands, or add one at the end. -/
def store (k : K) (v : V) : List (K × V) → List (K × V)
  | [] => [(k, v)]
  | r :: rs => if r.1 = k then (k, v) :: rs else r :: store k v rs

theorem mem_store_keys (k k' : K) (v : V) (rs : List (K × V)) :
    k' ∈ (store k v rs).map Prod.fst ↔ k' = k ∨ k' ∈ rs.map Prod.fst := by
  induction rs with
  | nil => simp [store]
  | cons r rs ih =>
    by_cases h : r.1 = k
    · subst h
      simp [store]
    · rw [store, if_neg h, List.map_cons, List.mem_cons, ih, List.map_cons, List.mem_cons]
      tauto

theorem store_nodup (k : K) (v : V) (rs : List (K × V)) (h : (rs.map Prod.fst).Nodup) :
    ((store k v rs).map Prod.fst).Nodup := by
  induction rs with
  | nil => simp [store]
  | cons r rs ih =>
    rw [List.map_cons, List.nodup_cons] at h
    by_cases hr : r.1 = k
    · rw [store, if_pos hr, List.map_cons, List.nodup_cons, ← hr]
      exact h
    · rw [store, if_neg hr, List.map_cons, List.nodup_cons, mem_store_keys]
      exact ⟨by simp only [hr, false_or]; exact h.1, ih h.2⟩

/-- A key that is not there yet comes last. -/
theorem store_new {k : K} (v : V) {rs : List (K × V)} (h : lookup k rs = none) :
    store k v rs = rs ++ [(k, v)] := by
  induction rs with
  | nil => rfl
  | cons r rs ih =>
    rw [lookup] at h
    split at h
    · cases h
    · next hne => rw [store, if_neg hne, ih h, List.cons_append]

theorem lookup_store (k k' : K) (v : V) (rs : List (K × V)) :
    lookup k' (store k v rs) = if k' = k then some v else lookup k' rs := by
  induction rs with
  | nil =>
    by_cases h : k' = k
    · simp [store, lookup, h]
    · simp [store, lookup, h, Ne.symm h]
  | cons r rs ih =>
    by_cases hr : r.1 = k
    · by_cases h : k' = k
      · simp [store, lookup, hr, h]
      · simp [store, lookup, hr, h, Ne.symm h]
    · rw [store, if_neg hr, lookup, lookup, ih]
      by_cases h : k' = k
      · simp [h, hr]
      · simp [h]

theorem lookup_eq_some {k : K} {v : V} {rs : List (K × V)} (h : (rs.map Prod.fst).Nodup) :
    lookup k rs = some v ↔ (k, v) ∈ rs := by
  induction rs with
  | nil => simp [lookup]
  | cons r rs ih =>
    rw [List.map_cons, List.nodup_cons] at h
    obtain ⟨rk, rv⟩ := r
    by_cases hr : rk = k
    · subst hr
      have hout : (rk, v) ∉ rs := fun hm => h.1 (List.mem_map.mpr ⟨(rk, v), hm, rfl⟩)
      simp [lookup, hout, eq_comm]
    · simp [lookup, hr, ih h.2, Ne.symm hr]

theorem lookup_filter (k k' : K) (rs : List (K × V)) :
    lookup k' (rs.filter (fun r => decide (r.1 ≠ k))) = if k' = k then none else lookup k' rs := by
  induction rs with
  | nil => simp [lookup]
  | cons r rs ih =>
    by_cases hr : r.1 = k
    · rw [List.filter_cons_of_neg (by simp [hr]), ih, lookup]
      by_cases h : k' = k
      · simp [h]
      · simp [h, hr, Ne.symm h]
    · rw [List.filter_cons_of_pos (by simp [hr]), lookup, ih, lookup]
      by_cases h : k' = k
      · simp [h, hr]
      · simp [h]

theorem lookup_map {W : Type} (f : V → W) (k : K) (rs : List (K × V)) :
    lookup k (rs.map fun r => (r.1, f r.2)) = (lookup k rs).map f := by
  induction rs with
  | nil => rfl
  | cons r rs ih =>
    by_cases hr : r.1 = k
    · simp [lookup, hr]
    · simpa [lookup, hr] using ih

/-- A map that lists its rows in order of insertion, one row a key. -/
structure Table (K V : Type) where
  rows : List (K × V)
  nodup : (rows.map Prod.fst).Nodup

namespace Table

def empty : Table K V := ⟨[], List.nodup_nil⟩

instance : Inhabited (Table K V) := ⟨empty⟩

def get (t : Table K V) (k : K) : Option V := lookup k t.rows

def set (t : Table K V) (k : K) (v : V) : Table K V := ⟨store k v t.rows, store_nodup k v t.rows t.nodup⟩

def delete (t : Table K V) (k : K) : Table K V :=
  ⟨t.rows.filter (fun r => decide (r.1 ≠ k)),
    t.nodup.sublist (List.filter_sublist.map Prod.fst)⟩

def values (t : Table K V) : List V := t.rows.map Prod.snd

/-- The first value in order of insertion that satisfies the test. -/
def search (t : Table K V) (p : V → Bool) : Option V := t.values.find? p

@[simp] theorem get_empty (k : K) : (empty : Table K V).get k = none := rfl

theorem get_set (t : Table K V) (k k' : K) (v : V) :
    (t.set k v).get k' = if k' = k then some v else t.get k' := lookup_store k k' v t.rows

@[simp] theorem get_set_self (t : Table K V) (k : K) (v : V) : (t.set k v).get k = some v := by
  rw [get_set, if_pos rfl]

theorem get_set_ne (t : Table K V) {k k' : K} (v : V) (h : k' ≠ k) :
    (t.set k v).get k' = t.get k' := by rw [get_set, if_neg h]

theorem get_delete (t : Table K V) (k k' : K) :
    (t.delete k).get k' = if k' = k then none else t.get k' := lookup_filter k k' t.rows

def mapValues (t : Table K V) (f : V → V) : Table K V :=
  ⟨t.rows.map fun r => (r.1, f r.2), by simpa [Function.comp_def] using t.nodup⟩

theorem get_mapValues (t : Table K V) (f : V → V) (k : K) :
    (t.mapValues f).get k = (t.get k).map f := lookup_map f k t.rows

theorem mem_values {t : Table K V} {v : V} : v ∈ t.values ↔ ∃ k, t.get k = some v := by
  simp only [values, List.mem_map, get, lookup_eq_some t.nodup, Prod.exists, exists_eq_right]

theorem search_eq_none {t : Table K V} {p : V → Bool} :
    t.search p = none ↔ ∀ k v, t.get k = some v → p v = false := by
  rw [search, List.find?_eq_none]
  refine ⟨fun h k v hv => ?_, fun h v hm => ?_⟩
  · simpa using h v (mem_values.mpr ⟨k, hv⟩)
  · obtain ⟨k, hk⟩ := mem_values.mp hm
    simpa using h k v hk

theorem search_some {t : Table K V} {p : V → Bool} {v : V} (h : t.search p = some v) :
    p v = true ∧ ∃ k, t.get k = some v :=
  ⟨List.find?_some h, mem_values.mp (List.mem_of_find?_eq_some h)⟩

/-- A search whose test singles out one value finds that value. -/
theorem search_of_unique {t : Table K V} {p : V → Bool} {k : K} {v : V} (hk : t.get k = some v)
    (hp : p v = true) (huniq : ∀ k' v', t.get k' = some v' → p v' = true → v' = v) :
    t.search p = some v := by
  cases hs : t.search p with
  | none => exact absurd (search_eq_none.mp hs k v hk) (by simp [hp])
  | some v' =>
    obtain ⟨hp', k', hk'⟩ := search_some hs
    rw [huniq k' v' hk' hp']

end Table

/-- A table of records, each under its own key. -/
structure Rows (K V : Type) [DecidableEq K] (key : V → K) where
  table : Table K V
  keyed : ∀ k v, table.get k = some v → key v = k

namespace Rows

variable {key : V → K}

def empty : Rows K V key := ⟨.empty, fun _ _ h => nomatch h⟩

instance : Inhabited (Rows K V key) := ⟨empty⟩

def get (t : Rows K V key) (k : K) : Option V := t.table.get k

def put (t : Rows K V key) (v : V) : Rows K V key where
  table := t.table.set (key v) v
  keyed k w h := by
    rw [Table.get_set] at h
    by_cases hk : k = key v
    · rw [if_pos hk, Option.some.injEq] at h
      rw [← h, hk]
    · rw [if_neg hk] at h
      exact t.keyed k w h

def delete (t : Rows K V key) (k : K) : Rows K V key where
  table := t.table.delete k
  keyed k' w h := by
    rw [Table.get_delete] at h
    by_cases hk : k' = k
    · simp [hk] at h
    · rw [if_neg hk] at h
      exact t.keyed k' w h

def search (t : Rows K V key) (p : V → Bool) : Option V := t.table.search p

/-- One statement over all rows, which leaves their keys as they are. -/
def updateMany (t : Rows K V key) (f : V → V) (hf : ∀ v, key (f v) = key v) : Rows K V key where
  table := t.table.mapValues f
  keyed k w h := by
    rw [Table.get_mapValues, Option.map_eq_some_iff] at h
    obtain ⟨v, hv, hw⟩ := h
    rw [← hw, hf, t.keyed k v hv]

/-- Insert a row unless its key is taken. -/
def createNew (t : Rows K V key) (v : V) : Rows K V key :=
  match t.get (key v) with
  | some _ => t
  | none => t.put v

theorem key_of_get {t : Rows K V key} {k : K} {v : V} (h : t.get k = some v) : key v = k :=
  t.keyed k v h

@[simp] theorem get_empty (k : K) : (empty : Rows K V key).get k = none := rfl

theorem get_put (t : Rows K V key) (k : K) (v : V) :
    (t.put v).get k = if k = key v then some v else t.get k := Table.get_set t.table (key v) k v

@[simp] theorem get_put_self (t : Rows K V key) (v : V) : (t.put v).get (key v) = some v := by
  rw [get_put, if_pos rfl]

theorem get_put_ne (t : Rows K V key) {k : K} (v : V) (h : k ≠ key v) :
    (t.put v).get k = t.get k := by rw [get_put, if_neg h]

theorem get_delete (t : Rows K V key) (k k' : K) :
    (t.delete k).get k' = if k' = k then none else t.get k' := Table.get_delete t.table k k'

theorem get_updateMany (t : Rows K V key) (f : V → V) (hf : ∀ v, key (f v) = key v) (k : K) :
    (t.updateMany f hf).get k = (t.get k).map f := Table.get_mapValues t.table f k

theorem get_createNew_of_some {t : Rows K V key} {k : K} {v w : V} (h : t.get k = some v) :
    (t.createNew w).get k = some v := by
  unfold createNew
  cases hw : t.get (key w) with
  | some _ => exact h
  | none =>
    change (t.put w).get k = some v
    rw [get_put_ne]
    · exact h
    · rintro rfl
      rw [hw] at h
      cases h

theorem get_createNew_self (t : Rows K V key) (v : V) : ∃ w, (t.createNew v).get (key v) = some w := by
  unfold createNew
  cases hv : t.get (key v) with
  | some w => exact ⟨w, hv⟩
  | none => exact ⟨v, get_put_self t v⟩

theorem get_createNew {t : Rows K V key} {k : K} {v w : V} (h : (t.createNew v).get k = some w) :
    t.get k = some w ∨ w = v := by
  unfold createNew at h
  cases hv : t.get (key v) with
  | some u =>
    rw [hv] at h
    exact .inl h
  | none =>
    rw [hv] at h
    change (t.put v).get k = some w at h
    rw [get_put] at h
    by_cases hk : k = key v
    · rw [if_pos hk, Option.some.injEq] at h
      exact .inr h.symm
    · rw [if_neg hk] at h
      exact .inl h

theorem search_eq_none {t : Rows K V key} {p : V → Bool} :
    t.search p = none ↔ ∀ k v, t.get k = some v → p v = false := Table.search_eq_none

theorem search_some {t : Rows K V key} {p : V → Bool} {v : V} (h : t.search p = some v) :
    p v = true ∧ t.get (key v) = some v := by
  obtain ⟨hp, k, hk⟩ := Table.search_some h
  exact ⟨hp, by rw [t.keyed k v hk]; exact hk⟩

/-- A search whose test singles out one record finds that record. -/
theorem search_of_unique {t : Rows K V key} {p : V → Bool} {k : K} {v : V} (hk : t.get k = some v)
    (hp : p v = true) (huniq : ∀ k' v', t.get k' = some v' → p v' = true → k' = k) :
    t.search p = some v := by
  refine Table.search_of_unique hk hp fun k' v' h' hp' => ?_
  have he : some v' = some v := by rw [← hk, ← huniq k' v' h' hp']; exact h'.symm
  exact Option.some.inj he

theorem values_nodup (t : Rows K V key) : (t.table.values.map key).Nodup := by
  have hkeys : t.table.values.map key = t.table.rows.map Prod.fst := by
    rw [Table.values, List.map_map]
    refine List.map_congr_left fun r hr => ?_
    exact t.keyed r.1 r.2 ((lookup_eq_some t.table.nodup).mpr hr)
  rw [hkeys]
  exact t.table.nodup

/-- No two records pass a test that singles out a key. -/
theorem length_filter_le_one {t : Rows K V key} {p : V → Bool}
    (h : ∀ v w, t.get (key v) = some v → t.get (key w) = some w → p v = true → p w = true → key v = key w) :
    (t.table.values.filter p).length ≤ 1 := by
  have hnodup : ((t.table.values.filter p).map key).Nodup :=
    t.values_nodup.sublist (List.filter_sublist.map key)
  have hpass : ∀ v ∈ t.table.values.filter p, t.get (key v) = some v ∧ p v = true := by
    intro v hv
    obtain ⟨hmem, hp⟩ := List.mem_filter.mp hv
    obtain ⟨k, hk⟩ := Table.mem_values.mp hmem
    exact ⟨by rw [t.keyed k v hk]; exact hk, hp⟩
  cases hl : t.table.values.filter p with
  | nil => exact Nat.zero_le 1
  | cons v l =>
    cases l with
    | nil => exact Nat.le_refl 1
    | cons w l =>
      rw [hl] at hpass hnodup
      obtain ⟨hv, hpv⟩ := hpass v List.mem_cons_self
      obtain ⟨hw, hpw⟩ := hpass w (List.mem_cons_of_mem v List.mem_cons_self)
      rw [List.map_cons, List.map_cons, List.nodup_cons, h v w hv hw hpv hpw] at hnodup
      exact absurd List.mem_cons_self hnodup.1

theorem forall_get {t : Rows K V key} {p : V → Prop} :
    (∀ k v, t.get k = some v → p v) ↔ ∀ v ∈ t.table.values, p v :=
  ⟨fun h v hv => (Table.mem_values.mp hv).elim fun k hk => h k v hk,
    fun h k v hk => h v (Table.mem_values.mpr ⟨k, hk⟩)⟩

end Rows

/-- Over infinitely many keys there is always one that is not in use. -/
theorem Table.exists_fresh [Infinite K] (t : Table K V) : ∃ k, t.get k = none := by
  obtain ⟨k, hk⟩ := Infinite.exists_notMem_finset (t.rows.map Prod.fst).toFinset
  refine ⟨k, ?_⟩
  cases h : t.get k with
  | none => rfl
  | some v =>
    have hm := (lookup_eq_some t.nodup).mp h
    exact absurd (List.mem_toFinset.mpr (List.mem_map.mpr ⟨(k, v), hm, rfl⟩)) hk

end BaasConnector.Lib.Keyed

namespace BaasConnector.Lib.Mirrored

open BaasConnector.Lib.Keyed

variable {K V W : Type} [DecidableEq K] {key : V → K} {key' : W → K} {f : V → W}

/-- The second table stores what the first one stores, each record through the
translation and in the same order. -/
def Mirrors (f : V → W) (t : Rows K V key) (u : Rows K W key') : Prop :=
  u.table.rows = t.table.rows.map fun r => (r.1, f r.2)

theorem store_map (k : K) (v : V) (rs : List (K × V)) :
    store k (f v) (rs.map fun r => (r.1, f r.2)) = (store k v rs).map fun r => (r.1, f r.2) := by
  induction rs with
  | nil => rfl
  | cons r rs ih =>
    by_cases hr : r.1 = k
    · simp [store, hr]
    · simpa [store, hr] using ih

theorem Mirrors.empty : Mirrors f (Rows.empty : Rows K V key) (Rows.empty : Rows K W key') := rfl

theorem Mirrors.get {t : Rows K V key} {u : Rows K W key'} (h : Mirrors f t u) (k : K) :
    u.get k = (t.get k).map f := by
  rw [Rows.get, Table.get, h]
  exact lookup_map f k t.table.rows

theorem Mirrors.put {t : Rows K V key} {u : Rows K W key'} (h : Mirrors f t u) {v : V} {w : W}
    (hw : w = f v) (hk : key' w = key v) : Mirrors f (t.put v) (u.put w) := by
  subst hw
  change store (key' (f v)) (f v) u.table.rows = (store (key v) v t.table.rows).map _
  rw [h, hk]
  exact store_map (key v) v t.table.rows

/-- A search answers the same on both sides when the tests agree on every
record. -/
theorem Mirrors.search {t : Rows K V key} {u : Rows K W key'} (h : Mirrors f t u) {p : V → Bool}
    {q : W → Bool} (hpq : ∀ v, q (f v) = p v) : u.search q = (t.search p).map f := by
  have hv : u.table.values = t.table.values.map f := by
    rw [Table.values, h, Table.values, List.map_map, List.map_map]
    rfl
  have hq : q ∘ f = p := funext hpq
  rw [Rows.search, Table.search, hv, List.find?_map, hq]
  rfl

/-- A search whose test asks for the key is a lookup. -/
theorem search_key (t : Rows K V key) (k : K) (p : V → Bool) :
    t.search (fun v => p v && decide (key v = k)) = (t.get k).filter p := by
  cases hs : t.search fun v => p v && decide (key v = k) with
  | none =>
    cases hk : t.get k with
    | none => rfl
    | some v =>
      have hp : p v = false := by
        simpa [Rows.key_of_get hk] using Rows.search_eq_none.mp hs k v hk
      simp [Option.filter, hp]
  | some v =>
    obtain ⟨hp, hg⟩ := Rows.search_some hs
    rw [Bool.and_eq_true, decide_eq_true_eq] at hp
    rw [hp.2] at hg
    simp [hg, Option.filter, hp.1]

end BaasConnector.Lib.Mirrored
