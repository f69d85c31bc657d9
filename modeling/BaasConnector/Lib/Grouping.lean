import BaasConnector.Lib.Keyed
import Mathlib.Data.List.Perm.Basic

namespace BaasConnector.Lib.Keyed

variable {K V : Type} [DecidableEq K]

namespace Table

def deleteAll (t : Table K V) (ks : List K) : Table K V := ks.foldl delete t

theorem rows_deleteAll (t : Table K V) (ks : List K) :
    (t.deleteAll ks).rows = t.rows.filter fun r => decide (r.1 ∉ ks) := by
  induction ks generalizing t with
  | nil => simp [deleteAll]
  | cons k ks ih =>
    have h := ih (t.delete k)
    rw [deleteAll, List.foldl_cons]
    rw [deleteAll] at h
    rw [h, delete, List.filter_filter]
    refine List.filter_congr fun r _ => ?_
    simp [Bool.and_comm]

theorem get_eq_some {t : Table K V} {k : K} {v : V} : t.get k = some v ↔ (k, v) ∈ t.rows :=
  lookup_eq_some t.nodup

theorem get_deleteAll (t : Table K V) (ks : List K) (k : K) :
    (t.deleteAll ks).get k = if k ∈ ks then none else t.get k := by
  induction ks generalizing t with
  | nil => simp [deleteAll]
  | cons k' ks ih =>
    have h := ih (t.delete k')
    rw [deleteAll, List.foldl_cons]
    rw [deleteAll, get_delete] at h
    rw [h]
    by_cases hk : k = k' <;> by_cases hks : k ∈ ks <;> simp [hk, hks]

theorem deleteAll_append (t : Table K V) (ks ks' : List K) :
    t.deleteAll (ks ++ ks') = (t.deleteAll ks).deleteAll ks' := List.foldl_append

end Table

/-- The values under each key, the keys in the order of their first value. -/
def group (key : V → Option K) (vs : List V) : Table K (List V) :=
  vs.foldl (fun groups v =>
    match key v with
    | none => groups
    | some k => groups.set k (((groups.get k).getD []) ++ [v])) .empty

/-- The values of one key. -/
def under (key : V → Option K) (k : K) (vs : List V) : List V := vs.filter fun v => decide (key v = some k)

def groupKeys (key : V → Option K) (vs : List V) : List K := (group key vs).rows.map Prod.fst

variable {key : V → Option K}

theorem mem_under {k : K} {v : V} {vs : List V} : v ∈ under key k vs ↔ v ∈ vs ∧ key v = some k := by
  rw [under, List.mem_filter, decide_eq_true_eq]

theorem under_append (k : K) (vs ws : List V) :
    under key k (vs ++ ws) = under key k vs ++ under key k ws := List.filter_append ..

theorem group_concat (vs : List V) (v : V) :
    group key (vs ++ [v]) = match key v with
      | none => group key vs
      | some k => (group key vs).set k ((((group key vs).get k).getD []) ++ [v]) := by
  rw [group, List.foldl_append]
  rfl

theorem group_get (vs : List V) (k : K) :
    (group key vs).get k = if under key k vs = [] then none else some (under key k vs) := by
  induction vs using List.reverseRecOn with
  | nil => rfl
  | append_singleton vs v ih =>
    rw [group_concat, under_append]
    cases hv : key v with
    | none => simp [ih, under, hv]
    | some k' =>
      by_cases hk : k = k'
      · subst hk
        have hone : under key k [v] = [v] := by simp [under, hv]
        have hold : ((group key vs).get k).getD [] = under key k vs := by
          rw [ih]
          split <;> simp_all
        rw [Table.get_set_self, hone, hold, if_neg (by simp)]
      · have hone : under key k [v] = [] := by simp [under, hv, Ne.symm hk]
        rw [Table.get_set_ne _ _ hk, hone, List.append_nil, ih]

theorem mem_groupKeys {k : K} {vs : List V} : k ∈ groupKeys key vs ↔ ∃ v ∈ vs, key v = some k := by
  have hget : k ∈ groupKeys key vs ↔ ∃ g, (group key vs).get k = some g := by
    simp [groupKeys, Table.get_eq_some]
  rw [hget, group_get]
  constructor
  · rintro ⟨g, hg⟩
    split at hg
    · cases hg
    · next hne =>
      obtain ⟨v, hv⟩ := List.exists_mem_of_ne_nil _ hne
      exact ⟨v, mem_under.mp hv⟩
  · rintro ⟨v, hv⟩
    have hne : under key k vs ≠ [] := List.ne_nil_of_mem (mem_under.mpr hv)
    exact ⟨_, if_neg hne⟩

theorem groupKeys_nodup (key : V → Option K) (vs : List V) : (groupKeys key vs).Nodup :=
  (group key vs).nodup

/-- A grouping lists, for each key, the values of that key in their order. -/
theorem group_rows (key : V → Option K) (vs : List V) :
    (group key vs).rows = (groupKeys key vs).map fun k => (k, under key k vs) := by
  rw [groupKeys, List.map_map]
  refine (List.map_id _).symm.trans (List.map_congr_left fun r hr => ?_)
  have hg := Table.get_eq_some.mpr hr
  rw [group_get] at hg
  split at hg
  · cases hg
  · exact Prod.ext rfl (Option.some.inj hg).symm

theorem under_ne_nil {k : K} {vs : List V} (h : k ∈ groupKeys key vs) : under key k vs ≠ [] := by
  obtain ⟨v, hv⟩ := mem_groupKeys.mp h
  exact List.ne_nil_of_mem (mem_under.mpr hv)

theorem groupKeys_perm {vs ws : List V} (h : vs.Perm ws) :
    (groupKeys key vs).Perm (groupKeys key ws) := by
  refine (List.perm_ext_iff_of_nodup (groupKeys_nodup key vs) (groupKeys_nodup key ws)).mpr fun k => ?_
  simp only [mem_groupKeys, h.mem_iff]

theorem under_perm (key : V → Option K) (k : K) {vs ws : List V} (h : vs.Perm ws) :
    (under key k vs).Perm (under key k ws) := h.filter _

/-- Values without a key make no difference to a grouping. -/
theorem group_filter {q : V → Bool} {vs : List V} (h : ∀ v ∈ vs, q v = false → key v = none) :
    group key (vs.filter q) = group key vs := by
  induction vs using List.reverseRecOn with
  | nil => rfl
  | append_singleton vs v ih =>
    have hvs := ih fun w hw => h w (List.mem_append_left _ hw)
    rw [List.filter_append, group_concat]
    cases hq : q v with
    | false =>
      have hv := h v (List.mem_append_right _ (List.mem_singleton_self v)) hq
      simp [hq, hv, hvs]
    | true =>
      have hone : [v].filter q = [v] := by simp [hq]
      rw [hone, group_concat, hvs]

/-- What is drawn from groups of distinct keys is drawn once. -/
theorem nodup_flatMap_under (key : V → Option K) {W : Type} {f : V → W} {vs : List V} (hvs : (vs.map f).Nodup)
    {ks : List K} (hks : ks.Nodup) {drawn : K → List W} (hnodup : ∀ k ∈ ks, (drawn k).Nodup)
    (hdrawn : ∀ k ∈ ks, ∀ w ∈ drawn k, w ∈ (under key k vs).map f) : (ks.flatMap drawn).Nodup := by
  rw [List.nodup_flatMap]
  refine ⟨hnodup, hks.imp_of_mem fun {k k'} hk hk' hne => ?_⟩
  intro w hw hw'
  obtain ⟨v, hv, rfl⟩ := List.mem_map.mp (hdrawn k hk w hw)
  obtain ⟨v', hv', he⟩ := List.mem_map.mp (hdrawn k' hk' _ hw')
  obtain ⟨hv, hkey⟩ := mem_under.mp hv
  obtain ⟨hv', hkey'⟩ := mem_under.mp hv'
  have hsame : v' = v := List.inj_on_of_nodup_map hvs hv' hv he
  rw [hsame, hkey, Option.some.injEq] at hkey'
  exact hne hkey'

end BaasConnector.Lib.Keyed
