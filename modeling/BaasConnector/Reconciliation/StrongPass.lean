import BaasConnector.Reconciliation.Effects
import BaasConnector.Reconciliation.Origins

namespace BaasConnector.Reconciliation.StrongPass

open BaasConnector.Lib.Keyed BaasConnector.Taxonomy.Status BaasConnector.Connector.Records
open BaasConnector.Reconciliation.Items BaasConnector.Reconciliation.Passes
open BaasConnector.Reconciliation.Motor BaasConnector.Reconciliation.Effects
open BaasConnector.Reconciliation.Origins

variable {runtime : Runtime} {policy : ReconciliationPolicy} {items provider localItems : List NormalizedItem}
  {prefixo k : String} {item p c : NormalizedItem}

theorem strongUnder_eq_some :
    strongUnder prefixo item = some k ↔
      item.matchKeyStrong = some k ∧ prefixo.toList.isPrefixOf k.toList = true := by
  rw [strongUnder, Option.filter_eq_some_iff]

/-- The E2EID and the provider's transaction id have namespaces of their own. -/
theorem ptx_none_of_e2e (h : strongUnder "e2e:" item = some k) : strongUnder "ptx:" item = none := by
  obtain ⟨hk, he⟩ := strongUnder_eq_some.mp h
  cases hs : strongUnder "ptx:" item with
  | none => rfl
  | some k' =>
    obtain ⟨hk', hp⟩ := strongUnder_eq_some.mp hs
    rw [hk, Option.some.injEq] at hk'
    subst hk'
    have he2e : "e2e:".toList = ['e', '2', 'e', ':'] := rfl
    have hptx : "ptx:".toList = ['p', 't', 'x', ':'] := rfl
    rw [he2e] at he
    rw [hptx] at hp
    cases hl : k.toList with
    | nil => simp [hl] at he
    | cons a l =>
      rw [hl] at he hp
      have ha := (List.cons_prefix_cons.mp (List.isPrefixOf_iff_prefix.mp he)).1
      have hb := (List.cons_prefix_cons.mp (List.isPrefixOf_iff_prefix.mp hp)).1
      exact absurd (ha.trans hb.symm) (by decide)

section Oldest

theorem exists_oldest (runtime : Runtime) (h : items ≠ []) :
    ∃ item, escolherMaisAntigo runtime items = some item := by
  cases ho : escolherMaisAntigo runtime items with
  | none => exact absurd (oldest_none runtime ho) h
  | some item => exact ⟨item, rfl⟩

/-- The items of a group are its first and the others. -/
theorem others_perm (h : (ids items).Nodup) (hi : item ∈ items) :
    (ids (others items item) ++ [item.id]).Perm (ids items) := by
  have hothers : (ids (others items item)).Nodup := h.sublist (List.filter_sublist.map _)
  have hout : ∀ w ∈ ids (others items item), w ∉ [item.id] := by
    intro w hw hm
    obtain ⟨other, ho, rfl⟩ := List.mem_map.mp hw
    have hne := (List.mem_filter.mp ho).2
    rw [decide_eq_true_eq] at hne
    exact hne (List.mem_singleton.mp hm)
  have hnodup := List.Nodup.append hothers (List.nodup_singleton item.id) fun w hw hm => hout w hw hm
  refine (List.perm_ext_iff_of_nodup hnodup h).mpr fun w => ?_
  rw [List.mem_append, List.mem_singleton]
  constructor
  · rintro (hw | rfl)
    · obtain ⟨other, ho, rfl⟩ := List.mem_map.mp hw
      exact List.mem_map_of_mem (List.mem_of_mem_filter ho)
    · exact List.mem_map_of_mem hi
  · intro hw
    obtain ⟨other, ho, rfl⟩ := List.mem_map.mp hw
    by_cases hid : other.id = item.id
    · exact .inr hid
    · exact .inl (List.mem_map_of_mem (List.mem_filter.mpr ⟨ho, by simpa using hid⟩))

theorem strongEffect_of_oldest (k : String) (hp : escolherMaisAntigo runtime provider = some p)
    (hc : escolherMaisAntigo runtime localItems = some c) :
    strongEffect runtime policy k provider localItems =
      { provider := ids (others provider p) ++ [p.id]
        localItems := ids (others localItems c) ++ [c.id]
        matched := [⟨some p.id, some c.id, none, .EXACT, 1, false⟩]
        breaks := (furtherOf k c .LOCAL localItems).map (duplicateBreak .DUPLICATE_LOCAL .LOCAL) ++
          (furtherOf k p .PROVIDER provider).map (duplicateBreak .DUPLICATE_PROVIDER .PROVIDER) ++
            attributeBreaks policy p c } := by
  rw [strongEffect, hp, hc]

theorem strongEffect_of_empty (h : provider = [] ∨ localItems = []) :
    strongEffect runtime policy k provider localItems = .none := by
  unfold strongEffect
  obtain rfl | rfl := h
  · rfl
  · cases escolherMaisAntigo runtime provider <;> rfl

/-- The strong pass takes the whole groups of a key that is on both sides. -/
theorem strongEffect_takes (k : String) (hp : (ids provider).Nodup) (hc : (ids localItems).Nodup)
    (hpne : provider ≠ []) (hcne : localItems ≠ []) :
    (strongEffect runtime policy k provider localItems).provider.Perm (ids provider) ∧
      (strongEffect runtime policy k provider localItems).localItems.Perm (ids localItems) := by
  obtain ⟨p, hop⟩ := exists_oldest runtime hpne
  obtain ⟨c, hoc⟩ := exists_oldest runtime hcne
  rw [strongEffect_of_oldest k hop hoc]
  exact ⟨others_perm hp (oldest_mem runtime hop), others_perm hc (oldest_mem runtime hoc)⟩

end Oldest

/-- Both sides have an item of the key. -/
def Shared (prefixo : String) (provider localItems : List NormalizedItem) (k : String) : Prop :=
  (∃ p ∈ provider, strongUnder prefixo p = some k) ∧ ∃ c ∈ localItems, strongUnder prefixo c = some k

theorem strongEffect_under (runtime : Runtime) (policy : ReconciliationPolicy)
    (hp : (ids provider).Nodup) (hc : (ids localItems).Nodup) (prefixo k : String) :
    let e := strongEffect runtime policy k (under (strongUnder prefixo) k provider)
      (under (strongUnder prefixo) k localItems)
    (Shared prefixo provider localItems k ∧
      e.provider.Perm (ids (under (strongUnder prefixo) k provider)) ∧
      e.localItems.Perm (ids (under (strongUnder prefixo) k localItems))) ∨
    (¬ Shared prefixo provider localItems k ∧ e = .none) := by
  have hnodup : ∀ vs, (ids vs).Nodup → (ids (under (strongUnder prefixo) k vs)).Nodup := fun vs h =>
    h.sublist (List.filter_sublist.map _)
  have hempty : ∀ vs, under (strongUnder prefixo) k vs = [] ↔ ¬ ∃ v ∈ vs, strongUnder prefixo v = some k := by
    intro vs
    rw [← mem_groupKeys]
    refine ⟨fun h hk => under_ne_nil hk h, fun h => ?_⟩
    by_contra hne
    obtain ⟨v, hv⟩ := List.exists_mem_of_ne_nil _ hne
    exact h (mem_groupKeys.mpr ⟨v, mem_under.mp hv⟩)
  by_cases hshared : Shared prefixo provider localItems k
  · refine .inl ⟨hshared, strongEffect_takes k (hnodup _ hp) (hnodup _ hc) ?_ ?_⟩
    · exact fun h => (hempty _).mp h hshared.1
    · exact fun h => (hempty _).mp h hshared.2
  · refine .inr ⟨hshared, strongEffect_of_empty ?_⟩
    by_cases hprovider : ∃ p ∈ provider, strongUnder prefixo p = some k
    · exact .inr ((hempty _).mpr fun hlocal => hshared ⟨hprovider, hlocal⟩)
    · exact .inl ((hempty _).mpr hprovider)

/-- What a prefix takes from the provider: the items whose key is on both sides. -/
theorem mem_prefixEffect_provider (hp : (ids provider).Nodup) (hc : (ids localItems).Nodup) {id : String} :
    id ∈ (prefixEffect runtime policy prefixo provider localItems).provider ↔
      ∃ p ∈ provider, p.id = id ∧ ∃ k, strongUnder prefixo p = some k ∧
        ∃ c ∈ localItems, strongUnder prefixo c = some k := by
  rw [prefixEffect, Effect.join_provider, List.mem_flatMap]
  constructor
  · rintro ⟨k, _, hid⟩
    obtain ⟨hs, htakes, _⟩ | ⟨_, hnone⟩ := strongEffect_under runtime policy hp hc prefixo k
    · obtain ⟨p, hpu, rfl⟩ := List.mem_map.mp (htakes.mem_iff.mp hid)
      obtain ⟨hpm, hk⟩ := mem_under.mp hpu
      exact ⟨p, hpm, rfl, k, hk, hs.2⟩
    · rw [hnone] at hid
      cases hid
  · rintro ⟨p, hpm, rfl, k, hk, hlocal⟩
    refine ⟨k, mem_groupKeys.mpr ⟨p, hpm, hk⟩, ?_⟩
    obtain ⟨_, htakes, _⟩ | ⟨hs, _⟩ := strongEffect_under runtime policy hp hc prefixo k
    · exact htakes.mem_iff.mpr (List.mem_map_of_mem (mem_under.mpr ⟨hpm, hk⟩))
    · exact absurd ⟨⟨p, hpm, hk⟩, hlocal⟩ hs

theorem mem_prefixEffect_localItems (hp : (ids provider).Nodup) (hc : (ids localItems).Nodup)
    {id : String} :
    id ∈ (prefixEffect runtime policy prefixo provider localItems).localItems ↔
      ∃ c ∈ localItems, c.id = id ∧ ∃ k, strongUnder prefixo c = some k ∧
        ∃ p ∈ provider, strongUnder prefixo p = some k := by
  rw [prefixEffect, Effect.join_localItems, List.mem_flatMap]
  constructor
  · rintro ⟨k, _, hid⟩
    obtain ⟨hs, _, htakes⟩ | ⟨_, hnone⟩ := strongEffect_under runtime policy hp hc prefixo k
    · obtain ⟨c, hcu, rfl⟩ := List.mem_map.mp (htakes.mem_iff.mp hid)
      obtain ⟨hcm, hk⟩ := mem_under.mp hcu
      exact ⟨c, hcm, rfl, k, hk, hs.1⟩
    · rw [hnone] at hid
      cases hid
  · rintro ⟨c, hcm, rfl, k, hk, hprovider⟩
    obtain ⟨p, hpm, hpk⟩ := hprovider
    refine ⟨k, mem_groupKeys.mpr ⟨p, hpm, hpk⟩, ?_⟩
    obtain ⟨_, _, htakes⟩ | ⟨hs, _⟩ := strongEffect_under runtime policy hp hc prefixo k
    · exact htakes.mem_iff.mpr (List.mem_map_of_mem (mem_under.mpr ⟨hcm, hk⟩))
    · exact absurd ⟨⟨p, hpm, hpk⟩, c, hcm, hk⟩ hs

/-- Both prefixes at once, over the items that the pass starts with. -/
def strongPlan (runtime : Runtime) (policy : ReconciliationPolicy)
    (provider localItems : List NormalizedItem) : Effect :=
  Effect.join [prefixEffect runtime policy "e2e:" provider localItems,
    prefixEffect runtime policy "ptx:" provider localItems]

theorem prefixEffect_left {q q' : NormalizedItem → Bool}
    (hq : ∀ p ∈ provider, q p = false → strongUnder prefixo p = none)
    (hq' : ∀ c ∈ localItems, q' c = false → strongUnder prefixo c = none) :
    prefixEffect runtime policy prefixo (provider.filter q) (localItems.filter q') =
      prefixEffect runtime policy prefixo provider localItems := by
  simp only [prefixEffect, groupKeys, ← group_getD, group_filter hq, group_filter hq']

theorem passStrong_eq (s : PassState) (hp : Keyed s.provider) (hc : Keyed s.localPool) :
    passStrong runtime policy s =
      (strongPlan runtime policy s.provider.values s.localPool.values).apply s := by
  have hfirst := strongPrefix_eq runtime policy s "e2e:"
  have hsecond := strongPrefix_eq runtime policy (strongPrefix runtime policy s "e2e:") "ptx:"
  have hleft : prefixEffect runtime policy "ptx:" (strongPrefix runtime policy s "e2e:").provider.values
      (strongPrefix runtime policy s "e2e:").localPool.values =
        prefixEffect runtime policy "ptx:" s.provider.values s.localPool.values := by
    rw [hfirst]
    change prefixEffect runtime policy "ptx:" (s.provider.deleteAll _).values
      (s.localPool.deleteAll _).values = _
    rw [hp.values_deleteAll, hc.values_deleteAll]
    refine prefixEffect_left (fun p hpm hq => ?_) fun c hcm hq => ?_
    · have htaken := of_not_not (of_decide_eq_false hq)
      obtain ⟨p', hpm', hid, k, hk, _⟩ := (mem_prefixEffect_provider hp.nodup hc.nodup).mp htaken
      rw [List.inj_on_of_nodup_map hp.nodup hpm' hpm hid] at hk
      exact ptx_none_of_e2e hk
    · have htaken := of_not_not (of_decide_eq_false hq)
      obtain ⟨c', hcm', hid, k, hk, _⟩ := (mem_prefixEffect_localItems hp.nodup hc.nodup).mp htaken
      rw [List.inj_on_of_nodup_map hc.nodup hcm' hcm hid] at hk
      exact ptx_none_of_e2e hk
  have hpass : passStrong runtime policy s =
      strongPrefix runtime policy (strongPrefix runtime policy s "e2e:") "ptx:" := rfl
  rw [hpass, hsecond, hleft, hfirst, strongPlan, ← Effect.foldl_apply]
  rfl

end BaasConnector.Reconciliation.StrongPass
