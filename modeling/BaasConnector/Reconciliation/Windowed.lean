import BaasConnector.Reconciliation.Accounting

namespace BaasConnector.Reconciliation.Windowed

open BaasConnector.Lib.Keyed BaasConnector.Taxonomy.Status BaasConnector.Connector.Records
open BaasConnector.Reconciliation.Items BaasConnector.Reconciliation.Passes
open BaasConnector.Reconciliation.Motor BaasConnector.Reconciliation.Effects
open BaasConnector.Reconciliation.Accounting

variable (runtime : Runtime) (policy : ReconciliationPolicy) (now : Int)

def windowLink (p c : NormalizedItem) : MatchLink := ⟨some p.id, some c.id, none, .LOW, 3, true⟩

/-- What the third pass does for a provider item, given the local items that are left. -/
def windowedEffect (localItems : List NormalizedItem) (p : NormalizedItem) : Effect :=
  match (localItems.filter (dentroDaJanela policy p)).insertionSort (byId runtime) with
  | [c] => ⟨[p.id], [c.id], [windowLink p c], []⟩
  | [] => ⟨[p.id], [], [], [missingLocalBreak p false]⟩
  | _ => ⟨[p.id], [], [], [missingLocalBreak p true]⟩

theorem windowedStep_eq (s : PassState) (p : NormalizedItem) :
    windowedStep runtime policy s p = if (s.provider.get p.id).isNone then s
      else (windowedEffect runtime policy s.localPool.values p).apply s := by
  unfold windowedStep windowedEffect
  split
  · rfl
  · split <;> simp_all [Effect.apply, PassState.pair, PassState.drop, PassState.addBreak, faltaNoLocal,
      Table.deleteAll, windowLink]

variable {runtime policy now}

theorem windowedEffect_cases (runtime : Runtime) (policy : ReconciliationPolicy)
    (localItems : List NormalizedItem) (p : NormalizedItem) :
    (∃ c ∈ localItems, dentroDaJanela policy p c = true ∧
      windowedEffect runtime policy localItems p = ⟨[p.id], [c.id], [windowLink p c], []⟩) ∨
    ∃ ambiguo, windowedEffect runtime policy localItems p =
      ⟨[p.id], [], [], [missingLocalBreak p ambiguo]⟩ := by
  unfold windowedEffect
  split
  · next c hsort =>
    have hc : c ∈ (localItems.filter (dentroDaJanela policy p)).insertionSort (byId runtime) := by
      rw [hsort]
      exact List.mem_singleton_self c
    obtain ⟨hm, hw⟩ := List.mem_filter.mp ((List.mem_insertionSort (byId runtime)).mp hc)
    exact .inl ⟨c, hm, hw, rfl⟩
  · exact .inr ⟨false, rfl⟩
  · exact .inr ⟨true, rfl⟩

/-- Each item that the pass has come to is out of the pool. -/
theorem windowed_provider (runtime : Runtime) (policy : ReconciliationPolicy) (items : List NormalizedItem)
    (s : PassState) (k : String) :
    (items.foldl (windowedStep runtime policy) s).provider.get k =
      if k ∈ ids items then none else s.provider.get k := by
  induction items generalizing s with
  | nil => rfl
  | cons p items ih =>
    have hstep : (windowedStep runtime policy s p).provider.get k =
        if k = p.id then none else s.provider.get k := by
      rw [windowedStep_eq]
      split
      · next hnone =>
        split
        · next hk => rw [hk, Option.isNone_iff_eq_none.mp hnone]
        · rfl
      · have hp : (windowedEffect runtime policy s.localPool.values p).provider = [p.id] := by
          rcases windowedEffect_cases runtime policy s.localPool.values p with
            ⟨c, _, _, he⟩ | ⟨_, he⟩ <;> rw [he]
        change (s.provider.deleteAll _).get k = _
        rw [hp, Table.get_deleteAll]
        simp
    rw [List.foldl_cons, ih, hstep]
    by_cases hk : k = p.id <;> by_cases hks : k ∈ ids items <;> simp_all [ids]

theorem values_eq_nil {pool : Pool} (h : ∀ k, pool.get k = none) : pool.values = [] := by
  refine List.eq_nil_iff_forall_not_mem.mpr fun item hm => ?_
  obtain ⟨k, hk⟩ := Table.mem_values.mp hm
  rw [h k] at hk
  cases hk

variable (policy now)

/-- A local item within the settlement grace. -/
def young (c : NormalizedItem) : Bool := decide (now - c.postedAt < policy.settlementGraceMinutes * 60000)

/-- What becomes of the local items that are left: pending, or missing. -/
theorem leftover_eq (items : List NormalizedItem) (s : PassState) :
    items.foldl (faltaNoProvedor policy now) s =
      { (⟨[], ids items, [], (items.filter fun c => !young policy now c).map (missingProviderBreak now)⟩ :
          Effect).apply s with
        pendingSettlement := s.pendingSettlement ++ ids (items.filter (young policy now)) } := by
  induction items generalizing s with
  | nil => simp [Effect.apply, ids, Table.deleteAll]
  | cons c items ih =>
    rw [List.foldl_cons, ih]
    by_cases hy : now - c.postedAt < policy.settlementGraceMinutes * 60000
    · simp [faltaNoProvedor, hy, young, Effect.apply, PassState.drop, ids, Table.deleteAll]
    · simp [faltaNoProvedor, hy, young, Effect.apply, PassState.drop, PassState.addBreak, ids,
        Table.deleteAll]

variable {policy now} {input : ReconciliationInput} {s : PassState}

theorem missingLocalBreak_type (p : NormalizedItem) (ambiguo : Bool) :
    (missingLocalBreak p ambiguo).type = .MISSING_ON_LOCAL ∨
      (missingLocalBreak p ambiguo).type = .UNMATCHED_FEE ∨
        (missingLocalBreak p ambiguo).type = .ORPHAN_REFUND := by
  change orphanProviderBreakType p = _ ∨ orphanProviderBreakType p = _ ∨ orphanProviderBreakType p = _
  unfold orphanProviderBreakType
  split
  · exact .inr (.inl rfl)
  · split
    · exact .inr (.inr rfl)
    · exact .inl rfl

theorem fair_windowedEffect (localItems : List NormalizedItem) (p : NormalizedItem) :
    Fair (windowedEffect runtime policy localItems p) := by
  rcases windowedEffect_cases runtime policy localItems p with
    ⟨c, _, _, he⟩ | ⟨ambiguo, he⟩
  · rw [he]
    constructor
    · intro id
      simp [providerPlaces, linksProvider, windowLink, List.countP_singleton, List.count_singleton]
    · intro id
      simp [localPlaces, linksLocal, windowLink, List.countP_singleton, List.count_singleton]
  · rw [he]
    have hp : (missingLocalBreak p ambiguo).providerItemId = some p.id := rfl
    have hc : (missingLocalBreak p ambiguo).localItemId = none := rfl
    have htype : (missingLocalBreak p ambiguo).type = .DUPLICATE_PROVIDER ∨
        (missingLocalBreak p ambiguo).type = .MISSING_ON_LOCAL ∨
          (missingLocalBreak p ambiguo).type = .UNMATCHED_FEE ∨
            (missingLocalBreak p ambiguo).type = .ORPHAN_REFUND := .inr (missingLocalBreak_type p ambiguo)
    constructor
    · intro id
      simp [providerPlaces, closesProvider, hp, htype, List.countP_singleton, List.count_singleton]
    · intro id
      simp [localPlaces, closesLocal, hc]

theorem partitioned_windowedStep (h : Partitioned input s) (p : NormalizedItem) :
    Partitioned input (windowedStep runtime policy s p) := by
  rw [windowedStep_eq]
  split
  · exact h
  · next hsome =>
    have hp : p.id ∈ ids s.provider.values := by
      cases hg : s.provider.get p.id with
      | none => simp [hg] at hsome
      | some item =>
        obtain ⟨hm, hid⟩ := h.providerKeyed.get.mp hg
        exact hid ▸ List.mem_map_of_mem hm
    refine h.apply (fair_windowedEffect _ _) ?_
    rcases windowedEffect_cases runtime policy s.localPool.values p with
      ⟨c, hc, _, he⟩ | ⟨_, he⟩
    · rw [he]
      refine ⟨List.nodup_singleton _, List.nodup_singleton _, fun id hid => ?_, fun id hid => ?_⟩
      · rw [List.mem_singleton.mp hid]
        exact hp
      · rw [List.mem_singleton.mp hid]
        exact List.mem_map_of_mem hc
    · rw [he]
      refine ⟨List.nodup_singleton _, List.nodup_nil, fun id hid => ?_, fun id hid => by cases hid⟩
      rw [List.mem_singleton.mp hid]
      exact hp

theorem partitioned_windowed (runtime : Runtime) (policy : ReconciliationPolicy)
    (items : List NormalizedItem) (h : Partitioned input s) :
    Partitioned input (items.foldl (windowedStep runtime policy) s) := by
  induction items generalizing s with
  | nil => exact h
  | cons p items ih => exact ih (partitioned_windowedStep h p)

theorem countP_leftover (items : List NormalizedItem) (id : String) :
    (ids items).count id = localPlaces [] ((items.filter fun c => !young policy now c).map
      (missingProviderBreak now)) (ids (items.filter (young policy now))) id := by
  induction items with
  | nil => rfl
  | cons c items ih =>
    have hclose : closesLocal id (missingProviderBreak now c) = decide (c.id = id) := by
      simp [closesLocal, missingProviderBreak]
    by_cases hy : young policy now c = true
    · simp only [localPlaces, ids, List.map_cons, List.count_cons, List.filter_cons, hy, if_true,
        Bool.not_true, Bool.false_eq_true, if_false] at ih ⊢
      omega
    · rw [Bool.not_eq_true] at hy
      simp only [localPlaces, ids, List.map_cons, List.count_cons, List.filter_cons, hy, if_true,
        Bool.not_false, Bool.false_eq_true, if_false, List.countP_cons, hclose, decide_eq_true_eq,
        beq_iff_eq] at ih ⊢
      omega

/-- The third pass leaves nothing in the pools. -/
theorem partitioned_passWindowedFuzzy (runtime : Runtime) (policy : ReconciliationPolicy) (now : Int)
    (h : Partitioned input s) :
    Partitioned input (passWindowedFuzzy runtime policy now s) ∧
      (passWindowedFuzzy runtime policy now s).provider.values = [] ∧
        (passWindowedFuzzy runtime policy now s).localPool.values = [] := by
  have hw := partitioned_windowed runtime policy
    (s.provider.values.insertionSort (byId runtime)) h
  have hprovider := fun k => windowed_provider runtime policy
    (s.provider.values.insertionSort (byId runtime)) s k
  unfold passWindowedFuzzy
  dsimp only
  generalize (s.provider.values.insertionSort (byId runtime)).foldl (windowedStep runtime policy) s = v
    at hw hprovider ⊢
  rw [leftover_eq]
  have hsort := List.perm_insertionSort (byId runtime) v.localPool.values
  have hnodup : (ids (v.localPool.values.insertionSort (byId runtime))).Nodup :=
    (hsort.map _).nodup_iff.mpr hw.localKeyed.nodup
  have hlocal : (v.localPool.deleteAll (ids (v.localPool.values.insertionSort (byId runtime)))).values =
    [] := by
    rw [hw.localKeyed.values_deleteAll, List.filter_eq_nil_iff]
    intro c hc
    simpa [ids] using ⟨c, hc, rfl⟩
  refine ⟨⟨hw.providerKeyed, hw.localKeyed.deleteAll _, fun id => ?_, fun id => ?_⟩, ?_, hlocal⟩
  · have hnone : ∀ items : List NormalizedItem,
        (items.map (missingProviderBreak now)).countP (closesProvider id) = 0 := by
      intro items
      rw [List.countP_map, List.countP_eq_zero]
      intro c _
      simp [closesProvider, missingProviderBreak]
    have hsum := providerPlaces_append v.matched [] v.breaks ((List.filter (fun c => !young policy now c)
      (v.localPool.values.insertionSort (byId runtime))).map (missingProviderBreak now)) id
    have hzero := hnone (List.filter (fun c => !young policy now c)
      (v.localPool.values.insertionSort (byId runtime)))
    rw [← hw.provider id]
    refine congrArg₂ (· + ·) rfl (hsum.trans ?_)
    simp [providerPlaces, hzero]
  · have hsum := localPlaces_append v.matched [] v.breaks ((List.filter (fun c => !young policy now c)
      (v.localPool.values.insertionSort (byId runtime))).map (missingProviderBreak now)) v.pendingSettlement
      (ids ((v.localPool.values.insertionSort (byId runtime)).filter (young policy now))) id
    rw [← countP_leftover] at hsum
    have hcount : (ids (v.localPool.values.insertionSort (byId runtime))).count id =
        (ids v.localPool.values).count id := (hsort.map _).count_eq id
    have hempty : (ids (v.localPool.deleteAll
        (ids (v.localPool.values.insertionSort (byId runtime)))).values).count id = 0 := by
      rw [hlocal]
      rfl
    rw [hcount] at hsum
    refine (congrArg₂ (· + ·) hempty hsum).trans ?_
    rw [← hw.localItems id]
    omega
  · refine values_eq_nil fun k => ?_
    change v.provider.get k = none
    rw [hprovider]
    split
    · rfl
    · next hk =>
      cases hg : s.provider.get k with
      | none => rfl
      | some p =>
        obtain ⟨hm, hid⟩ := h.providerKeyed.get.mp hg
        exact absurd (hid ▸ List.mem_map_of_mem ((List.mem_insertionSort (byId runtime)).mpr hm)) hk

end BaasConnector.Reconciliation.Windowed
