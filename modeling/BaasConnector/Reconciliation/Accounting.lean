import BaasConnector.Reconciliation.StrongPass

namespace BaasConnector.Reconciliation.Accounting

open BaasConnector.Lib.Keyed BaasConnector.Taxonomy.Status BaasConnector.Connector.Records
open BaasConnector.Reconciliation.Items BaasConnector.Reconciliation.Passes
open BaasConnector.Reconciliation.Motor BaasConnector.Reconciliation.Effects
open BaasConnector.Reconciliation.Origins BaasConnector.Reconciliation.StrongPass

/-- A break that accounts for a provider item that is not matched. -/
def closesProvider (id : String) (b : BreakDraft) : Bool :=
  decide (b.providerItemId = some id) && decide (b.type = .DUPLICATE_PROVIDER ∨
    b.type = .MISSING_ON_LOCAL ∨ b.type = .UNMATCHED_FEE ∨ b.type = .ORPHAN_REFUND)

def closesLocal (id : String) (b : BreakDraft) : Bool :=
  decide (b.localItemId = some id) && decide (b.type = .DUPLICATE_LOCAL ∨ b.type = .MISSING_ON_PROVIDER)

def linksProvider (id : String) (m : MatchLink) : Bool := decide (m.providerItemId = some id)

def linksLocal (id : String) (m : MatchLink) : Bool := decide (m.localItemId = some id)

/-- The number of places where the plan accounts for a provider item. -/
def providerPlaces (matched : List MatchLink) (breaks : List BreakDraft) (id : String) : Nat :=
  matched.countP (linksProvider id) + breaks.countP (closesProvider id)

def localPlaces (matched : List MatchLink) (breaks : List BreakDraft) (pending : List String)
    (id : String) : Nat :=
  matched.countP (linksLocal id) + breaks.countP (closesLocal id) + pending.count id

/-- An effect accounts for what it takes, and for nothing else. -/
structure Fair (e : Effect) : Prop where
  provider : ∀ id, e.provider.count id = providerPlaces e.matched e.breaks id
  localItems : ∀ id, e.localItems.count id = localPlaces e.matched e.breaks [] id

/-- The pools have what the effect takes. -/
structure Fits (e : Effect) (ps cs : List NormalizedItem) : Prop where
  provider : e.provider.Nodup
  localItems : e.localItems.Nodup
  ofProvider : ∀ id ∈ e.provider, id ∈ ids ps
  ofLocal : ∀ id ∈ e.localItems, id ∈ ids cs

/-- Each item is in its pool, or the plan accounts for it once. -/
structure Partitioned (input : ReconciliationInput) (s : PassState) : Prop where
  providerKeyed : Keyed s.provider
  localKeyed : Keyed s.localPool
  provider : ∀ id, (ids s.provider.values).count id + providerPlaces s.matched s.breaks id =
    (ids input.provider).count id
  localItems : ∀ id, (ids s.localPool.values).count id +
    localPlaces s.matched s.breaks s.pendingSettlement id = (ids input.localItems).count id

theorem count_deleteAll {pool : Pool} (h : Keyed pool) {ks : List String} (hks : ks.Nodup)
    (hsub : ∀ k ∈ ks, k ∈ ids pool.values) (id : String) :
    (ids (pool.deleteAll ks).values).count id + ks.count id = (ids pool.values).count id := by
  have hvalues : ids (pool.deleteAll ks).values = (ids pool.values).filter fun k => decide (k ∉ ks) := by
    rw [h.values_deleteAll, ids, ids, List.filter_map]
    rfl
  rw [hvalues]
  by_cases hid : id ∈ ks
  · have hone := List.count_eq_one_of_mem h.nodup (hsub id hid)
    have hzero : ((ids pool.values).filter fun k => decide (k ∉ ks)).count id = 0 := by
      rw [List.count_eq_zero]
      intro hm
      have hout := (List.mem_filter.mp hm).2
      simp [hid] at hout
    rw [hone, hzero, List.count_eq_one_of_mem hks hid]
  · rw [List.count_filter (by simpa using hid), List.count_eq_zero.mpr hid, Nat.add_zero]

theorem providerPlaces_append (ms ms' : List MatchLink) (bs bs' : List BreakDraft) (id : String) :
    providerPlaces (ms ++ ms') (bs ++ bs') id = providerPlaces ms bs id + providerPlaces ms' bs' id := by
  simp only [providerPlaces, List.countP_append]
  omega

theorem localPlaces_append (ms ms' : List MatchLink) (bs bs' : List BreakDraft)
    (pending pending' : List String) (id : String) :
    localPlaces (ms ++ ms') (bs ++ bs') (pending ++ pending') id =
      localPlaces ms bs pending id + localPlaces ms' bs' pending' id := by
  simp only [localPlaces, List.countP_append, List.count_append]
  omega

theorem Fair.none : Fair .none := ⟨fun _ => rfl, fun _ => rfl⟩

theorem Fair.join {es : List Effect} (h : ∀ e ∈ es, Fair e) : Fair (.join es) := by
  induction es with
  | nil => exact Fair.none
  | cons e es ih =>
    have he := h e List.mem_cons_self
    have hes := ih fun e' he' => h e' (List.mem_cons_of_mem e he')
    constructor
    · intro id
      have hsum := providerPlaces_append e.matched (Effect.join es).matched e.breaks
        (Effect.join es).breaks id
      rw [← he.provider, ← hes.provider, ← List.count_append] at hsum
      exact hsum.symm
    · intro id
      have hsum := localPlaces_append e.matched (Effect.join es).matched e.breaks (Effect.join es).breaks
        [] [] id
      rw [← he.localItems, ← hes.localItems, ← List.count_append] at hsum
      exact hsum.symm

variable {input : ReconciliationInput} {s : PassState} {e : Effect}

theorem Partitioned.apply (h : Partitioned input s) (hfair : Fair e)
    (hfits : Fits e s.provider.values s.localPool.values) : Partitioned input (e.apply s) where
  providerKeyed := h.providerKeyed.deleteAll _
  localKeyed := h.localKeyed.deleteAll _
  provider id := by
    have hcount := count_deleteAll h.providerKeyed hfits.provider hfits.ofProvider id
    have hsum := providerPlaces_append s.matched e.matched s.breaks e.breaks id
    rw [← hfair.provider] at hsum
    rw [← h.provider id, ← hcount]
    change (ids (s.provider.deleteAll e.provider).values).count id +
      providerPlaces (s.matched ++ e.matched) (s.breaks ++ e.breaks) id = _
    omega
  localItems id := by
    have hcount := count_deleteAll h.localKeyed hfits.localItems hfits.ofLocal id
    have hsum := localPlaces_append s.matched e.matched s.breaks e.breaks s.pendingSettlement [] id
    rw [← hfair.localItems, List.append_nil] at hsum
    rw [← h.localItems id, ← hcount]
    change (ids (s.localPool.deleteAll e.localItems).values).count id +
      localPlaces (s.matched ++ e.matched) (s.breaks ++ e.breaks) s.pendingSettlement id = _
    omega

section Breaks

theorem countP_duplicateProvider (ds : List (NormalizedItem × BreakNote)) (id : String) :
    (ds.map (duplicateBreak .DUPLICATE_PROVIDER .PROVIDER)).countP (closesProvider id) =
        (ids (ds.map Prod.fst)).count id ∧
      (ds.map (duplicateBreak .DUPLICATE_PROVIDER .PROVIDER)).countP (closesLocal id) = 0 := by
  constructor
  · rw [List.countP_map, ids, List.count, List.countP_map, List.countP_map]
    refine List.countP_congr fun d _ => ?_
    simp [closesProvider, duplicateBreak]
  · rw [List.countP_map, List.countP_eq_zero]
    intro d _
    simp [closesLocal, duplicateBreak]

theorem countP_duplicateLocal (ds : List (NormalizedItem × BreakNote)) (id : String) :
    (ds.map (duplicateBreak .DUPLICATE_LOCAL .LOCAL)).countP (closesLocal id) =
        (ids (ds.map Prod.fst)).count id ∧
      (ds.map (duplicateBreak .DUPLICATE_LOCAL .LOCAL)).countP (closesProvider id) = 0 := by
  constructor
  · rw [List.countP_map, ids, List.count, List.countP_map, List.countP_map]
    refine List.countP_congr fun d _ => ?_
    simp [closesLocal, duplicateBreak]
  · rw [List.countP_map, List.countP_eq_zero]
    intro d _
    simp [closesProvider, duplicateBreak]

variable {policy : ReconciliationPolicy} {p c : NormalizedItem}

/-- What differs between the two items of a pair. -/
theorem attributeBreaks_type {b : BreakDraft} (h : b ∈ attributeBreaks policy p c) :
    b.type = .AMOUNT_MISMATCH ∨ b.type = .STATUS_MISMATCH ∨ b.type = .DATE_MISMATCH := by
  unfold attributeBreaks at h
  obtain h | h := List.mem_append.mp h
  · obtain h | h := List.mem_append.mp h
    · split at h
      · exact .inl (by rw [List.mem_singleton.mp h]; rfl)
      · cases h
    · split at h
      · split at h
        · exact .inr (.inl (by rw [List.mem_singleton.mp h]; rfl))
        · cases h
      · cases h
  · split at h
    · exact .inr (.inr (by rw [List.mem_singleton.mp h]; rfl))
    · cases h

theorem countP_attributeBreaks (id : String) :
    (attributeBreaks policy p c).countP (closesProvider id) = 0 ∧
      (attributeBreaks policy p c).countP (closesLocal id) = 0 := by
  rw [List.countP_eq_zero, List.countP_eq_zero]
  constructor
  · intro b hb
    obtain h | h | h := attributeBreaks_type hb <;> simp [closesProvider, h]
  · intro b hb
    obtain h | h | h := attributeBreaks_type hb <;> simp [closesLocal, h]

end Breaks

variable {runtime : Runtime} {policy : ReconciliationPolicy} {ps cs : List NormalizedItem}

theorem fair_strongEffect (k : String) : Fair (strongEffect runtime policy k ps cs) := by
  cases hp : escolherMaisAntigo runtime ps with
  | none => rw [strongEffect_of_empty (.inl (oldest_none runtime hp))]; exact Fair.none
  | some p =>
    cases hc : escolherMaisAntigo runtime cs with
    | none => rw [strongEffect_of_empty (.inr (oldest_none runtime hc))]; exact Fair.none
    | some c =>
      rw [strongEffect_of_oldest k hp hc]
      constructor
      · intro id
        have hmatched : providerPlaces [⟨some p.id, some c.id, none, .EXACT, 1, false⟩] [] id =
            [p.id].count id := by
          simp [providerPlaces, linksProvider, List.countP_singleton, List.count_singleton]
        simp only [providerPlaces, List.countP_nil] at hmatched
        simp only [providerPlaces, List.countP_append, (countP_duplicateLocal _ id).2,
          (countP_duplicateProvider _ id).1, (countP_attributeBreaks id).1, List.count_append, furtherOf_fst]
        omega
      · intro id
        have hmatched : localPlaces [⟨some p.id, some c.id, none, .EXACT, 1, false⟩] [] [] id =
            [c.id].count id := by
          simp [localPlaces, linksLocal, List.countP_singleton, List.count_singleton]
        simp only [localPlaces, List.countP_nil] at hmatched
        simp only [localPlaces, List.countP_append, (countP_duplicateLocal _ id).1,
          (countP_duplicateProvider _ id).2, (countP_attributeBreaks id).2, List.count_append, furtherOf_fst]
        omega

theorem fits_prefixEffect (hp : (ids ps).Nodup) (hc : (ids cs).Nodup) (prefixo : String) :
    Fits (prefixEffect runtime policy prefixo ps cs) ps cs where
  provider := by
    rw [prefixEffect, Effect.join_provider]
    refine nodup_flatMap_under (strongUnder prefixo) hp (groupKeys_nodup _ _)
      (fun k _ => ?_) fun k _ w hw => ?_
    · obtain ⟨_, htakes, _⟩ | ⟨_, hnone⟩ := strongEffect_under runtime policy hp hc prefixo k
      · exact htakes.nodup_iff.mpr (hp.sublist (List.filter_sublist.map _))
      · rw [hnone]
        exact List.nodup_nil
    · obtain ⟨_, htakes, _⟩ | ⟨_, hnone⟩ := strongEffect_under runtime policy hp hc prefixo k
      · exact htakes.mem_iff.mp hw
      · rw [hnone] at hw
        cases hw
  localItems := by
    rw [prefixEffect, Effect.join_localItems]
    refine nodup_flatMap_under (strongUnder prefixo) hc (groupKeys_nodup _ _)
      (fun k _ => ?_) fun k _ w hw => ?_
    · obtain ⟨_, _, htakes⟩ | ⟨_, hnone⟩ := strongEffect_under runtime policy hp hc prefixo k
      · exact htakes.nodup_iff.mpr (hc.sublist (List.filter_sublist.map _))
      · rw [hnone]
        exact List.nodup_nil
    · obtain ⟨_, _, htakes⟩ | ⟨_, hnone⟩ := strongEffect_under runtime policy hp hc prefixo k
      · exact htakes.mem_iff.mp hw
      · rw [hnone] at hw
        cases hw
  ofProvider id hid := by
    obtain ⟨p, hpm, rfl, _⟩ := (mem_prefixEffect_provider hp hc).mp hid
    exact List.mem_map_of_mem hpm
  ofLocal id hid := by
    obtain ⟨c, hcm, rfl, _⟩ := (mem_prefixEffect_localItems hp hc).mp hid
    exact List.mem_map_of_mem hcm

theorem Fits.join_pair {e e' : Effect} (h : Fits e ps cs) (h' : Fits e' ps cs)
    (hp : ∀ id ∈ e.provider, id ∉ e'.provider) (hc : ∀ id ∈ e.localItems, id ∉ e'.localItems) :
    Fits (.join [e, e']) ps cs where
  provider := by
    simpa [Effect.join] using h.provider.append h'.provider fun id hid hid' => hp id hid hid'
  localItems := by
    simpa [Effect.join] using h.localItems.append h'.localItems fun id hid hid' => hc id hid hid'
  ofProvider id hid := by
    have hor : id ∈ e.provider ∨ id ∈ e'.provider := by simpa [Effect.join] using hid
    exact hor.elim (h.ofProvider id) (h'.ofProvider id)
  ofLocal id hid := by
    have hor : id ∈ e.localItems ∨ id ∈ e'.localItems := by simpa [Effect.join] using hid
    exact hor.elim (h.ofLocal id) (h'.ofLocal id)

theorem fair_strongPlan : Fair (strongPlan runtime policy ps cs) := by
  have hround : ∀ prefixo, Fair (prefixEffect runtime policy prefixo ps cs) := fun prefixo =>
    Fair.join fun e he => by
      obtain ⟨k, _, rfl⟩ := List.mem_map.mp he
      exact fair_strongEffect k
  refine Fair.join fun e he => ?_
  obtain rfl | rfl := List.mem_pair.mp he
  · exact hround _
  · exact hround _

theorem fits_strongPlan (hp : (ids ps).Nodup) (hc : (ids cs).Nodup) :
    Fits (strongPlan runtime policy ps cs) ps cs := by
  refine (fits_prefixEffect hp hc _).join_pair (fits_prefixEffect hp hc _) (fun id hid hid' => ?_)
    fun id hid hid' => ?_
  · obtain ⟨p, hpm, rfl, k, hk, _⟩ := (mem_prefixEffect_provider hp hc).mp hid
    obtain ⟨p', hpm', he, k', hk', _⟩ := (mem_prefixEffect_provider hp hc).mp hid'
    rw [List.inj_on_of_nodup_map hp hpm' hpm he, ptx_none_of_e2e hk] at hk'
    cases hk'
  · obtain ⟨c, hcm, rfl, k, hk, _⟩ := (mem_prefixEffect_localItems hp hc).mp hid
    obtain ⟨c', hcm', he, k', hk', _⟩ := (mem_prefixEffect_localItems hp hc).mp hid'
    rw [List.inj_on_of_nodup_map hc hcm' hcm he, ptx_none_of_e2e hk] at hk'
    cases hk'

section Buckets

/-- The greedy pairs use no item twice. -/
theorem takePairs_spec (candidates : List (NormalizedItem × NormalizedItem)) (usadosP usadosC : List String) :
    (∀ par ∈ takePairs candidates usadosP usadosC, par ∈ candidates ∧ par.1.id ∉ usadosP ∧
      par.2.id ∉ usadosC) ∧
    (ids ((takePairs candidates usadosP usadosC).map Prod.fst)).Nodup ∧
    (ids ((takePairs candidates usadosP usadosC).map Prod.snd)).Nodup := by
  induction candidates generalizing usadosP usadosC with
  | nil => exact ⟨fun _ h => (by cases h), List.nodup_nil, List.nodup_nil⟩
  | cons par candidates ih =>
    obtain ⟨p, c⟩ := par
    rw [takePairs]
    split
    · obtain ⟨hmem, hp, hc⟩ := ih usadosP usadosC
      exact ⟨fun par hpar => ⟨List.mem_cons_of_mem _ (hmem par hpar).1, (hmem par hpar).2⟩, hp, hc⟩
    · next hfree =>
      rw [not_or] at hfree
      obtain ⟨hmem, hp, hc⟩ := ih (p.id :: usadosP) (c.id :: usadosC)
      refine ⟨fun par hpar => ?_, List.nodup_cons.mpr ⟨fun hm => ?_, hp⟩,
        List.nodup_cons.mpr ⟨fun hm => ?_, hc⟩⟩
      · obtain rfl | hpar := List.mem_cons.mp hpar
        · exact ⟨List.mem_cons_self, hfree.1, hfree.2⟩
        · obtain ⟨hcand, hp', hc'⟩ := hmem par hpar
          exact ⟨List.mem_cons_of_mem _ hcand, fun h => hp' (List.mem_cons_of_mem _ h),
            fun h => hc' (List.mem_cons_of_mem _ h)⟩
      · obtain ⟨item, hitem, hid⟩ := List.mem_map.mp hm
        obtain ⟨par, hpar, rfl⟩ := List.mem_map.mp hitem
        exact (hmem par hpar).2.1 (hid ▸ List.mem_cons_self)
      · obtain ⟨item, hitem, hid⟩ := List.mem_map.mp hm
        obtain ⟨par, hpar, rfl⟩ := List.mem_map.mp hitem
        exact (hmem par hpar).2.2 (hid ▸ List.mem_cons_self)

theorem casarGuloso_mem {par : NormalizedItem × NormalizedItem} (h : par ∈ casarGuloso runtime ps cs) :
    par.1 ∈ ps ∧ par.2 ∈ cs := by
  have hcand := ((takePairs_spec _ [] []).1 par h).1
  rw [List.mem_insertionSort] at hcand
  obtain ⟨p, hp, hpair⟩ := List.mem_flatMap.mp hcand
  obtain ⟨c, hc, rfl⟩ := List.mem_map.mp hpair
  exact ⟨hp, hc⟩

theorem fair_pairsEffect (ambiguo : Bool) (pares : List (NormalizedItem × NormalizedItem)) :
    Fair (pairsEffect ambiguo pares ps cs) where
  provider id := by
    have hmatched : (pares.map (pairLink ambiguo)).countP (linksProvider id) =
        (ids (pares.map Prod.fst)).count id := by
      rw [List.countP_map, ids, List.count, List.countP_map, List.countP_map]
      refine List.countP_congr fun par _ => ?_
      simp [linksProvider, pairLink]
    simp only [pairsEffect, providerPlaces, List.countP_append, (countP_duplicateLocal _ id).2,
      (countP_duplicateProvider _ id).1, List.count_append, surplusOf_fst, hmatched]
    omega
  localItems id := by
    have hmatched : (pares.map (pairLink ambiguo)).countP (linksLocal id) =
        (ids (pares.map Prod.snd)).count id := by
      rw [List.countP_map, ids, List.count, List.countP_map, List.countP_map]
      refine List.countP_congr fun par _ => ?_
      simp [linksLocal, pairLink]
    simp only [pairsEffect, localPlaces, List.countP_append, (countP_duplicateLocal _ id).1,
      (countP_duplicateProvider _ id).2, List.count_append, List.count_nil, surplusOf_fst, hmatched]
    omega

theorem twins_mem {todos casados : List NormalizedItem} {item : NormalizedItem}
    (h : item ∈ twins todos casados) : item ∈ todos ∧ item.id ∉ ids casados := by
  have hleft := List.mem_of_mem_filter h
  obtain ⟨hm, hout⟩ := List.mem_filter.mp hleft
  exact ⟨hm, of_decide_eq_true hout⟩

theorem mem_surplusOf {lado : ReconciliationSide} {todos casados : List NormalizedItem}
    {d : NormalizedItem × BreakNote} : d ∈ surplusOf lado todos casados ↔
      ∃ item gemeo, item ∈ twins todos casados ∧ gemeoDe casados item = some gemeo ∧
        d = (item, surplusNote gemeo lado) := by
  simp only [surplusOf, twins, List.mem_filterMap, List.mem_filter, Option.map_eq_some_iff]
  constructor
  · rintro ⟨item, hm, gemeo, hgemeo, rfl⟩
    exact ⟨item, gemeo, ⟨hm, Option.isSome_of_eq_some hgemeo⟩, hgemeo, rfl⟩
  · rintro ⟨item, gemeo, ⟨hm, _⟩, hgemeo, rfl⟩
    exact ⟨item, hm, gemeo, hgemeo, rfl⟩

theorem gemeoDe_mem {casados : List NormalizedItem} {item gemeo : NormalizedItem}
    (h : gemeoDe casados item = some gemeo) : gemeo ∈ casados := by
  obtain ⟨_, _, hfind⟩ := Option.bind_eq_some_iff.mp h
  exact List.mem_of_find?_eq_some hfind

theorem twins_index {todos casados : List NormalizedItem} {item : NormalizedItem}
    (h : item ∈ twins todos casados) : (present item.counterpartyTaxIdIndex).isSome := by
  obtain ⟨gemeo, hgemeo⟩ := Option.isSome_iff_exists.mp (List.mem_filter.mp h).2
  obtain ⟨index, hindex, _⟩ := Option.bind_eq_some_iff.mp hgemeo
  rw [hindex]
  rfl

theorem nodup_twins {todos casados : List NormalizedItem} (h : (ids todos).Nodup)
    (hc : (ids casados).Nodup) : (ids casados ++ ids (twins todos casados)).Nodup := by
  refine hc.append (h.sublist ((List.filter_sublist.trans List.filter_sublist).map _)) fun id hid hid' => ?_
  obtain ⟨item, hitem, rfl⟩ := List.mem_map.mp hid'
  exact (twins_mem hitem).2 hid

theorem fits_pairsEffect (hp : (ids ps).Nodup) (hc : (ids cs).Nodup) (ambiguo : Bool) :
    Fits (pairsEffect ambiguo (casarGuloso runtime ps cs) ps cs) ps cs where
  provider := nodup_twins hp (takePairs_spec _ [] []).2.1
  localItems := nodup_twins hc (takePairs_spec _ [] []).2.2
  ofProvider id hid := by
    obtain hid | hid := List.mem_append.mp hid
    · obtain ⟨item, hitem, rfl⟩ := List.mem_map.mp hid
      obtain ⟨par, hpar, rfl⟩ := List.mem_map.mp hitem
      exact List.mem_map_of_mem (casarGuloso_mem hpar).1
    · obtain ⟨item, hitem, rfl⟩ := List.mem_map.mp hid
      exact List.mem_map_of_mem (twins_mem hitem).1
  ofLocal id hid := by
    obtain hid | hid := List.mem_append.mp hid
    · obtain ⟨item, hitem, rfl⟩ := List.mem_map.mp hid
      obtain ⟨par, hpar, rfl⟩ := List.mem_map.mp hitem
      exact List.mem_map_of_mem (casarGuloso_mem hpar).2
    · obtain ⟨item, hitem, rfl⟩ := List.mem_map.mp hid
      exact List.mem_map_of_mem (twins_mem hitem).1

theorem Fits.none : Fits .none ps cs :=
  ⟨List.nodup_nil, List.nodup_nil, fun _ h => (by cases h), fun _ h => (by cases h)⟩

theorem Fits.of_perm {ps' cs' : List NormalizedItem} (h : Fits e ps cs) (hp : ps.Perm ps')
    (hc : cs.Perm cs') : Fits e ps' cs' where
  provider := h.provider
  localItems := h.localItems
  ofProvider id hid := (hp.map _).mem_iff.mp (h.ofProvider id hid)
  ofLocal id hid := (hc.map _).mem_iff.mp (h.ofLocal id hid)

theorem bucketEffect_sound (runtime : Runtime) (policy : ReconciliationPolicy)
    (hp : (ids ps).Nodup) (hc : (ids cs).Nodup) :
    Fair (bucketEffect runtime policy ps cs) ∧ Fits (bucketEffect runtime policy ps cs) ps cs := by
  have hps := List.perm_insertionSort (byInstant runtime) ps
  have hcs := List.perm_insertionSort (byInstant runtime) cs
  unfold bucketEffect
  dsimp only
  split
  · exact ⟨Fair.none, Fits.none⟩
  · split
    · exact ⟨Fair.none, Fits.none⟩
    · refine ⟨fair_pairsEffect _ _, (fits_pairsEffect ?_ ?_ _).of_perm hps hcs⟩
      · exact (hps.map _).nodup_iff.mpr hp
      · exact (hcs.map _).nodup_iff.mpr hc

theorem bucketKeys_nodup (ps cs : List NormalizedItem) : (bucketKeys ps cs).Nodup :=
  (List.perm_insertionSort _ _).nodup_iff.mpr (List.nodup_dedup _)

theorem fuzzyEffect_sound (runtime : Runtime) (policy : ReconciliationPolicy)
    (hp : (ids ps).Nodup) (hc : (ids cs).Nodup) :
    Fair (fuzzyEffect runtime policy ps cs) ∧ Fits (fuzzyEffect runtime policy ps cs) ps cs := by
  have hgroup : ∀ k, (ids (under fuzzyUnder k ps)).Nodup ∧ (ids (under fuzzyUnder k cs)).Nodup := fun k =>
    ⟨hp.sublist (List.filter_sublist.map _), hc.sublist (List.filter_sublist.map _)⟩
  have hsound := fun k => bucketEffect_sound runtime policy (hgroup k).1 (hgroup k).2
  refine ⟨Fair.join fun e he => ?_, ?_, ?_, fun id hid => ?_, fun id hid => ?_⟩
  · obtain ⟨k, _, rfl⟩ := List.mem_map.mp he
    exact (hsound k).1
  · rw [fuzzyEffect, Effect.join_provider]
    exact nodup_flatMap_under fuzzyUnder hp (bucketKeys_nodup ps cs) (fun k _ => (hsound k).2.provider)
      fun k _ => (hsound k).2.ofProvider
  · rw [fuzzyEffect, Effect.join_localItems]
    exact nodup_flatMap_under fuzzyUnder hc (bucketKeys_nodup ps cs) (fun k _ => (hsound k).2.localItems)
      fun k _ => (hsound k).2.ofLocal
  · rw [fuzzyEffect, Effect.join_provider] at hid
    obtain ⟨k, _, hid⟩ := List.mem_flatMap.mp hid
    obtain ⟨item, hitem, rfl⟩ := List.mem_map.mp ((hsound k).2.ofProvider id hid)
    exact List.mem_map_of_mem (List.mem_of_mem_filter hitem)
  · rw [fuzzyEffect, Effect.join_localItems] at hid
    obtain ⟨k, _, hid⟩ := List.mem_flatMap.mp hid
    obtain ⟨item, hitem, rfl⟩ := List.mem_map.mp ((hsound k).2.ofLocal id hid)
    exact List.mem_map_of_mem (List.mem_of_mem_filter hitem)

end Buckets

end BaasConnector.Reconciliation.Accounting
