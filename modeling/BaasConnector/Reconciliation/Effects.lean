import BaasConnector.Lib.Grouping
import BaasConnector.Reconciliation.Motor

namespace BaasConnector.Reconciliation.Effects

open BaasConnector.Lib.Keyed BaasConnector.Taxonomy.Status BaasConnector.Connector.Records
open BaasConnector.Reconciliation.Items BaasConnector.Reconciliation.Passes
open BaasConnector.Reconciliation.Motor

section Pools

/-- Every item of the pool stands under its own id. -/
def Keyed (pool : Pool) : Prop := ∀ r ∈ pool.rows, r.1 = r.2.id

def ids (items : List NormalizedItem) : List String := items.map (·.id)

variable {pool : Pool} {items : List NormalizedItem}

theorem Keyed.ids (h : Keyed pool) : Effects.ids pool.values = pool.rows.map Prod.fst := by
  rw [Effects.ids, Table.values, List.map_map]
  exact List.map_congr_left fun r hr => (h r hr).symm

theorem Keyed.nodup (h : Keyed pool) : (Effects.ids pool.values).Nodup := h.ids ▸ pool.nodup

theorem Keyed.get (h : Keyed pool) {k : String} {item : NormalizedItem} :
    pool.get k = some item ↔ item ∈ pool.values ∧ item.id = k := by
  rw [Table.get_eq_some, Table.values, List.mem_map]
  constructor
  · intro hr
    exact ⟨⟨(k, item), hr, rfl⟩, (h _ hr).symm⟩
  · rintro ⟨⟨r, hr, rfl⟩, hk⟩
    have hrow : r = (k, r.2) := Prod.ext ((h r hr).trans hk) rfl
    rwa [← hrow]

theorem Keyed.deleteAll (h : Keyed pool) (ks : List String) : Keyed (pool.deleteAll ks) := by
  intro r hr
  rw [Table.rows_deleteAll] at hr
  exact h r (List.mem_filter.mp hr).1

theorem Keyed.values_deleteAll (h : Keyed pool) (ks : List String) :
    (pool.deleteAll ks).values = pool.values.filter fun item => decide (item.id ∉ ks) := by
  rw [Table.values, Table.rows_deleteAll, Table.values, List.filter_map]
  refine congrArg (List.map Prod.snd) (List.filter_congr fun r hr => ?_)
  rw [h r hr]
  rfl

/-- Items with distinct ids are indexed as they come. -/
theorem indexar_rows (h : (ids items).Nodup) :
    (indexar items).rows = items.map fun item => (item.id, item) := by
  induction items using List.reverseRecOn with
  | nil => rfl
  | append_singleton items item ih =>
    rw [ids, List.map_append] at h
    obtain ⟨hitems, _, hdisjoint⟩ := List.nodup_append'.mp h
    have hnew : lookup item.id (indexar items).rows = none := by
      cases hfound : lookup item.id (indexar items).rows with
      | none => rfl
      | some found =>
        have hmem := (lookup_eq_some (indexar items).nodup).mp hfound
        rw [ih hitems] at hmem
        obtain ⟨item', hin, heq⟩ := List.mem_map.mp hmem
        have hid : item'.id = item.id := congrArg Prod.fst heq
        exact absurd (List.mem_singleton_self _) (hid ▸ hdisjoint (List.mem_map_of_mem hin))
    rw [indexar, List.foldl_append, List.foldl_cons, List.foldl_nil]
    change store item.id item (indexar items).rows = _
    rw [store_new item hnew, ih hitems, List.map_append]
    rfl

theorem indexar_keyed (h : (ids items).Nodup) : Keyed (indexar items) := by
  intro r hr
  rw [indexar_rows h] at hr
  obtain ⟨item, _, rfl⟩ := List.mem_map.mp hr
  rfl

theorem indexar_values (h : (ids items).Nodup) : (indexar items).values = items := by
  rw [Table.values, indexar_rows h, List.map_map]
  exact List.map_id _

theorem keyed_indexar (items : List NormalizedItem) : Keyed (indexar items) := fun _ hr =>
  (indexar_get (Table.get_eq_some.mpr hr)).2.symm

/-- An index is the index of what it holds. -/
theorem indexar_indexar (items : List NormalizedItem) : indexar (indexar items).values = indexar items := by
  have hkeyed := keyed_indexar items
  have hrows : (indexar (indexar items).values).rows = (indexar items).rows := by
    rw [indexar_rows hkeyed.nodup, Table.values, List.map_map]
    have hrow : ∀ r ∈ (indexar items).rows, ((fun item : NormalizedItem => (item.id, item)) ∘ Prod.snd) r =
        id r := fun r hr => Prod.ext (hkeyed r hr).symm rfl
    exact (List.map_congr_left hrow).trans (List.map_id _)
  generalize indexar (indexar items).values = t at hrows ⊢
  generalize indexar items = t' at hrows ⊢
  obtain ⟨rows, _⟩ := t
  obtain ⟨rows', _⟩ := t'
  cases hrows
  rfl

end Pools

/-- What a step takes out of the pools and what it adds to the plan. -/
structure Effect where
  provider : List String
  localItems : List String
  matched : List MatchLink
  breaks : List BreakDraft

namespace Effect

def none : Effect := ⟨[], [], [], []⟩

def apply (e : Effect) (s : PassState) : PassState :=
  { s with
    provider := s.provider.deleteAll e.provider
    localPool := s.localPool.deleteAll e.localItems
    matched := s.matched ++ e.matched
    breaks := s.breaks ++ e.breaks }

def join (es : List Effect) : Effect :=
  ⟨es.flatMap provider, es.flatMap localItems, es.flatMap matched, es.flatMap breaks⟩

theorem join_provider {K : Type} (f : K → Effect) (ks : List K) :
    (join (ks.map f)).provider = ks.flatMap fun k => (f k).provider := List.flatMap_map ..

theorem join_localItems {K : Type} (f : K → Effect) (ks : List K) :
    (join (ks.map f)).localItems = ks.flatMap fun k => (f k).localItems := List.flatMap_map ..

theorem join_matched {K : Type} (f : K → Effect) (ks : List K) :
    (join (ks.map f)).matched = ks.flatMap fun k => (f k).matched := List.flatMap_map ..

theorem join_breaks {K : Type} (f : K → Effect) (ks : List K) :
    (join (ks.map f)).breaks = ks.flatMap fun k => (f k).breaks := List.flatMap_map ..

theorem apply_none (s : PassState) : none.apply s = s := by
  simp [apply, none, Table.deleteAll]

theorem foldl_apply (es : List Effect) (s : PassState) :
    es.foldl (fun s e => e.apply s) s = (join es).apply s := by
  induction es generalizing s with
  | nil => exact (apply_none s).symm
  | cons e es ih =>
    rw [List.foldl_cons, ih]
    simp only [join, apply, List.flatMap_cons, Table.deleteAll_append, List.append_assoc]

end Effect

variable (runtime : Runtime) (policy : ReconciliationPolicy)

section Strong

def attributeBreaks (p c : NormalizedItem) : List BreakDraft :=
  (if p.amountCents ≠ c.amountCents then [amountBreak policy p c] else []) ++
    (match p.status, c.status with
      | some ps, some cs => if ps ≠ cs then [statusBreak p c ps cs] else []
      | _, _ => []) ++
    (if p.effectiveDate ≠ c.effectiveDate then [dateBreak policy p c] else [])

theorem mem_attributeBreaks {p c : NormalizedItem} {b : BreakDraft} : b ∈ attributeBreaks policy p c ↔
    (p.amountCents ≠ c.amountCents ∧ b = amountBreak policy p c) ∨
      (∃ ps cs, p.status = some ps ∧ c.status = some cs ∧ ps ≠ cs ∧ b = statusBreak p c ps cs) ∨
        (p.effectiveDate ≠ c.effectiveDate ∧ b = dateBreak policy p c) := by
  rw [attributeBreaks, List.mem_append, List.mem_append, or_assoc, List.mem_ite_nil_right,
    List.mem_ite_nil_right, List.mem_singleton, List.mem_singleton]
  refine or_congr_right (or_congr_left ?_)
  cases p.status with
  | none => simp
  | some ps =>
    cases c.status with
    | none => simp
    | some cs => simp

theorem compareAttributes_eq (s : PassState) (p c : NormalizedItem) :
    compareAttributes policy s p c = { s with breaks := s.breaks ++ attributeBreaks policy p c } := by
  unfold compareAttributes compareDates compareStatuses compareAmounts attributeBreaks
  cases p.status <;> cases c.status <;> dsimp only <;> split_ifs <;>
    simp [PassState.addBreak, List.append_assoc]

theorem reportDuplicates_eq (s : PassState) (tipo : BreakType) (ds : List (NormalizedItem × BreakNote)) :
    reportDuplicates s tipo .LOCAL ds =
      (⟨[], ids (ds.map Prod.fst), [], ds.map (duplicateBreak tipo .LOCAL)⟩ : Effect).apply s ∧
    reportDuplicates s tipo .PROVIDER ds =
      (⟨ids (ds.map Prod.fst), [], [], ds.map (duplicateBreak tipo .PROVIDER)⟩ : Effect).apply s := by
  induction ds generalizing s with
  | nil => exact ⟨(Effect.apply_none s).symm, (Effect.apply_none s).symm⟩
  | cons d ds ih =>
    obtain ⟨hlocal, _⟩ := ih ((s.drop .LOCAL d.1.id).addBreak (duplicateBreak tipo .LOCAL d))
    obtain ⟨_, hprovider⟩ := ih ((s.drop .PROVIDER d.1.id).addBreak (duplicateBreak tipo .PROVIDER d))
    constructor
    · rw [reportDuplicates, List.foldl_cons]
      rw [reportDuplicates] at hlocal
      rw [hlocal]
      simp [Effect.apply, PassState.addBreak, PassState.drop, Table.deleteAll, ids, List.foldl_map]
    · rw [reportDuplicates, List.foldl_cons]
      rw [reportDuplicates] at hprovider
      rw [hprovider]
      simp [Effect.apply, PassState.addBreak, PassState.drop, Table.deleteAll, ids, List.foldl_map]

/-- The items of a group that are not its first. -/
def others (items : List NormalizedItem) (first : NormalizedItem) : List NormalizedItem :=
  items.filter fun item => decide (item.id ≠ first.id)

/-- The further items of a strong key, with what is said of them. -/
def furtherOf (chave : String) (first : NormalizedItem) (lado : ReconciliationSide)
    (items : List NormalizedItem) : List (NormalizedItem × BreakNote) :=
  (others items first).map fun item => (item, sameKeyNote chave first lado)

theorem furtherOf_fst (chave : String) (first : NormalizedItem) (lado : ReconciliationSide)
    (items : List NormalizedItem) : (furtherOf chave first lado items).map Prod.fst = others items first := by
  rw [furtherOf, List.map_map]
  exact List.map_id _

/-- What the strong pass does for the items of one key. -/
def strongEffect (chave : String) (doProvedor doLocal : List NormalizedItem) : Effect :=
  match escolherMaisAntigo runtime doProvedor, escolherMaisAntigo runtime doLocal with
  | some p, some c =>
    { provider := ids (others doProvedor p) ++ [p.id]
      localItems := ids (others doLocal c) ++ [c.id]
      matched := [⟨some p.id, some c.id, .none, .EXACT, 1, false⟩]
      breaks := (furtherOf chave c .LOCAL doLocal).map (duplicateBreak .DUPLICATE_LOCAL .LOCAL) ++
        (furtherOf chave p .PROVIDER doProvedor).map (duplicateBreak .DUPLICATE_PROVIDER .PROVIDER) ++
          attributeBreaks policy p c }
  | _, _ => .none

theorem oldest_none {items : List NormalizedItem} (h : escolherMaisAntigo runtime items = .none) :
    items = [] := by
  have hlen := List.length_insertionSort (byInstant runtime) items
  rw [escolherMaisAntigo, List.head?_eq_none_iff] at h
  rw [h] at hlen
  exact List.length_eq_zero_iff.mp hlen.symm

theorem others_of_short {items : List NormalizedItem} {first : NormalizedItem}
    (h : escolherMaisAntigo runtime items = some first) (hlen : items.length ≤ 1) :
    others items first = [] := by
  cases items with
  | nil => rfl
  | cons item items =>
    obtain rfl : items = [] := List.length_eq_zero_iff.mp (by simpa using hlen)
    simp only [escolherMaisAntigo, List.insertionSort_cons, List.insertionSort_nil,
      List.orderedInsert_nil, List.head?_cons, Option.some.injEq] at h
    simp [others, h]

theorem duplicatesOf_eq {s : PassState} {tipo : BreakType} {lado : ReconciliationSide}
    {items : List NormalizedItem} {first : NormalizedItem} (chave : String)
    (h : escolherMaisAntigo runtime items = some first) :
    duplicatesOf runtime s tipo lado items chave =
      reportDuplicates s tipo lado (furtherOf chave first lado items) := by
  rw [duplicatesOf, h]
  dsimp only
  split
  · next hlen => rw [furtherOf, others_of_short runtime h hlen]; rfl
  · rfl

theorem strongKeyStep_eq (locais : Table String (List NormalizedItem)) (s : PassState) (k : String)
    {doProvedor : List NormalizedItem} (hne : doProvedor ≠ []) :
    strongKeyStep runtime policy locais s (k, doProvedor) =
      (strongEffect runtime policy k doProvedor ((locais.get k).getD [])).apply s := by
  unfold strongKeyStep strongEffect
  dsimp only
  cases hl : locais.get k with
  | none => cases escolherMaisAntigo runtime doProvedor <;> exact (Effect.apply_none s).symm
  | some doLocal =>
    rw [Option.getD_some]
    dsimp only
    cases hc : escolherMaisAntigo runtime doLocal with
    | none =>
      rw [oldest_none runtime hc]
      cases escolherMaisAntigo runtime doProvedor <;> exact (Effect.apply_none s).symm
    | some c =>
      have hfull : doLocal.isEmpty = false := by
        cases doLocal with
        | nil => simp [escolherMaisAntigo] at hc
        | cons => rfl
      rw [if_neg (by simp [hfull])]
      cases hp : escolherMaisAntigo runtime doProvedor with
      | none => exact absurd (oldest_none runtime hp) hne
      | some p =>
        dsimp only
        rw [compareAttributes_eq, duplicates, duplicatesOf_eq runtime k hc, duplicatesOf_eq runtime k hp,
          (reportDuplicates_eq _ _ _).1, (reportDuplicates_eq _ _ _).2, furtherOf_fst, furtherOf_fst]
        simp [Effect.apply, PassState.pair, Table.deleteAll, List.foldl_append]

theorem groupBy_eq (key : NormalizedItem → Option String) (items : List NormalizedItem) :
    groupBy key items = group key items := by
  unfold groupBy group
  congr 1
  funext groups item
  cases key item <;> rfl

/-- The strong key of an item, when it has the prefix. -/
def strongUnder (prefixo : String) (item : NormalizedItem) : Option String :=
  item.matchKeyStrong.filter fun key => prefixo.toList.isPrefixOf key.toList

def prefixEffect (prefixo : String) (provider localItems : List NormalizedItem) : Effect :=
  Effect.join ((groupKeys (strongUnder prefixo) provider).map fun k =>
    strongEffect runtime policy k (under (strongUnder prefixo) k provider)
      (under (strongUnder prefixo) k localItems))

theorem group_getD {K V : Type} [DecidableEq K] (key : V → Option K) (vs : List V) (k : K) :
    ((group key vs).get k).getD [] = under key k vs := by
  rw [group_get]
  split
  · next h => rw [h]; rfl
  · rfl

theorem strongPrefix_eq (s : PassState) (prefixo : String) :
    strongPrefix runtime policy s prefixo =
      (prefixEffect runtime policy prefixo s.provider.values s.localPool.values).apply s := by
  have hindex : ∀ pool, indexBy pool prefixo = group (strongUnder prefixo) pool.values :=
    fun _ => groupBy_eq _ _
  rw [strongPrefix, hindex, hindex, group_rows, List.foldl_map, prefixEffect, ← Effect.foldl_apply,
    List.foldl_map]
  refine List.foldl_ext _ _ _ fun s' k hk => ?_
  rw [strongKeyStep_eq runtime policy _ _ _ (under_ne_nil hk), group_getD]

end Strong

section Deterministic

/-- The leftovers of a bucket that have a matched item of their side for a twin. -/
def twins (todos casados : List NormalizedItem) : List NormalizedItem :=
  (todos.filter fun item => decide (item.id ∉ casados.map (·.id))).filter fun sobra =>
    (gemeoDe casados sobra).isSome

/-- The same leftovers, with what is said of them. -/
def surplusOf (lado : ReconciliationSide) (todos casados : List NormalizedItem) :
    List (NormalizedItem × BreakNote) :=
  (todos.filter fun item => decide (item.id ∉ casados.map (·.id))).filterMap fun sobra =>
    (gemeoDe casados sobra).map fun gemeo => (sobra, surplusNote gemeo lado)

theorem surplusOf_fst (lado : ReconciliationSide) (todos casados : List NormalizedItem) :
    (surplusOf lado todos casados).map Prod.fst = twins todos casados := by
  unfold surplusOf twins
  generalize (todos.filter fun item => decide (item.id ∉ casados.map (·.id))) = sobras
  induction sobras with
  | nil => rfl
  | cons sobra sobras ih =>
    cases hgemeo : gemeoDe casados sobra with
    | none =>
      rw [List.filterMap_cons_none (by rw [hgemeo, Option.map_none]),
        List.filter_cons_of_neg (by simp [hgemeo])]
      exact ih
    | some gemeo =>
      rw [List.filterMap_cons_some (by rw [hgemeo, Option.map_some]),
        List.filter_cons_of_pos (by simp [hgemeo]), List.map_cons, ih]

def pairLink (ambiguo : Bool) (par : NormalizedItem × NormalizedItem) : MatchLink :=
  ⟨some par.1.id, some par.2.id, none, .HIGH, 2, ambiguo⟩

/-- What the second pass does for two sorted sides of a bucket. -/
def pairsEffect (ambiguo : Bool) (pares : List (NormalizedItem × NormalizedItem))
    (provedor localItems : List NormalizedItem) : Effect where
  provider := ids (pares.map Prod.fst) ++ ids (twins provedor (pares.map Prod.fst))
  localItems := ids (pares.map Prod.snd) ++ ids (twins localItems (pares.map Prod.snd))
  matched := pares.map (pairLink ambiguo)
  breaks := (surplusOf .LOCAL localItems (pares.map Prod.snd)).map (duplicateBreak .DUPLICATE_LOCAL .LOCAL) ++
    (surplusOf .PROVIDER provedor (pares.map Prod.fst)).map (duplicateBreak .DUPLICATE_PROVIDER .PROVIDER)

def bucketEffect (doProvedor doLocal : List NormalizedItem) : Effect :=
  let provedor := doProvedor.insertionSort (byInstant runtime)
  let localItems := doLocal.insertionSort (byInstant runtime)
  if provedor.isEmpty ∨ localItems.isEmpty then .none
  else
    let ambiguo := decide (provedor.length > 1 ∨ localItems.length > 1)
    if ambiguo ∧ max provedor.length localItems.length > policy.maxGreedyPairs then .none
    else pairsEffect ambiguo (casarGuloso runtime provedor localItems) provedor localItems

theorem foldl_pair (s : PassState) (ambiguo : Bool) (pares : List (NormalizedItem × NormalizedItem)) :
    pares.foldl (fun s par => s.pair par.1 par.2 .HIGH 2 ambiguo) s =
      (⟨ids (pares.map Prod.fst), ids (pares.map Prod.snd), pares.map (pairLink ambiguo), []⟩ :
        Effect).apply s := by
  induction pares generalizing s with
  | nil => exact (Effect.apply_none s).symm
  | cons par pares ih =>
    rw [List.foldl_cons, ih]
    simp [Effect.apply, PassState.pair, pairLink, Table.deleteAll, ids]

theorem fuzzyBucketStep_eq (baldesP baldesC : Table String (List NormalizedItem)) (s : PassState)
    (chave : String) :
    fuzzyBucketStep runtime policy baldesP baldesC s chave =
      (bucketEffect runtime policy ((baldesP.get chave).getD []) ((baldesC.get chave).getD [])).apply s := by
  unfold fuzzyBucketStep bucketEffect
  dsimp only
  split
  · exact (Effect.apply_none s).symm
  · split
    · exact (Effect.apply_none s).symm
    · rw [duplicatasSobrando, leftoverDuplicates, leftoverDuplicates, (reportDuplicates_eq _ _ _).1,
        (reportDuplicates_eq _ _ _).2, foldl_pair, pairsEffect, ← surplusOf_fst .PROVIDER,
        ← surplusOf_fst .LOCAL]
      simp [Effect.apply, surplusOf, Table.deleteAll, List.foldl_append]

def fuzzyUnder (item : NormalizedItem) : Option String := some item.matchKeyFuzzy

/-- The keys of the buckets, sorted. -/
def bucketKeys (provider localItems : List NormalizedItem) : List String :=
  (groupKeys fuzzyUnder provider ++ groupKeys fuzzyUnder localItems).dedup.insertionSort (· ≤ ·)

def fuzzyEffect (provider localItems : List NormalizedItem) : Effect :=
  Effect.join ((bucketKeys provider localItems).map fun k =>
    bucketEffect runtime policy (under fuzzyUnder k provider) (under fuzzyUnder k localItems))

theorem passDeterministicFuzzy_eq (s : PassState) :
    passDeterministicFuzzy runtime policy s =
      (fuzzyEffect runtime policy s.provider.values s.localPool.values).apply s := by
  have hgroup : ∀ items, groupBy (fun item => some item.matchKeyFuzzy) items = group fuzzyUnder items :=
    fun _ => groupBy_eq _ _
  unfold passDeterministicFuzzy
  rw [hgroup, hgroup, fuzzyEffect, ← Effect.foldl_apply, List.foldl_map, bucketKeys, groupKeys, groupKeys,
    ← List.map_append]
  refine List.foldl_ext _ _ _ fun s' k _ => ?_
  rw [fuzzyBucketStep_eq, group_getD, group_getD]

end Deterministic

end BaasConnector.Reconciliation.Effects
