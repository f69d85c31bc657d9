import BaasConnector.Lib.Sorting
import BaasConnector.Reconciliation.Partition

namespace BaasConnector.Reconciliation.InputOrder

open BaasConnector.Lib.Keyed BaasConnector.Lib.Sorting BaasConnector.Taxonomy.Status
open BaasConnector.Reconciliation.Items BaasConnector.Reconciliation.Passes
open BaasConnector.Reconciliation.Motor BaasConnector.Reconciliation.Effects
open BaasConnector.Reconciliation.StrongPass BaasConnector.Reconciliation.Windowed
open BaasConnector.Reconciliation.LedgerLegs BaasConnector.Reconciliation.Partition

/-- The order of texts that the runtime compares by. -/
def collation (runtime : Runtime) (a b : String) : Prop := runtime.localeCompare a b ≤ 0

instance (runtime : Runtime) : DecidableRel (collation runtime) := fun a b =>
  inferInstanceAs (Decidable (runtime.localeCompare a b ≤ 0))

/-- Items with distinct ids that the collation puts into one order. -/
structure Sortable (runtime : Runtime) (items : List NormalizedItem) : Prop where
  nodup : (ids items).Nodup
  orders : Orders (collation runtime) (ids items)

variable {runtime : Runtime} {policy : ReconciliationPolicy} {items items' : List NormalizedItem}

namespace Sortable

theorem same (h : Sortable runtime items) {a b : NormalizedItem} (ha : a ∈ items) (hb : b ∈ items)
    (hab : byId runtime a b) (hba : byId runtime b a) : a = b :=
  List.inj_on_of_nodup_map h.nodup ha hb
    (h.orders.antisymm a.id (List.mem_map_of_mem ha) b.id (List.mem_map_of_mem hb) hab hba)

theorem byId (h : Sortable runtime items) : Orders (byId runtime) items where
  total a ha b hb := h.orders.total a.id (List.mem_map_of_mem ha) b.id (List.mem_map_of_mem hb)
  trans a ha b hb c hc := h.orders.trans a.id (List.mem_map_of_mem ha) b.id (List.mem_map_of_mem hb)
    c.id (List.mem_map_of_mem hc)
  antisymm _ ha _ hb := h.same ha hb

theorem byInstant (h : Sortable runtime items) : Orders (byInstant runtime) items where
  total a ha b hb := by
    obtain hlt | heq | hgt := Int.lt_trichotomy a.postedAt b.postedAt
    · exact .inl (.inl hlt)
    · exact (h.byId.total a ha b hb).imp (fun hid => .inr ⟨heq, hid⟩) fun hid => .inr ⟨heq.symm, hid⟩
    · exact .inr (.inl hgt)
  trans a ha b hb c hc := by
    rintro (hab | ⟨hab, hid⟩) (hbc | ⟨hbc, hid'⟩)
    · exact .inl (Int.lt_trans hab hbc)
    · exact .inl (hbc ▸ hab)
    · exact .inl (hab ▸ hbc)
    · exact .inr ⟨hab.trans hbc, h.byId.trans a ha b hb c hc hid hid'⟩
  antisymm a ha b hb := by
    rintro (hab | ⟨hab, hid⟩) (hba | ⟨hba, hid'⟩)
    · omega
    · omega
    · omega
    · exact h.same ha hb hid hid'

theorem subset (h : Sortable runtime items) (hnodup : (ids items').Nodup) (hs : ∀ i ∈ items', i ∈ items) :
    Sortable runtime items' where
  nodup := hnodup
  orders := h.orders.subset fun id hid => by
    obtain ⟨item, hi, rfl⟩ := List.mem_map.mp hid
    exact List.mem_map_of_mem (hs item hi)

theorem filter (h : Sortable runtime items) (q : NormalizedItem → Bool) :
    Sortable runtime (items.filter q) :=
  h.subset (h.nodup.sublist (List.filter_sublist.map _)) fun _ hi => List.mem_of_mem_filter hi

end Sortable

/-- Two pools of the same items, of those given. -/
structure SamePool (items : List NormalizedItem) (pool pool' : Pool) : Prop where
  keyed : Keyed pool
  keyed' : Keyed pool'
  values : pool.values.Perm pool'.values
  within : ∀ item ∈ pool.values, item ∈ items

namespace SamePool

variable {pool pool' : Pool}

theorem get (h : SamePool items pool pool') (k : String) : pool.get k = pool'.get k := by
  ext item
  rw [h.keyed.get, h.keyed'.get, h.values.mem_iff]

theorem deleteAll (h : SamePool items pool pool') {ks ks' : List String} (hks : ks.Perm ks') :
    SamePool items (pool.deleteAll ks) (pool'.deleteAll ks') where
  keyed := h.keyed.deleteAll ks
  keyed' := h.keyed'.deleteAll ks'
  values := by
    rw [h.keyed.values_deleteAll, h.keyed'.values_deleteAll]
    simp only [hks.mem_iff]
    exact h.values.filter _
  within item hi := by
    rw [h.keyed.values_deleteAll] at hi
    exact h.within item (List.mem_of_mem_filter hi)

theorem sortable (h : SamePool items pool pool') (hs : Sortable runtime items) :
    Sortable runtime pool.values :=
  hs.subset h.keyed.nodup h.within

/-- A pool is sorted into one list, however its items came in. -/
theorem sorted (h : SamePool items pool pool') (hs : Sortable runtime items) :
    pool.values.insertionSort (byId runtime) = pool'.values.insertionSort (byId runtime) :=
  insertionSort_eq_of_perm (h.sortable hs).byId h.values

theorem indexar (hnodup : (ids items).Nodup) (hp : items.Perm items') :
    SamePool items (indexar items) (indexar items') := by
  have hnodup' : (ids items').Nodup := (hp.map _).nodup_iff.mp hnodup
  refine ⟨indexar_keyed hnodup, indexar_keyed hnodup', ?_, fun item hi => ?_⟩
  · rw [indexar_values hnodup, indexar_values hnodup']
    exact hp
  · rwa [indexar_values hnodup] at hi

end SamePool

/-- Two effects that take and add the same, in whatever order. -/
structure SameEffect (e e' : Effect) : Prop where
  provider : e.provider.Perm e'.provider
  localItems : e.localItems.Perm e'.localItems
  matched : e.matched.Perm e'.matched
  breaks : e.breaks.Perm e'.breaks

theorem SameEffect.refl (e : Effect) : SameEffect e e := ⟨.refl _, .refl _, .refl _, .refl _⟩

theorem SameEffect.join {K : Type} {f g : K → Effect} {ks ks' : List K} (hks : ks.Perm ks')
    (h : ∀ k ∈ ks, SameEffect (f k) (g k)) : SameEffect (.join (ks.map f)) (.join (ks'.map g)) where
  provider := by
    rw [Effect.join_provider, Effect.join_provider]
    exact hks.flatMap fun k hk => (h k hk).provider
  localItems := by
    rw [Effect.join_localItems, Effect.join_localItems]
    exact hks.flatMap fun k hk => (h k hk).localItems
  matched := by
    rw [Effect.join_matched, Effect.join_matched]
    exact hks.flatMap fun k hk => (h k hk).matched
  breaks := by
    rw [Effect.join_breaks, Effect.join_breaks]
    exact hks.flatMap fun k hk => (h k hk).breaks

/-- Two states of the search with the same pools and the same plan. -/
structure SamePlan (provider localItems : List NormalizedItem) (s s' : PassState) : Prop where
  provider : SamePool provider s.provider s'.provider
  localPool : SamePool localItems s.localPool s'.localPool
  matched : s.matched.Perm s'.matched
  breaks : s.breaks.Perm s'.breaks
  pendingSettlement : s.pendingSettlement.Perm s'.pendingSettlement

variable {provider provider' localItems localItems' : List NormalizedItem} {s s' : PassState}

theorem SamePlan.apply (h : SamePlan provider localItems s s') {e e' : Effect} (he : SameEffect e e') :
    SamePlan provider localItems (e.apply s) (e'.apply s') where
  provider := h.provider.deleteAll he.provider
  localPool := h.localPool.deleteAll he.localItems
  matched := h.matched.append he.matched
  breaks := h.breaks.append he.breaks
  pendingSettlement := h.pendingSettlement

section Strong

theorem same_oldest (hs : Sortable runtime items) (hp : items.Perm items') :
    escolherMaisAntigo runtime items = escolherMaisAntigo runtime items' := by
  rw [escolherMaisAntigo, escolherMaisAntigo, insertionSort_eq_of_perm hs.byInstant hp]

theorem same_others (hp : items.Perm items') (item : NormalizedItem) :
    (others items item).Perm (others items' item) := hp.filter _

theorem same_strongEffect (k : String) (hp : Sortable runtime provider) (hc : Sortable runtime localItems)
    (hprovider : provider.Perm provider') (hlocal : localItems.Perm localItems') :
    SameEffect (strongEffect runtime policy k provider localItems)
      (strongEffect runtime policy k provider' localItems') := by
  unfold strongEffect
  rw [← same_oldest hp hprovider, ← same_oldest hc hlocal]
  cases escolherMaisAntigo runtime provider with
  | none => exact .refl _
  | some p =>
    cases escolherMaisAntigo runtime localItems with
    | none => exact .refl _
    | some c =>
      have hps := same_others hprovider p
      have hcs := same_others hlocal c
      exact
        { provider := (hps.map _).append_right _
          localItems := (hcs.map _).append_right _
          matched := .refl _
          breaks := (((hcs.map _).map _).append ((hps.map _).map _)).append_right _ }

theorem same_prefixEffect (hp : Sortable runtime provider) (hc : Sortable runtime localItems)
    (hprovider : provider.Perm provider') (hlocal : localItems.Perm localItems') (prefixo : String) :
    SameEffect (prefixEffect runtime policy prefixo provider localItems)
      (prefixEffect runtime policy prefixo provider' localItems') :=
  .join (groupKeys_perm hprovider) fun k _ =>
    same_strongEffect k (hp.filter _) (hc.filter _) (under_perm _ k hprovider) (under_perm _ k hlocal)

theorem same_passStrong (hp : Sortable runtime provider) (hc : Sortable runtime localItems)
    (h : SamePlan provider localItems s s') :
    SamePlan provider localItems (passStrong runtime policy s) (passStrong runtime policy s') := by
  rw [passStrong_eq s h.provider.keyed h.localPool.keyed,
    passStrong_eq s' h.provider.keyed' h.localPool.keyed']
  refine h.apply ?_
  have hround : ∀ prefixo, SameEffect
      (prefixEffect runtime policy prefixo s.provider.values s.localPool.values)
      (prefixEffect runtime policy prefixo s'.provider.values s'.localPool.values) :=
    same_prefixEffect (h.provider.sortable hp) (h.localPool.sortable hc) h.provider.values
      h.localPool.values
  exact SameEffect.join (.refl ["e2e:", "ptx:"]) fun prefixo _ => hround prefixo

end Strong

section Deterministic

theorem same_bucketKeys (hprovider : provider.Perm provider') (hlocal : localItems.Perm localItems') :
    bucketKeys provider localItems = bucketKeys provider' localItems' := by
  exact insertionSort_eq_of_perm (orders_le _)
    ((groupKeys_perm hprovider).append (groupKeys_perm hlocal)).dedup

theorem same_bucketEffect (policy : ReconciliationPolicy) (hp : Sortable runtime provider)
    (hc : Sortable runtime localItems)
    (hprovider : provider.Perm provider') (hlocal : localItems.Perm localItems') :
    bucketEffect runtime policy provider localItems = bucketEffect runtime policy provider' localItems' := by
  unfold bucketEffect
  rw [insertionSort_eq_of_perm hp.byInstant hprovider, insertionSort_eq_of_perm hc.byInstant hlocal]

theorem same_passDeterministicFuzzy (hp : Sortable runtime provider) (hc : Sortable runtime localItems)
    (h : SamePlan provider localItems s s') :
    SamePlan provider localItems (passDeterministicFuzzy runtime policy s)
      (passDeterministicFuzzy runtime policy s') := by
  rw [passDeterministicFuzzy_eq, passDeterministicFuzzy_eq]
  refine h.apply ?_
  rw [fuzzyEffect, fuzzyEffect, ← same_bucketKeys h.provider.values h.localPool.values]
  refine .join (.refl _) fun k _ => ?_
  have hbucket := same_bucketEffect policy ((h.provider.sortable hp).filter _)
    ((h.localPool.sortable hc).filter _) (under_perm fuzzyUnder k h.provider.values)
    (under_perm fuzzyUnder k h.localPool.values)
  exact hbucket ▸ .refl _

end Deterministic

section Windowed

theorem same_windowedEffect (hc : Sortable runtime localItems) (hlocal : localItems.Perm localItems')
    (p : NormalizedItem) :
    windowedEffect runtime policy localItems p = windowedEffect runtime policy localItems' p := by
  unfold windowedEffect
  rw [insertionSort_eq_of_perm (hc.filter _).byId (hlocal.filter _)]

theorem same_windowedStep (hc : Sortable runtime localItems) (h : SamePlan provider localItems s s')
    (p : NormalizedItem) :
    SamePlan provider localItems (windowedStep runtime policy s p) (windowedStep runtime policy s' p) := by
  rw [windowedStep_eq, windowedStep_eq, ← h.provider.get]
  split
  · exact h
  · rw [← same_windowedEffect (h.localPool.sortable hc) h.localPool.values]
    exact h.apply (.refl _)

theorem same_windowed (policy : ReconciliationPolicy) (hc : Sortable runtime localItems)
    (h : SamePlan provider localItems s s') (ps : List NormalizedItem) :
    SamePlan provider localItems (ps.foldl (windowedStep runtime policy) s)
      (ps.foldl (windowedStep runtime policy) s') := by
  induction ps generalizing s s' with
  | nil => exact h
  | cons p ps ih => exact ih (same_windowedStep hc h p)

theorem same_passWindowedFuzzy (hp : Sortable runtime provider) (hc : Sortable runtime localItems)
    (now : Int) (h : SamePlan provider localItems s s') :
    SamePlan provider localItems (passWindowedFuzzy runtime policy now s)
      (passWindowedFuzzy runtime policy now s') := by
  unfold passWindowedFuzzy
  dsimp only
  rw [← h.provider.sorted hp]
  have hw := same_windowed policy hc h (s.provider.values.insertionSort (byId runtime))
  rw [← hw.localPool.sorted hc, leftover_eq, leftover_eq]
  generalize hleft : Effect.mk [] _ [] _ = e
  have happly := hw.apply (.refl e)
  exact { happly with pendingSettlement := happly.pendingSettlement.append_right _ }

end Windowed

section LedgerCross

variable {ledger ledger' : List NormalizedItem} {pool pool' legs legs' : Pool}

theorem same_legsOf (hl : Sortable runtime ledger) (h : SamePool ledger legs legs') (c : NormalizedItem) :
    legsOf runtime legs c = legsOf runtime legs' c := by
  have hgroup : ∀ ledger : Pool, indexarPorTransacao ledger =
      group (fun item => some (ledgerKey item)) ledger.values := fun _ => groupBy_eq _ _
  have hget : ∀ k, ((group (fun item => some (ledgerKey item)) legs.values).get k).map
      (List.insertionSort (byId runtime)) =
        ((group (fun item => some (ledgerKey item)) legs'.values).get k).map
          (List.insertionSort (byId runtime)) := by
    intro k
    have hperm := under_perm (fun item => some (ledgerKey item)) k h.values
    rw [group_get, group_get]
    by_cases hnil : under (fun item => some (ledgerKey item)) k legs.values = []
    · rw [if_pos hnil, if_pos (List.nil_perm.mp (hnil ▸ hperm))]
    · rw [if_neg hnil, if_neg fun h : _ = [] => hnil (List.perm_nil.mp (h ▸ hperm))]
      exact congrArg some (insertionSort_eq_of_perm ((h.sortable hl).filter _).byId hperm)
  rw [legsOf, legsOf, hgroup, hgroup, grupoDe, grupoDe]
  cases present c.ledgerTransactionId with
  | none => rfl
  | some k => exact congrArg (Option.getD · []) (hget k)

variable (hc : SamePool localItems pool pool') (hl : Sortable runtime ledger)
    (hs : SamePool ledger legs legs')
include hc hl hs

theorem same_crossedLink (link : MatchLink) :
    crossedLink runtime pool legs link = crossedLink runtime pool' legs' link := by
  have hlocal : localOf pool link = localOf pool' link := congrArg _ (funext hc.get)
  unfold crossedLink
  simp only [hlocal, same_legsOf hl hs]

theorem same_crossedBreaks (policy : ReconciliationPolicy) (link : MatchLink) :
    crossedBreaks runtime policy pool legs link = crossedBreaks runtime policy pool' legs' link := by
  have hlocal : localOf pool link = localOf pool' link := congrArg _ (funext hc.get)
  unfold crossedBreaks
  simp only [hlocal, same_legsOf hl hs]

theorem same_crossedTaken (link : MatchLink) :
    crossedTaken runtime pool legs link = crossedTaken runtime pool' legs' link := by
  have hlocal : localOf pool link = localOf pool' link := congrArg _ (funext hc.get)
  unfold crossedTaken
  simp only [hlocal, same_legsOf hl hs]

theorem same_orphans {links links' : List MatchLink} (hlinks : links.Perm links') :
    (orphans runtime pool legs links).insertionSort (byId runtime) =
      (orphans runtime pool' legs' links').insertionSort (byId runtime) := by
  unfold orphans
  have htaken : (links.flatMap (crossedTaken runtime pool legs)).Perm
      (links'.flatMap (crossedTaken runtime pool' legs')) := by
    rw [funext (same_crossedTaken hc hl hs)]
    exact hlinks.flatMap_right _
  have hnamed : (pool.values.flatMap fun c => ids (legsOf runtime legs c)).Perm
      (pool'.values.flatMap fun c => ids (legsOf runtime legs' c)) := by
    rw [funext (same_legsOf hl hs)]
    exact hc.values.flatMap_right _
  exact ((hs.deleteAll htaken).deleteAll hnamed).sorted hl

end LedgerCross

theorem same_matchedMovement {pool pool' : Pool} (hp : SamePool provider pool pool')
    {links links' : List MatchLink} (hlinks : links.Perm links') :
    matchedMovement pool links = matchedMovement pool' links' := by
  unfold matchedMovement
  rw [funext hp.get]
  refine hlinks.foldl_eq' (fun x _ y _ z => ?_) 0
  cases (present x.providerItemId).bind pool'.get <;> cases (present y.providerItemId).bind pool'.get <;>
    dsimp only
  omega

theorem same_passBalance {provider : List NormalizedItem} (input : ReconciliationInput)
    (localItems ledger : List NormalizedItem)
    (hpools : SamePool input.provider (indexar input.provider) (indexar provider))
    {links links' : List MatchLink} {breaks breaks' : List BreakDraft} (hlinks : links.Perm links')
    (hbreaks : breaks.Perm breaks') :
    (passBalance runtime input links breaks (indexar input.provider)).1 =
        (passBalance runtime { input with provider, localItems, ledger } links' breaks'
          (indexar provider)).1 ∧
      (passBalance runtime input links breaks (indexar input.provider)).2.Perm
        (passBalance runtime { input with provider, localItems, ledger } links' breaks'
          (indexar provider)).2 := by
  unfold passBalance
  dsimp only
  rw [same_matchedMovement hpools hlinks, hbreaks.isEmpty_eq]
  split
  · exact ⟨rfl, hbreaks⟩
  · exact ⟨rfl, hbreaks⟩
  · split_ifs
    · exact ⟨rfl, hbreaks⟩
    · exact ⟨rfl, hbreaks.append_right _⟩
    · exact ⟨rfl, hbreaks⟩

section Runs

variable {input : ReconciliationInput} {provider localItems : List NormalizedItem}
  (ledger : List NormalizedItem) (hsp : Sortable runtime input.provider)
    (hsc : Sortable runtime input.localItems)
  (hprovider : input.provider.Perm provider) (hlocal : input.localItems.Perm localItems)
include hsp hsc hprovider hlocal

theorem same_searched :
    SamePlan input.provider input.localItems (searched runtime input)
      (searched runtime { input with provider, localItems, ledger }) := by
  have hstart : SamePlan input.provider input.localItems (start input)
      (start { input with provider, localItems, ledger }) :=
    ⟨.indexar hsp.nodup hprovider, .indexar hsc.nodup hlocal, .refl _, .refl _, .refl _⟩
  exact same_passWindowedFuzzy hsp hsc _ (same_passDeterministicFuzzy hsp hsc
    (same_passStrong hsp hsc hstart))

theorem same_crossed (hsl : Sortable runtime input.ledger) (hledger : input.ledger.Perm ledger) :
    (crossed runtime input).matched.Perm
        (crossed runtime { input with provider, localItems, ledger }).matched ∧
      (crossed runtime input).breaks.Perm
        (crossed runtime { input with provider, localItems, ledger }).breaks := by
  have hlocals := SamePool.indexar hsc.nodup hlocal
  have hlegs := SamePool.indexar hsl.nodup hledger
  have hsearched := same_searched ledger hsp hsc hprovider hlocal
  rw [crossed, crossed]
  generalize searched runtime { input with provider, localItems, ledger } = s' at hsearched ⊢
  generalize searched runtime input = s at hsearched ⊢
  obtain ⟨hmatched, hbreaks⟩ := passLedgerCross_eq runtime input.policy (indexar input.localItems)
    (indexar input.ledger) s.matched s.breaks
  obtain ⟨hmatched', hbreaks'⟩ := passLedgerCross_eq runtime input.policy (indexar localItems)
    (indexar ledger) s'.matched s'.breaks
  rw [hmatched, hmatched', hbreaks, hbreaks', same_orphans hlocals hsl hlegs hsearched.matched,
    funext (same_crossedLink hlocals hsl hlegs), funext (same_crossedBreaks hlocals hsl hlegs input.policy)]
  refine ⟨hsearched.matched.map _, ?_⟩
  exact (hsearched.breaks.append (hsearched.matched.flatMap_right _)).append_right _

end Runs

/-- The plan does not depend on the order of the three lists. -/
theorem reconcile_order_independent (runtime : Runtime) (input : ReconciliationInput)
    {provider localItems ledger : List NormalizedItem}
    (horder : Orders (collation runtime) (ids input.provider ++ ids input.localItems ++ ids input.ledger))
    (hp : (ids input.provider).Nodup) (hc : (ids input.localItems).Nodup) (hl : (ids input.ledger).Nodup)
    (hprovider : input.provider.Perm provider) (hlocal : input.localItems.Perm localItems)
    (hledger : input.ledger.Perm ledger) :
    (reconcile runtime input).matched.Perm
        (reconcile runtime { input with provider, localItems, ledger }).matched ∧
      (reconcile runtime input).breaks.Perm
        (reconcile runtime { input with provider, localItems, ledger }).breaks ∧
      (reconcile runtime input).pendingSettlement.Perm
        (reconcile runtime { input with provider, localItems, ledger }).pendingSettlement ∧
      (reconcile runtime input).balance =
        (reconcile runtime { input with provider, localItems, ledger }).balance := by
  have hsp : Sortable runtime input.provider := ⟨hp, horder.subset fun id hid => by simp [hid]⟩
  have hsc : Sortable runtime input.localItems := ⟨hc, horder.subset fun id hid => by simp [hid]⟩
  have hsl : Sortable runtime input.ledger := ⟨hl, horder.subset fun id hid => by simp [hid]⟩
  have hsearched := same_searched ledger hsp hsc hprovider hlocal
  obtain ⟨hmatched, hbreaks⟩ := same_crossed ledger hsp hsc hprovider hlocal hsl hledger
  obtain ⟨hbalance, hperm⟩ := same_passBalance input localItems ledger
    (.indexar hp hprovider) hmatched hbreaks
  rw [reconcile_eq, reconcile_eq]
  dsimp only
  exact ⟨hmatched, hperm, hsearched.pendingSettlement, hbalance⟩

theorem reconcile_order_independent_twice :
    (reconcile textRuntime twiceSettled).matched.Perm
      (reconcile textRuntime (paymentInput
        [paymentItem .PROVIDER "itm_2" (some "E1") none 10 500,
          paymentItem .PROVIDER "itm_1" (some "E1") none 20 500]
        twiceSettled.localItems)).matched := by
  have horder : Orders (collation textRuntime) (ids twiceSettled.provider ++
      ids twiceSettled.localItems ++ ids twiceSettled.ledger) :=
    ⟨by decide, by decide, by decide⟩
  exact (reconcile_order_independent textRuntime twiceSettled horder (by decide) (by decide) (by decide)
    (.swap _ _ _) (.refl _) (.refl _)).1

end BaasConnector.Reconciliation.InputOrder
