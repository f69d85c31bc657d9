import BaasConnector.Lib.Matching
import BaasConnector.Reconciliation.Provenance

namespace BaasConnector.Reconciliation.FuzzyPairs

open BaasConnector.Lib.Keyed BaasConnector.Lib.Greedy BaasConnector.Lib.History
open BaasConnector.Reconciliation.Items BaasConnector.Reconciliation.Passes
open BaasConnector.Reconciliation.Motor BaasConnector.Reconciliation.Effects
open BaasConnector.Reconciliation.StrongPass BaasConnector.Reconciliation.Accounting
open BaasConnector.Reconciliation.Partition BaasConnector.Reconciliation.Provenance

section Left

variable {own other : List NormalizedItem} {item : NormalizedItem}

theorem left_iff_key : Left own other item ↔ item ∈ own ∧
    ∀ k ∈ item.matchKeyStrong, StrongKey k → ∀ o ∈ other, o.matchKeyStrong ≠ some k :=
  ⟨fun h => ⟨h.mem, fun k hk hstrong => h.alone k hstrong hk⟩,
    fun h => ⟨h.1, fun k hstrong hk => h.2 k hk hstrong⟩⟩

instance (k : String) : Decidable (StrongKey k) := inferInstanceAs (Decidable (_ ∨ _))

instance : Decidable (Left own other item) := decidable_of_iff _ left_iff_key.symm

/-- The items that the strong pass leaves, in their order. -/
def leftOf (own other : List NormalizedItem) : List NormalizedItem :=
  own.filter fun item => decide (Left own other item)

theorem mem_leftOf : item ∈ leftOf own other ↔ Left own other item := by
  rw [leftOf, List.mem_filter, decide_eq_true_eq]
  exact and_iff_right_of_imp Left.mem

theorem passStrong_values {input : ReconciliationInput} (hp : (ids input.provider).Nodup)
    (hc : (ids input.localItems).Nodup) (runtime : Runtime) :
    (passStrong runtime input.policy (start input)).provider.values =
        leftOf input.provider input.localItems ∧
      (passStrong runtime input.policy (start input)).localPool.values =
        leftOf input.localItems input.provider := by
  have hprovider : (start input).provider.values = input.provider := indexar_values hp
  have hlocal : (start input).localPool.values = input.localItems := indexar_values hc
  rw [passStrong_eq _ (indexar_keyed hp) (indexar_keyed hc), hprovider, hlocal]
  constructor
  · change ((indexar input.provider).deleteAll _).values = _
    rw [(indexar_keyed hp).values_deleteAll, indexar_values hp]
    refine List.filter_congr fun p hpm => ?_
    rw [decide_eq_decide, left_iff hp, and_iff_right hpm, (mem_strongPlan hp hc runtime p.id).1]
  · change ((indexar input.localItems).deleteAll _).values = _
    rw [(indexar_keyed hc).values_deleteAll, indexar_values hc]
    refine List.filter_congr fun c hcm => ?_
    rw [decide_eq_decide, left_iff hc, and_iff_right hcm, (mem_strongPlan hp hc runtime c.id).2]

end Left

section Pairs

variable {runtime : Runtime} {ps cs : List NormalizedItem} {pair : NormalizedItem × NormalizedItem}

/-- The candidate pairs have an item in common. -/
def Clash (a b : NormalizedItem × NormalizedItem) : Prop := a.1.id = b.1.id ∨ a.2.id = b.2.id

instance : DecidableRel Clash := fun _ _ => inferInstanceAs (Decidable (_ ∨ _))

theorem takePairs_eq (candidates taken : List (NormalizedItem × NormalizedItem)) (usadosP usadosC : List String)
    (hp : ∀ id, id ∈ usadosP ↔ ∃ a ∈ taken, a.1.id = id) (hc : ∀ id, id ∈ usadosC ↔ ∃ a ∈ taken, a.2.id = id) :
    taken ++ takePairs candidates usadosP usadosC = candidates.foldl (take Clash) taken := by
  induction candidates generalizing taken usadosP usadosC with
  | nil => exact List.append_nil taken
  | cons pair candidates ih =>
    have hused : (pair.1.id ∈ usadosP ∨ pair.2.id ∈ usadosC) ↔ ∃ a ∈ taken, Clash a pair := by
      rw [hp, hc]
      simp only [Clash, and_or_left, exists_or]
    rw [takePairs, List.foldl_cons, take]
    by_cases hclash : ∃ a ∈ taken, Clash a pair
    · rw [if_pos (hused.mpr hclash), if_pos hclash]
      exact ih taken _ _ hp hc
    · rw [if_neg fun h => hclash (hused.mp h), if_neg hclash, ← ih (taken ++ [pair]), List.append_assoc,
        List.singleton_append]
      · intro id
        rw [List.mem_cons, hp]
        simp only [List.mem_append, List.mem_singleton, or_and_right, exists_or, exists_eq_left]
        rw [or_comm, eq_comm]
      · intro id
        rw [List.mem_cons, hc]
        simp only [List.mem_append, List.mem_singleton, or_and_right, exists_or, exists_eq_left]
        rw [or_comm, eq_comm]

/-- The candidate pairs of a bucket, the nearest first. -/
def candidatos (runtime : Runtime) (ps cs : List NormalizedItem) : List (NormalizedItem × NormalizedItem) :=
  (ps.flatMap fun p => cs.map fun c => (p, c)).insertionSort (nearer runtime)

theorem mem_candidatos : pair ∈ candidatos runtime ps cs ↔ pair.1 ∈ ps ∧ pair.2 ∈ cs := by
  obtain ⟨p, c⟩ := pair
  simp [candidatos, List.mem_insertionSort]

theorem casarGuloso_eq (runtime : Runtime) (ps cs : List NormalizedItem) :
    casarGuloso runtime ps cs = (candidatos runtime ps cs).foldl (take Clash) [] := by
  have htaken := takePairs_eq (candidatos runtime ps cs) [] [] []
    (fun id => by simp) fun id => by simp
  rw [← htaken]
  rfl

/-- A pair is matched exactly when no pair before it that is matched has one of
its items. -/
theorem mem_casarGuloso : pair ∈ casarGuloso runtime ps cs ↔
    Once (fun before b => b = pair ∧ ¬ Loses Clash before.reverse b) (candidatos runtime ps cs) := by
  rw [casarGuloso_eq, mem_greedy]

theorem candidatos_nodup (hp : ps.Nodup) (hc : cs.Nodup) : (candidatos runtime ps cs).Nodup :=
  (List.perm_insertionSort _ _).nodup_iff.mpr (hp.product hc)

end Pairs

section Buckets

variable (runtime : Runtime) (input : ReconciliationInput)

/-- The items of a bucket on each side, the oldest first. -/
def providerBucket (k : String) : List NormalizedItem :=
  (under fuzzyUnder k (leftOf input.provider input.localItems)).insertionSort (byInstant runtime)

def localBucket (k : String) : List NormalizedItem :=
  (under fuzzyUnder k (leftOf input.localItems input.provider)).insertionSort (byInstant runtime)

/-- A side of the bucket has more than one item. -/
def Ambiguous (k : String) : Prop :=
  (providerBucket runtime input k).length > 1 ∨ (localBucket runtime input k).length > 1

instance (k : String) : Decidable (Ambiguous runtime input k) := inferInstanceAs (Decidable (_ ∨ _))

/-- Both sides have items of the bucket, and not too many to choose among. -/
def Paired (k : String) : Prop :=
  providerBucket runtime input k ≠ [] ∧ localBucket runtime input k ≠ [] ∧
    (Ambiguous runtime input k →
      max (providerBucket runtime input k).length (localBucket runtime input k).length ≤
        input.policy.maxGreedyPairs)

instance (k : String) : Decidable (Paired runtime input k) := inferInstanceAs (Decidable (_ ∧ _))

/-- The second pass matches two items: they are of one bucket, and every nearer
pair of the bucket that has one of them loses an item to a nearer one itself. -/
def FuzzyPair (p c : NormalizedItem) : Prop :=
  p.matchKeyFuzzy = c.matchKeyFuzzy ∧ Paired runtime input p.matchKeyFuzzy ∧
    Once (fun before b => b = (p, c) ∧ ¬ Loses Clash before.reverse b)
      (candidatos runtime (providerBucket runtime input p.matchKeyFuzzy)
        (localBucket runtime input p.matchKeyFuzzy))

instance (p c : NormalizedItem) : Decidable (FuzzyPair runtime input p c) :=
  inferInstanceAs (Decidable (_ ∧ _))

def ProviderPaired (p : NormalizedItem) : Prop := ∃ c ∈ input.localItems, FuzzyPair runtime input p c

def LocalPaired (c : NormalizedItem) : Prop := ∃ p ∈ input.provider, FuzzyPair runtime input p c

instance : DecidablePred (ProviderPaired runtime input) := fun _ => inferInstanceAs (Decidable (∃ _ ∈ _, _))

instance : DecidablePred (LocalPaired runtime input) := fun _ => inferInstanceAs (Decidable (∃ _ ∈ _, _))

/-- An unpaired item whose counterparty is that of a paired one of its bucket and side. -/
def Twin (own : List NormalizedItem) (paired : NormalizedItem → Prop) (item : NormalizedItem) : Prop :=
  ¬ paired item ∧ ∃ index ∈ present item.counterpartyTaxIdIndex, ∃ i ∈ own, paired i ∧
    i.matchKeyFuzzy = item.matchKeyFuzzy ∧ i.counterpartyTaxIdIndex = some index

instance {own : List NormalizedItem} {paired : NormalizedItem → Prop} [DecidablePred paired]
    (item : NormalizedItem) : Decidable (Twin own paired item) := inferInstanceAs (Decidable (_ ∧ _))

/-- The pairs of a bucket that the second pass matches, the nearest first. -/
def bucketPairs (k : String) : List (NormalizedItem × NormalizedItem) :=
  (candidatos runtime (providerBucket runtime input k) (localBucket runtime input k)).filter fun pair =>
    decide (FuzzyPair runtime input pair.1 pair.2)

/-- The matched item that an unpaired one is told to repeat: of the nearest pair of
its bucket with its counterparty. -/
def providerGemeo (p : NormalizedItem) : Option NormalizedItem :=
  gemeoDe ((bucketPairs runtime input p.matchKeyFuzzy).map Prod.fst) p

def localGemeo (c : NormalizedItem) : Option NormalizedItem :=
  gemeoDe ((bucketPairs runtime input c.matchKeyFuzzy).map Prod.snd) c

/-- The items that come to the windowed pass. -/
def ProviderEnters (p : NormalizedItem) : Prop :=
  Left input.provider input.localItems p ∧ ¬ ProviderPaired runtime input p ∧
    ¬ Twin input.provider (ProviderPaired runtime input) p

def LocalEnters (c : NormalizedItem) : Prop :=
  Left input.localItems input.provider c ∧ ¬ LocalPaired runtime input c ∧
    ¬ Twin input.localItems (LocalPaired runtime input) c

instance : DecidablePred (ProviderEnters runtime input) := fun _ => inferInstanceAs (Decidable (_ ∧ _))

instance : DecidablePred (LocalEnters runtime input) := fun _ => inferInstanceAs (Decidable (_ ∧ _))

variable {runtime input} {k : String} {p c item : NormalizedItem}

theorem mem_providerBucket : p ∈ providerBucket runtime input k ↔
    Left input.provider input.localItems p ∧ p.matchKeyFuzzy = k := by
  rw [providerBucket, List.mem_insertionSort, mem_under, mem_leftOf, fuzzyUnder, Option.some.injEq]

theorem mem_localBucket : c ∈ localBucket runtime input k ↔
    Left input.localItems input.provider c ∧ c.matchKeyFuzzy = k := by
  rw [localBucket, List.mem_insertionSort, mem_under, mem_leftOf, fuzzyUnder, Option.some.injEq]

theorem mem_pairs : (p, c) ∈ casarGuloso runtime (providerBucket runtime input k) (localBucket runtime input k) ∧
    Paired runtime input k ↔ FuzzyPair runtime input p c ∧ p.matchKeyFuzzy = k := by
  rw [mem_casarGuloso]
  constructor
  · rintro ⟨honce, hpaired⟩
    obtain ⟨before, b, after, hsplit, rfl, hkept⟩ := honce
    have hm : (p, c) ∈ candidatos runtime (providerBucket runtime input k) (localBucket runtime input k) := by
      rw [hsplit]
      exact List.mem_append_right _ List.mem_cons_self
    obtain ⟨hpm, hcm⟩ := mem_candidatos.mp hm
    obtain rfl := (mem_providerBucket.mp hpm).2
    exact ⟨⟨(mem_localBucket.mp hcm).2.symm, hpaired, before, _, after, hsplit, rfl, hkept⟩, rfl⟩
  · rintro ⟨⟨_, hpaired, honce⟩, rfl⟩
    exact ⟨honce, hpaired⟩

theorem FuzzyPair.left (h : FuzzyPair runtime input p c) :
    Left input.provider input.localItems p ∧ Left input.localItems input.provider c := by
  obtain ⟨_, _, before, b, after, hsplit, rfl, _⟩ := h
  have hm : (p, c) ∈ candidatos runtime (providerBucket runtime input p.matchKeyFuzzy)
      (localBucket runtime input p.matchKeyFuzzy) := by
    rw [hsplit]
    exact List.mem_append_right _ List.mem_cons_self
  obtain ⟨hpm, hcm⟩ := mem_candidatos.mp hm
  exact ⟨(mem_providerBucket.mp hpm).1, (mem_localBucket.mp hcm).1⟩

theorem providerPaired_iff : ProviderPaired runtime input p ↔ ∃ c, FuzzyPair runtime input p c :=
  ⟨fun ⟨c, _, h⟩ => ⟨c, h⟩, fun ⟨c, h⟩ => ⟨c, h.left.2.mem, h⟩⟩

theorem localPaired_iff : LocalPaired runtime input c ↔ ∃ p, FuzzyPair runtime input p c :=
  ⟨fun ⟨p, _, h⟩ => ⟨p, h⟩, fun ⟨p, h⟩ => ⟨p, h.left.1.mem, h⟩⟩

/-- What the second pass does for a bucket. -/
theorem bucketEffect_eq (runtime : Runtime) (input : ReconciliationInput) (k : String) :
    bucketEffect runtime input.policy (under fuzzyUnder k (leftOf input.provider input.localItems))
        (under fuzzyUnder k (leftOf input.localItems input.provider)) =
      if Paired runtime input k then
        pairsEffect (decide (Ambiguous runtime input k))
          (casarGuloso runtime (providerBucket runtime input k) (localBucket runtime input k))
          (providerBucket runtime input k) (localBucket runtime input k)
      else .none := by
  change (if (providerBucket runtime input k).isEmpty ∨ (localBucket runtime input k).isEmpty then Effect.none
    else if decide (Ambiguous runtime input k) ∧ max (providerBucket runtime input k).length
        (localBucket runtime input k).length > input.policy.maxGreedyPairs then .none
      else pairsEffect _ _ _ _) = _
  simp only [List.isEmpty_iff, decide_eq_true_eq]
  by_cases hempty : providerBucket runtime input k = [] ∨ localBucket runtime input k = []
  · rw [if_pos hempty, if_neg fun h => hempty.elim h.1 h.2.1]
  · rw [if_neg hempty]
    obtain ⟨hp, hc⟩ := not_or.mp hempty
    by_cases hmany : Ambiguous runtime input k ∧ max (providerBucket runtime input k).length
        (localBucket runtime input k).length > input.policy.maxGreedyPairs
    · rw [if_pos hmany, if_neg fun h => absurd (h.2.2 hmany.1) (Nat.not_le.mpr hmany.2)]
    · rw [if_neg hmany, if_pos ⟨hp, hc, fun h => Nat.not_lt.mp fun hlt => hmany ⟨h, hlt⟩⟩]
      rfl

theorem mem_bucketKeys (h : Paired runtime input k) :
    k ∈ bucketKeys (leftOf input.provider input.localItems) (leftOf input.localItems input.provider) := by
  obtain ⟨p, hp⟩ := List.exists_mem_of_ne_nil _ h.1
  obtain ⟨hleft, hk⟩ := mem_providerBucket.mp hp
  rw [bucketKeys, List.mem_insertionSort, List.mem_dedup, List.mem_append]
  exact .inl (mem_groupKeys.mpr ⟨p, mem_leftOf.mpr hleft, congrArg some hk⟩)

/-- What the second pass does, of the items that the first has left. -/
def fuzzyPlan (runtime : Runtime) (input : ReconciliationInput) : Effect :=
  fuzzyEffect runtime input.policy (leftOf input.provider input.localItems)
    (leftOf input.localItems input.provider)

/-- Each thing that the second pass does, it does for a bucket. -/
theorem mem_fuzzyPlan {α : Type} (f : Effect → List α) (hjoin : ∀ (g : String → Effect) (ks : List String),
    f (.join (ks.map g)) = ks.flatMap fun k => f (g k)) (hnone : f .none = []) {x : α} :
    x ∈ f (fuzzyPlan runtime input) ↔ ∃ k, Paired runtime input k ∧
      x ∈ f (pairsEffect (decide (Ambiguous runtime input k))
        (casarGuloso runtime (providerBucket runtime input k) (localBucket runtime input k))
        (providerBucket runtime input k) (localBucket runtime input k)) := by
  rw [fuzzyPlan, fuzzyEffect, hjoin, List.mem_flatMap]
  simp only [bucketEffect_eq]
  constructor
  · rintro ⟨k, _, hx⟩
    split at hx
    · next hpaired => exact ⟨k, hpaired, hx⟩
    · rw [hnone] at hx
      cases hx
  · rintro ⟨k, hpaired, hx⟩
    exact ⟨k, mem_bucketKeys hpaired, by rw [if_pos hpaired]; exact hx⟩

theorem mem_fuzzyPlan_matched {m : MatchLink} : m ∈ (fuzzyPlan runtime input).matched ↔
    ∃ p c, FuzzyPair runtime input p c ∧
      m = pairLink (decide (Ambiguous runtime input p.matchKeyFuzzy)) (p, c) := by
  rw [mem_fuzzyPlan Effect.matched Effect.join_matched rfl]
  constructor
  · rintro ⟨k, hpaired, hm⟩
    obtain ⟨⟨p, c⟩, hpair, rfl⟩ := List.mem_map.mp hm
    obtain ⟨hfuzzy, rfl⟩ := mem_pairs.mp ⟨hpair, hpaired⟩
    exact ⟨p, c, hfuzzy, rfl⟩
  · rintro ⟨p, c, hfuzzy, rfl⟩
    obtain ⟨hpair, hpaired⟩ := mem_pairs.mpr ⟨hfuzzy, rfl⟩
    exact ⟨_, hpaired, List.mem_map_of_mem hpair⟩

theorem mem_twins {todos casados : List NormalizedItem} : item ∈ twins todos casados ↔
    item ∈ todos ∧ item.id ∉ ids casados ∧ ∃ index ∈ present item.counterpartyTaxIdIndex,
      ∃ i ∈ casados, i.counterpartyTaxIdIndex = some index := by
  have htwin : (gemeoDe casados item).isSome = true ↔ ∃ index ∈ present item.counterpartyTaxIdIndex,
      ∃ i ∈ casados, i.counterpartyTaxIdIndex = some index := by
    unfold gemeoDe
    cases present item.counterpartyTaxIdIndex <;> simp
  rw [twins, List.mem_filter, List.mem_filter, decide_eq_true_eq, htwin, and_assoc]
  rfl

theorem mem_pairs_fst (hpaired : Paired runtime input k) :
    p ∈ (casarGuloso runtime (providerBucket runtime input k) (localBucket runtime input k)).map Prod.fst ↔
      ProviderPaired runtime input p ∧ p.matchKeyFuzzy = k := by
  rw [providerPaired_iff, List.mem_map]
  constructor
  · rintro ⟨⟨p, c⟩, hpair, rfl⟩
    obtain ⟨hfuzzy, hk⟩ := mem_pairs.mp ⟨hpair, hpaired⟩
    exact ⟨⟨c, hfuzzy⟩, hk⟩
  · rintro ⟨⟨c, hfuzzy⟩, hk⟩
    exact ⟨(p, c), (mem_pairs.mpr ⟨hfuzzy, hk⟩).1, rfl⟩

theorem mem_pairs_snd (hpaired : Paired runtime input k) :
    c ∈ (casarGuloso runtime (providerBucket runtime input k) (localBucket runtime input k)).map Prod.snd ↔
      LocalPaired runtime input c ∧ c.matchKeyFuzzy = k := by
  rw [localPaired_iff, List.mem_map]
  constructor
  · rintro ⟨⟨p, c⟩, hpair, rfl⟩
    obtain ⟨hfuzzy, hk⟩ := mem_pairs.mp ⟨hpair, hpaired⟩
    exact ⟨⟨p, hfuzzy⟩, hfuzzy.1.symm.trans hk⟩
  · rintro ⟨⟨p, hfuzzy⟩, hk⟩
    exact ⟨(p, c), (mem_pairs.mpr ⟨hfuzzy, hfuzzy.1.trans hk⟩).1, rfl⟩

/-- The twins of a side of a bucket, told by which items of the side are paired. -/
theorem mem_twins_of {own todos casados : List NormalizedItem} {paired : NormalizedItem → Prop}
    (hnodup : (ids own).Nodup) (hm : item ∈ own) (htodos : item ∈ todos ↔ item.matchKeyFuzzy = k)
    (hcasados : ∀ i, i ∈ casados ↔ paired i ∧ i.matchKeyFuzzy = k) (hown : ∀ i, paired i → i ∈ own) :
    item ∈ twins todos casados ↔ item.matchKeyFuzzy = k ∧ Twin own paired item := by
  rw [mem_twins, htodos, Twin]
  refine and_congr_right fun hk => and_congr (not_congr ?_) ?_
  · constructor
    · intro hid
      obtain ⟨i, hi, hid⟩ := List.mem_map.mp hid
      obtain ⟨hpaired, _⟩ := (hcasados i).mp hi
      rwa [← List.inj_on_of_nodup_map hnodup (hown i hpaired) hm hid]
    · intro hpaired
      exact List.mem_map_of_mem ((hcasados item).mpr ⟨hpaired, hk⟩)
  · refine exists_congr fun index => and_congr_right fun _ => exists_congr fun i => ?_
    rw [hcasados, hk]
    constructor
    · rintro ⟨⟨hpaired, hik⟩, hindex⟩
      exact ⟨hown i hpaired, hpaired, hik, hindex⟩
    · rintro ⟨_, hpaired, hik, hindex⟩
      exact ⟨⟨hpaired, hik⟩, hindex⟩

section Nodup

variable (hp : (ids input.provider).Nodup) (hc : (ids input.localItems).Nodup)

include hp in
theorem mem_providerTwins (hpaired : Paired runtime input k) :
    p ∈ twins (providerBucket runtime input k)
        ((casarGuloso runtime (providerBucket runtime input k) (localBucket runtime input k)).map Prod.fst) ↔
      Left input.provider input.localItems p ∧ p.matchKeyFuzzy = k ∧
        Twin input.provider (ProviderPaired runtime input) p := by
  by_cases hleft : Left input.provider input.localItems p
  · rw [and_iff_right hleft]
    refine mem_twins_of hp hleft.mem ?_ (fun i => mem_pairs_fst hpaired) fun i hi => ?_
    · rw [mem_providerBucket, and_iff_right hleft]
    · obtain ⟨_, hfuzzy⟩ := providerPaired_iff.mp hi
      exact hfuzzy.left.1.mem
  · exact iff_of_false (fun h => hleft (mem_providerBucket.mp (mem_twins.mp h).1).1) fun h => hleft h.1

include hc in
theorem mem_localTwins (hpaired : Paired runtime input k) :
    c ∈ twins (localBucket runtime input k)
        ((casarGuloso runtime (providerBucket runtime input k) (localBucket runtime input k)).map Prod.snd) ↔
      Left input.localItems input.provider c ∧ c.matchKeyFuzzy = k ∧
        Twin input.localItems (LocalPaired runtime input) c := by
  by_cases hleft : Left input.localItems input.provider c
  · rw [and_iff_right hleft]
    refine mem_twins_of hc hleft.mem ?_ (fun i => mem_pairs_snd hpaired) fun i hi => ?_
    · rw [mem_localBucket, and_iff_right hleft]
    · obtain ⟨_, hfuzzy⟩ := localPaired_iff.mp hi
      exact hfuzzy.left.2.mem
  · exact iff_of_false (fun h => hleft (mem_localBucket.mp (mem_twins.mp h).1).1) fun h => hleft h.1

include hp hc in
/-- The greedy choice matches the pairs of the bucket in the order of their nearness. -/
theorem casarGuloso_bucket (hpaired : Paired runtime input k) :
    casarGuloso runtime (providerBucket runtime input k) (localBucket runtime input k) =
      bucketPairs runtime input k := by
  have hnodup : ∀ {own other : List NormalizedItem}, (ids own).Nodup →
      ((under fuzzyUnder k (leftOf own other)).insertionSort (byInstant runtime)).Nodup := fun h =>
    (List.perm_insertionSort _ _).nodup_iff.mpr ((h.of_map _).filter _ |>.filter _)
  have hcandidatos : (candidatos runtime (providerBucket runtime input k)
      (localBucket runtime input k)).Nodup := candidatos_nodup (hnodup hp) (hnodup hc)
  rw [casarGuloso_eq]
  refine greedy_eq_filter hcandidatos fun pair => ?_
  obtain ⟨p, c⟩ := pair
  have hkept : (p, c) ∈ casarGuloso runtime (providerBucket runtime input k) (localBucket runtime input k) ↔
      FuzzyPair runtime input p c ∧ p.matchKeyFuzzy = k := by
    rw [← mem_pairs, and_iff_left hpaired]
  rw [← mem_casarGuloso, hkept, mem_candidatos, mem_providerBucket, mem_localBucket]
  constructor
  · rintro ⟨h, hk⟩
    exact ⟨⟨⟨h.left.1, hk⟩, h.left.2, h.1.symm.trans hk⟩, h⟩
  · rintro ⟨⟨⟨_, hk⟩, _⟩, h⟩
    exact ⟨h, hk⟩

theorem ProviderPaired.paired (h : ProviderPaired runtime input p) : Paired runtime input p.matchKeyFuzzy := by
  obtain ⟨c, _, h⟩ := h
  exact h.2.1

theorem LocalPaired.paired (h : LocalPaired runtime input c) : Paired runtime input c.matchKeyFuzzy := by
  obtain ⟨p, _, h⟩ := h
  exact h.1 ▸ h.2.1

theorem providerTwin_paired (h : Twin input.provider (ProviderPaired runtime input) p) :
    Paired runtime input p.matchKeyFuzzy := by
  obtain ⟨_, _, _, i, _, hi, hk, _⟩ := h
  exact hk ▸ hi.paired

theorem localTwin_paired (h : Twin input.localItems (LocalPaired runtime input) c) :
    Paired runtime input c.matchKeyFuzzy := by
  obtain ⟨_, _, _, i, _, hi, hk, _⟩ := h
  exact hk ▸ hi.paired

include hp in
/-- The provider items that the second pass takes. -/
theorem mem_fuzzyPlan_provider {id : String} : id ∈ (fuzzyPlan runtime input).provider ↔
    ∃ p, p.id = id ∧ Left input.provider input.localItems p ∧
      (ProviderPaired runtime input p ∨ Twin input.provider (ProviderPaired runtime input) p) := by
  rw [mem_fuzzyPlan Effect.provider Effect.join_provider rfl]
  constructor
  · rintro ⟨k, hpaired, hid⟩
    obtain hid | hid := List.mem_append.mp hid
    · obtain ⟨p, hpm, rfl⟩ := List.mem_map.mp hid
      have hpp := ((mem_pairs_fst hpaired).mp hpm).1
      obtain ⟨_, hfuzzy⟩ := providerPaired_iff.mp hpp
      exact ⟨p, rfl, hfuzzy.left.1, .inl hpp⟩
    · obtain ⟨p, hpm, rfl⟩ := List.mem_map.mp hid
      obtain ⟨hleft, _, htwin⟩ := (mem_providerTwins hp hpaired).mp hpm
      exact ⟨p, rfl, hleft, .inr htwin⟩
  · rintro ⟨p, rfl, hleft, hpp | htwin⟩
    · exact ⟨_, hpp.paired, List.mem_append_left _
        (List.mem_map_of_mem ((mem_pairs_fst hpp.paired).mpr ⟨hpp, rfl⟩))⟩
    · have hpaired := providerTwin_paired htwin
      exact ⟨_, hpaired, List.mem_append_right _
        (List.mem_map_of_mem ((mem_providerTwins hp hpaired).mpr ⟨hleft, rfl, htwin⟩))⟩

include hc in
theorem mem_fuzzyPlan_localItems {id : String} : id ∈ (fuzzyPlan runtime input).localItems ↔
    ∃ c, c.id = id ∧ Left input.localItems input.provider c ∧
      (LocalPaired runtime input c ∨ Twin input.localItems (LocalPaired runtime input) c) := by
  rw [mem_fuzzyPlan Effect.localItems Effect.join_localItems rfl]
  constructor
  · rintro ⟨k, hpaired, hid⟩
    obtain hid | hid := List.mem_append.mp hid
    · obtain ⟨c, hcm, rfl⟩ := List.mem_map.mp hid
      have hcp := ((mem_pairs_snd hpaired).mp hcm).1
      obtain ⟨_, hfuzzy⟩ := localPaired_iff.mp hcp
      exact ⟨c, rfl, hfuzzy.left.2, .inl hcp⟩
    · obtain ⟨c, hcm, rfl⟩ := List.mem_map.mp hid
      obtain ⟨hleft, _, htwin⟩ := (mem_localTwins hc hpaired).mp hcm
      exact ⟨c, rfl, hleft, .inr htwin⟩
  · rintro ⟨c, rfl, hleft, hcp | htwin⟩
    · exact ⟨_, hcp.paired, List.mem_append_left _
        (List.mem_map_of_mem ((mem_pairs_snd hcp.paired).mpr ⟨hcp, rfl⟩))⟩
    · have hpaired := localTwin_paired htwin
      exact ⟨_, hpaired, List.mem_append_right _
        (List.mem_map_of_mem ((mem_localTwins hc hpaired).mpr ⟨hleft, rfl, htwin⟩))⟩

include hp hc in
/-- The second pass reports the twins of the items that it puts together. -/
theorem mem_fuzzyPlan_breaks {b : BreakDraft} : b ∈ (fuzzyPlan runtime input).breaks ↔
    (∃ c gemeo, Left input.localItems input.provider c ∧ Twin input.localItems (LocalPaired runtime input) c ∧
      localGemeo runtime input c = some gemeo ∧
      b = duplicateBreak .DUPLICATE_LOCAL .LOCAL (c, surplusNote gemeo .LOCAL)) ∨
    ∃ p gemeo, Left input.provider input.localItems p ∧ Twin input.provider (ProviderPaired runtime input) p ∧
      providerGemeo runtime input p = some gemeo ∧
      b = duplicateBreak .DUPLICATE_PROVIDER .PROVIDER (p, surplusNote gemeo .PROVIDER) := by
  rw [mem_fuzzyPlan Effect.breaks Effect.join_breaks rfl]
  constructor
  · rintro ⟨k, hpaired, hb⟩
    obtain hb | hb := List.mem_append.mp hb
    · obtain ⟨d, hd, rfl⟩ := List.mem_map.mp hb
      obtain ⟨c, gemeo, hcm, hgemeo, rfl⟩ := mem_surplusOf.mp hd
      obtain ⟨hleft, rfl, htwin⟩ := (mem_localTwins hc hpaired).mp hcm
      rw [casarGuloso_bucket hp hc hpaired] at hgemeo
      exact .inl ⟨c, gemeo, hleft, htwin, hgemeo, rfl⟩
    · obtain ⟨d, hd, rfl⟩ := List.mem_map.mp hb
      obtain ⟨p, gemeo, hpm, hgemeo, rfl⟩ := mem_surplusOf.mp hd
      obtain ⟨hleft, rfl, htwin⟩ := (mem_providerTwins hp hpaired).mp hpm
      rw [casarGuloso_bucket hp hc hpaired] at hgemeo
      exact .inr ⟨p, gemeo, hleft, htwin, hgemeo, rfl⟩
  · rintro (⟨c, gemeo, hleft, htwin, hgemeo, rfl⟩ | ⟨p, gemeo, hleft, htwin, hgemeo, rfl⟩)
    · have hpaired := localTwin_paired htwin
      rw [localGemeo, ← casarGuloso_bucket hp hc hpaired] at hgemeo
      exact ⟨_, hpaired, List.mem_append_left _ (List.mem_map_of_mem (mem_surplusOf.mpr
        ⟨c, gemeo, (mem_localTwins hc hpaired).mpr ⟨hleft, rfl, htwin⟩, hgemeo, rfl⟩))⟩
    · have hpaired := providerTwin_paired htwin
      rw [providerGemeo, ← casarGuloso_bucket hp hc hpaired] at hgemeo
      exact ⟨_, hpaired, List.mem_append_right _ (List.mem_map_of_mem (mem_surplusOf.mpr
        ⟨p, gemeo, (mem_providerTwins hp hpaired).mpr ⟨hleft, rfl, htwin⟩, hgemeo, rfl⟩))⟩

theorem filter_leftOf {own other : List NormalizedItem} {taken : List String} {out enters : NormalizedItem → Prop}
    [DecidablePred enters] (hnodup : (ids own).Nodup)
    (htaken : ∀ id, id ∈ taken ↔ ∃ i, i.id = id ∧ Left own other i ∧ out i)
    (henters : ∀ i, enters i ↔ Left own other i ∧ ¬ out i) :
    (leftOf own other).filter (fun i => decide (i.id ∉ taken)) = own.filter fun i => decide (enters i) := by
  rw [leftOf, List.filter_filter]
  refine List.filter_congr fun i hi => ?_
  rw [← Bool.decide_and, decide_eq_decide, htaken, henters, and_comm]
  refine and_congr_right fun hleft => not_congr ⟨?_, fun h => ⟨i, rfl, hleft, h⟩⟩
  rintro ⟨i', hid, hleft', h⟩
  rwa [← List.inj_on_of_nodup_map hnodup hleft'.mem hi hid]

/-- The plan of the first two passes. -/
def entered (runtime : Runtime) (input : ReconciliationInput) : PassState :=
  passDeterministicFuzzy runtime input.policy (passStrong runtime input.policy (start input))

include hp hc in
theorem entered_eq : entered runtime input =
    (fuzzyPlan runtime input).apply ((strongPlan runtime input.policy input.provider input.localItems).apply
      (start input)) := by
  have hprovider : (start input).provider.values = input.provider := indexar_values hp
  have hlocal : (start input).localPool.values = input.localItems := indexar_values hc
  obtain ⟨hps, hcs⟩ := passStrong_values hp hc runtime
  rw [entered, passDeterministicFuzzy_eq, hps, hcs, fuzzyPlan,
    passStrong_eq _ (indexar_keyed hp) (indexar_keyed hc), hprovider, hlocal]

include hp hc in
/-- The items that come to the windowed pass, in their order. -/
theorem entered_values (runtime : Runtime) :
    (entered runtime input).provider.values =
        input.provider.filter (fun p => decide (ProviderEnters runtime input p)) ∧
      (entered runtime input).localPool.values =
        input.localItems.filter fun c => decide (LocalEnters runtime input c) := by
  obtain ⟨hps, hcs⟩ := passStrong_values hp hc runtime
  have hpk : Keyed (passStrong runtime input.policy (start input)).provider := by
    rw [passStrong_eq _ (indexar_keyed hp) (indexar_keyed hc)]
    exact (indexar_keyed hp).deleteAll _
  have hck : Keyed (passStrong runtime input.policy (start input)).localPool := by
    rw [passStrong_eq _ (indexar_keyed hp) (indexar_keyed hc)]
    exact (indexar_keyed hc).deleteAll _
  rw [entered, passDeterministicFuzzy_eq, hps, hcs]
  constructor
  · change (Table.deleteAll _ (fuzzyPlan runtime input).provider).values = _
    rw [hpk.values_deleteAll, hps]
    exact filter_leftOf hp (fun id => mem_fuzzyPlan_provider hp) fun p => by rw [ProviderEnters, not_or]
  · change (Table.deleteAll _ (fuzzyPlan runtime input).localItems).values = _
    rw [hck.values_deleteAll, hcs]
    exact filter_leftOf hc (fun id => mem_fuzzyPlan_localItems hc) fun c => by rw [LocalEnters, not_or]

end Nodup

end Buckets

end BaasConnector.Reconciliation.FuzzyPairs
