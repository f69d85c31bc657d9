import BaasConnector.Reconciliation.Partition

namespace BaasConnector.Reconciliation.Provenance

open BaasConnector.Lib.Keyed BaasConnector.Taxonomy.Status BaasConnector.Connector.Records
open BaasConnector.Reconciliation.Items BaasConnector.Reconciliation.Passes
open BaasConnector.Reconciliation.Motor BaasConnector.Reconciliation.Effects
open BaasConnector.Reconciliation.Origins BaasConnector.Reconciliation.StrongPass
open BaasConnector.Reconciliation.Accounting BaasConnector.Reconciliation.Windowed
open BaasConnector.Reconciliation.Partition

/-- An item that the strong pass leaves: the other side has not its strong key. -/
structure Left (own other : List NormalizedItem) (item : NormalizedItem) : Prop where
  mem : item ∈ own
  alone : ∀ k, StrongKey k → item.matchKeyStrong = some k → ∀ o ∈ other, o.matchKeyStrong ≠ some k

variable (runtime : Runtime) (input : ReconciliationInput)

/-- The items that the strong pass puts together under a key. -/
structure Meet (k : String) (p c : NormalizedItem) : Prop where
  key : StrongKey k
  provider : Oldest runtime input.provider k p
  localItem : Oldest runtime input.localItems k c

/-- A further item of a strong key that both sides have. -/
structure Extra (own other : List NormalizedItem) (k : String) (first item : NormalizedItem) : Prop where
  key : StrongKey k
  mem : item ∈ own
  keyed : item.matchKeyStrong = some k
  oldest : Oldest runtime own k first
  further : item.id ≠ first.id
  shared : ∃ o ∈ other, o.matchKeyStrong = some k

inductive MatchOrigin : MatchLink → Prop
  | strong {k : String} {p c : NormalizedItem} (h : Meet runtime input k p c) :
      MatchOrigin ⟨some p.id, some c.id, none, .EXACT, 1, false⟩
  | fuzzy {p c : NormalizedItem} (hp : Left input.provider input.localItems p)
      (hc : Left input.localItems input.provider c) (hkey : p.matchKeyFuzzy = c.matchKeyFuzzy)
      (ambiguo : Bool) : MatchOrigin (pairLink ambiguo (p, c))
  | window {p c : NormalizedItem} (hp : Left input.provider input.localItems p)
      (hc : Left input.localItems input.provider c) (hw : dentroDaJanela input.policy p c = true) :
      MatchOrigin (windowLink p c)

inductive BreakOrigin : BreakDraft → Prop
  | extraProvider {k : String} {first p : NormalizedItem}
      (h : Extra runtime input.provider input.localItems k first p) :
      BreakOrigin (duplicateBreak .DUPLICATE_PROVIDER .PROVIDER (p, sameKeyNote k first .PROVIDER))
  | extraLocal {k : String} {first c : NormalizedItem}
      (h : Extra runtime input.localItems input.provider k first c) :
      BreakOrigin (duplicateBreak .DUPLICATE_LOCAL .LOCAL (c, sameKeyNote k first .LOCAL))
  | twinProvider {p gemeo : NormalizedItem} (h : Left input.provider input.localItems p)
      (hindex : (present p.counterpartyTaxIdIndex).isSome) :
      BreakOrigin (duplicateBreak .DUPLICATE_PROVIDER .PROVIDER (p, surplusNote gemeo .PROVIDER))
  | twinLocal {c gemeo : NormalizedItem} (h : Left input.localItems input.provider c)
      (hindex : (present c.counterpartyTaxIdIndex).isSome) :
      BreakOrigin (duplicateBreak .DUPLICATE_LOCAL .LOCAL (c, surplusNote gemeo .LOCAL))
  | compared {k : String} {p c : NormalizedItem} {b : BreakDraft} (h : Meet runtime input k p c)
      (hb : b ∈ attributeBreaks input.policy p c) : BreakOrigin b
  | missingLocal {p : NormalizedItem} (h : Left input.provider input.localItems p) (ambiguo : Bool) :
      BreakOrigin (missingLocalBreak p ambiguo)
  | missingProvider {c : NormalizedItem} (h : Left input.localItems input.provider c) :
      BreakOrigin (missingProviderBreak input.now c)

/-- What is in the pools was left by the strong pass, and the plan has its origins. -/
structure Sourced (s : PassState) : Prop where
  provider : ∀ p ∈ s.provider.values, Left input.provider input.localItems p
  localPool : ∀ c ∈ s.localPool.values, Left input.localItems input.provider c
  matched : ∀ m ∈ s.matched, MatchOrigin runtime input m
  breaks : ∀ b ∈ s.breaks, BreakOrigin runtime input b

variable {runtime input} {s : PassState} {e : Effect}

theorem Oldest.keyed {items : List NormalizedItem} {k : String} {item : NormalizedItem}
    (h : Oldest runtime items k item) : item ∈ items ∧ item.matchKeyStrong = some k := by
  obtain ⟨hm, hk⟩ := List.mem_filter.mp (oldest_mem runtime h)
  exact ⟨hm, of_decide_eq_true hk⟩

theorem Meet.keyed {k : String} {p c : NormalizedItem} (h : Meet runtime input k p c) :
    p.matchKeyStrong = some k ∧ c.matchKeyStrong = some k :=
  ⟨(Oldest.keyed h.provider).2, (Oldest.keyed h.localItem).2⟩

theorem deleteAll_values {pool : Pool} {ks : List String} {item : NormalizedItem}
    (h : item ∈ (pool.deleteAll ks).values) : item ∈ pool.values := by
  obtain ⟨r, hr, rfl⟩ := List.mem_map.mp h
  rw [Table.rows_deleteAll] at hr
  exact List.mem_map_of_mem (List.mem_of_mem_filter hr)

theorem Sourced.apply (h : Sourced runtime input s) (hmatched : ∀ m ∈ e.matched, MatchOrigin runtime input m)
    (hbreaks : ∀ b ∈ e.breaks, BreakOrigin runtime input b) : Sourced runtime input (e.apply s) where
  provider p hp := h.provider p (deleteAll_values hp)
  localPool c hc := h.localPool c (deleteAll_values hc)
  matched m hm := (List.mem_append.mp hm).elim (h.matched m) (hmatched m)
  breaks b hb := (List.mem_append.mp hb).elim (h.breaks b) (hbreaks b)

section Strong

/-- Each thing that the strong pass does, it does for a strong key. -/
theorem mem_strongPlan_key {α : Type} (f : Effect → List α) (hjoin : ∀ (g : String → Effect) (ks : List String),
    f (.join (ks.map g)) = ks.flatMap fun k => f (g k)) (hnone : f .none = []) (runtime : Runtime)
    (input : ReconciliationInput) {x : α} :
    x ∈ f (strongPlan runtime input.policy input.provider input.localItems) ↔ ∃ k, StrongKey k ∧
      x ∈ f (strongEffect runtime input.policy k
        (input.provider.filter fun i => decide (i.matchKeyStrong = some k))
        (input.localItems.filter fun i => decide (i.matchKeyStrong = some k))) := by
  have hplan : strongPlan runtime input.policy input.provider input.localItems =
      .join (["e2e:", "ptx:"].map fun prefixo =>
        prefixEffect runtime input.policy prefixo input.provider input.localItems) := rfl
  rw [hplan, hjoin, List.mem_flatMap]
  constructor
  · rintro ⟨prefixo, hpre, hx⟩
    rw [prefixEffect, hjoin, List.mem_flatMap] at hx
    obtain ⟨k, hk, hx⟩ := hx
    obtain ⟨p, _, hpk⟩ := mem_groupKeys.mp hk
    obtain ⟨_, hpk⟩ := strongUnder_eq_some.mp hpk
    rw [under_strong hpk, under_strong hpk] at hx
    refine ⟨k, ?_, hx⟩
    obtain rfl | hpre := List.mem_cons.mp hpre
    · exact .inl hpk
    · rw [List.mem_singleton.mp hpre] at hpk
      exact .inr hpk
  · rintro ⟨k, hk, hx⟩
    have hround : ∃ prefixo ∈ ["e2e:", "ptx:"], prefixo.toList.isPrefixOf k.toList = true := by
      obtain hk | hk := hk
      · exact ⟨_, by simp, hk⟩
      · exact ⟨_, by simp, hk⟩
    obtain ⟨prefixo, hpre, hpk⟩ := hround
    refine ⟨prefixo, hpre, ?_⟩
    rw [prefixEffect, hjoin, List.mem_flatMap]
    refine ⟨k, ?_, by rwa [under_strong hpk, under_strong hpk]⟩
    cases hfilter : input.provider.filter fun i => decide (i.matchKeyStrong = some k) with
    | nil =>
      rw [hfilter, strongEffect_of_empty (.inl rfl), hnone] at hx
      cases hx
    | cons p ps =>
      have hp : p ∈ input.provider.filter fun i => decide (i.matchKeyStrong = some k) := by
        rw [hfilter]
        exact List.mem_cons_self
      obtain ⟨hm, hpk'⟩ := List.mem_filter.mp hp
      exact mem_groupKeys.mpr ⟨p, hm, strongUnder_eq_some.mpr ⟨of_decide_eq_true hpk', hpk⟩⟩

/-- The strong pass matches the oldest items of a key. -/
theorem mem_strongPlan_matched {m : MatchLink} :
    m ∈ (strongPlan runtime input.policy input.provider input.localItems).matched ↔
      ∃ k p c, Meet runtime input k p c ∧ m = ⟨some p.id, some c.id, none, .EXACT, 1, false⟩ := by
  constructor
  · intro hm
    obtain ⟨k, hk, hm⟩ := (mem_strongPlan_key Effect.matched Effect.join_matched rfl runtime input).mp hm
    unfold strongEffect at hm
    split at hm
    · next p c hp hc => exact ⟨k, p, c, ⟨hk, hp, hc⟩, List.mem_singleton.mp hm⟩
    · cases hm
  · rintro ⟨k, p, c, h, rfl⟩
    exact (strong_planned h.key h.provider h.localItem).1

theorem mem_furtherOf {k : String} {first : NormalizedItem} {lado : ReconciliationSide}
    {items : List NormalizedItem} {tipo : BreakType} {b : BreakDraft} :
    b ∈ (furtherOf k first lado items).map (duplicateBreak tipo lado) ↔
      ∃ i ∈ others items first, b = duplicateBreak tipo lado (i, sameKeyNote k first lado) := by
  rw [furtherOf, List.map_map, List.mem_map]
  simp only [Function.comp_apply, eq_comm (b := b)]

theorem mem_strongEffect_breaks {k : String} {provider localItems : List NormalizedItem} {b : BreakDraft} :
    b ∈ (strongEffect runtime input.policy k provider localItems).breaks ↔
      ∃ p c, escolherMaisAntigo runtime provider = some p ∧ escolherMaisAntigo runtime localItems = some c ∧
        ((∃ i ∈ others localItems c, b = duplicateBreak .DUPLICATE_LOCAL .LOCAL (i, sameKeyNote k c .LOCAL)) ∨
          (∃ i ∈ others provider p,
            b = duplicateBreak .DUPLICATE_PROVIDER .PROVIDER (i, sameKeyNote k p .PROVIDER)) ∨
            b ∈ attributeBreaks input.policy p c) := by
  unfold strongEffect
  constructor
  · intro hb
    split at hb
    · next p c hp hc =>
      refine ⟨p, c, hp, hc, ?_⟩
      simpa only [List.mem_append, mem_furtherOf, or_assoc] using hb
    · cases hb
  · rintro ⟨p, c, hp, hc, hb⟩
    rw [hp, hc]
    simpa only [List.mem_append, mem_furtherOf, or_assoc] using hb

theorem mem_others {k : String} {items : List NormalizedItem} {first item : NormalizedItem} :
    item ∈ others (items.filter fun i => decide (i.matchKeyStrong = some k)) first ↔
      item ∈ items ∧ item.matchKeyStrong = some k ∧ item.id ≠ first.id := by
  rw [others, List.mem_filter, List.mem_filter, decide_eq_true_eq, decide_eq_true_eq, and_assoc]

theorem Extra.other {own other : List NormalizedItem} {k : String} {first item : NormalizedItem}
    (h : Extra runtime own other k first item) : ∃ o, Oldest runtime other k o := by
  obtain ⟨o, ho, hok⟩ := h.shared
  exact exists_oldest runtime (List.ne_nil_of_mem (List.mem_filter.mpr ⟨ho, decide_eq_true hok⟩))

theorem Extra.not_left {own other : List NormalizedItem} {k : String} {first item : NormalizedItem}
    (h : Extra runtime own other k first item) : ¬ Left own other item := by
  intro hleft
  obtain ⟨o, ho, hok⟩ := h.shared
  exact hleft.alone k h.key h.keyed o ho hok

theorem Extra.unique {own other : List NormalizedItem} {k k' : String} {first first' item : NormalizedItem}
    (h : Extra runtime own other k first item) (h' : Extra runtime own other k' first' item) :
    k = k' ∧ first = first' := by
  obtain rfl : k = k' := Option.some.inj (h.keyed.symm.trans h'.keyed)
  exact ⟨rfl, Option.some.inj (Eq.trans (Eq.symm h.oldest) h'.oldest)⟩

/-- The strong pass reports the further items of a key, and how the oldest differ. -/
theorem mem_strongPlan_breaks {b : BreakDraft} :
    b ∈ (strongPlan runtime input.policy input.provider input.localItems).breaks ↔
      (∃ k first c, Extra runtime input.localItems input.provider k first c ∧
        b = duplicateBreak .DUPLICATE_LOCAL .LOCAL (c, sameKeyNote k first .LOCAL)) ∨
      (∃ k first p, Extra runtime input.provider input.localItems k first p ∧
        b = duplicateBreak .DUPLICATE_PROVIDER .PROVIDER (p, sameKeyNote k first .PROVIDER)) ∨
      ∃ k p c, Meet runtime input k p c ∧ b ∈ attributeBreaks input.policy p c := by
  rw [mem_strongPlan_key Effect.breaks Effect.join_breaks rfl]
  simp only [mem_strongEffect_breaks, mem_others]
  constructor
  · rintro ⟨k, hk, p, c, hp, hc, ⟨i, ⟨hm, hkey, hne⟩, rfl⟩ | ⟨i, ⟨hm, hkey, hne⟩, rfl⟩ | hb⟩
    · exact .inl ⟨k, c, i, ⟨hk, hm, hkey, hc, hne, p, Oldest.keyed hp⟩, rfl⟩
    · exact .inr (.inl ⟨k, p, i, ⟨hk, hm, hkey, hp, hne, c, Oldest.keyed hc⟩, rfl⟩)
    · exact .inr (.inr ⟨k, p, c, ⟨hk, hp, hc⟩, hb⟩)
  · rintro (⟨k, c, i, h, rfl⟩ | ⟨k, p, i, h, rfl⟩ | ⟨k, p, c, h, hb⟩)
    · obtain ⟨p, hp⟩ := h.other
      exact ⟨k, h.key, p, c, hp, h.oldest, .inl ⟨i, ⟨h.mem, h.keyed, h.further⟩, rfl⟩⟩
    · obtain ⟨c, hc⟩ := h.other
      exact ⟨k, h.key, p, c, h.oldest, hc, .inr (.inl ⟨i, ⟨h.mem, h.keyed, h.further⟩, rfl⟩)⟩
    · exact ⟨k, h.key, p, c, h.provider, h.localItem, .inr (.inr hb)⟩

theorem strongPlan_origin (runtime : Runtime) (input : ReconciliationInput) :
    (∀ m ∈ (strongPlan runtime input.policy input.provider input.localItems).matched,
        MatchOrigin runtime input m) ∧
      ∀ b ∈ (strongPlan runtime input.policy input.provider input.localItems).breaks,
        BreakOrigin runtime input b := by
  refine ⟨fun m hm => ?_, fun b hb => ?_⟩
  · obtain ⟨k, p, c, h, rfl⟩ := mem_strongPlan_matched.mp hm
    exact .strong h
  · obtain ⟨k, first, c, h, rfl⟩ | ⟨k, first, p, h, rfl⟩ | ⟨k, p, c, h, hb⟩ := mem_strongPlan_breaks.mp hb
    · exact .extraLocal h
    · exact .extraProvider h
    · exact .compared h hb

/-- An item of the id shares its strong key with the other side. -/
def Taken (own other : List NormalizedItem) (id : String) : Prop :=
  ∃ i ∈ own, i.id = id ∧ ∃ k, StrongKey k ∧ i.matchKeyStrong = some k ∧
    ∃ o ∈ other, o.matchKeyStrong = some k

theorem left_iff {own other : List NormalizedItem} (hnodup : (ids own).Nodup) {item : NormalizedItem} :
    Left own other item ↔ item ∈ own ∧ ¬ Taken own other item.id := by
  constructor
  · intro h
    refine ⟨h.mem, ?_⟩
    rintro ⟨i, hi, hid, k, hk, hik, o, ho, hok⟩
    rw [List.inj_on_of_nodup_map hnodup hi h.mem hid] at hik
    exact h.alone k hk hik o ho hok
  · rintro ⟨hm, hfree⟩
    exact ⟨hm, fun k hk hik o ho hok => hfree ⟨item, hm, rfl, k, hk, hik, o, ho, hok⟩⟩

variable (hp : (ids input.provider).Nodup) (hc : (ids input.localItems).Nodup)
include hp hc

/-- The strong pass takes the items whose strong key is on both sides. -/
theorem mem_strongPlan (runtime : Runtime) (id : String) :
    (id ∈ (strongPlan runtime input.policy input.provider input.localItems).provider ↔
        Taken input.provider input.localItems id) ∧
      (id ∈ (strongPlan runtime input.policy input.provider input.localItems).localItems ↔
        Taken input.localItems input.provider id) := by
  have hkeyed : ∀ {prefixo k : String} {i o : NormalizedItem}, prefixo ∈ ["e2e:", "ptx:"] →
      strongUnder prefixo i = some k → strongUnder prefixo o = some k →
        StrongKey k ∧ i.matchKeyStrong = some k ∧ o.matchKeyStrong = some k := by
    intro prefixo k i o hpre hi ho
    obtain ⟨hi, hk⟩ := strongUnder_eq_some.mp hi
    refine ⟨?_, hi, (strongUnder_eq_some.mp ho).1⟩
    obtain rfl | hpre := List.mem_cons.mp hpre
    · exact .inl hk
    · exact .inr (List.mem_singleton.mp hpre ▸ hk)
  have hround : ∀ {k : String} {i o : NormalizedItem}, StrongKey k → i.matchKeyStrong = some k →
      o.matchKeyStrong = some k →
        ∃ prefixo ∈ ["e2e:", "ptx:"], strongUnder prefixo i = some k ∧ strongUnder prefixo o = some k := by
    intro k i o hk hi ho
    obtain hk | hk := hk
    · exact ⟨"e2e:", by simp, strongUnder_eq_some.mpr ⟨hi, hk⟩, strongUnder_eq_some.mpr ⟨ho, hk⟩⟩
    · exact ⟨"ptx:", by simp, strongUnder_eq_some.mpr ⟨hi, hk⟩, strongUnder_eq_some.mpr ⟨ho, hk⟩⟩
  have hplan : strongPlan runtime input.policy input.provider input.localItems =
      .join (["e2e:", "ptx:"].map fun prefixo =>
        prefixEffect runtime input.policy prefixo input.provider input.localItems) := rfl
  rw [hplan, Effect.join_provider, Effect.join_localItems, List.mem_flatMap, List.mem_flatMap]
  constructor
  · constructor
    · rintro ⟨prefixo, hpre, hid⟩
      obtain ⟨p, hm, hid, k, hpk, o, ho, hok⟩ := (mem_prefixEffect_provider hp hc).mp hid
      obtain ⟨hk, hpk, hok⟩ := hkeyed hpre hpk hok
      exact ⟨p, hm, hid, k, hk, hpk, o, ho, hok⟩
    · rintro ⟨p, hm, hid, k, hk, hpk, o, ho, hok⟩
      obtain ⟨prefixo, hpre, hpk, hok⟩ := hround hk hpk hok
      exact ⟨prefixo, hpre, (mem_prefixEffect_provider hp hc).mpr ⟨p, hm, hid, k, hpk, o, ho, hok⟩⟩
  · constructor
    · rintro ⟨prefixo, hpre, hid⟩
      obtain ⟨c, hm, hid, k, hck, o, ho, hok⟩ := (mem_prefixEffect_localItems hp hc).mp hid
      obtain ⟨hk, hck, hok⟩ := hkeyed hpre hck hok
      exact ⟨c, hm, hid, k, hk, hck, o, ho, hok⟩
    · rintro ⟨c, hm, hid, k, hk, hck, o, ho, hok⟩
      obtain ⟨prefixo, hpre, hck, hok⟩ := hround hk hck hok
      exact ⟨prefixo, hpre, (mem_prefixEffect_localItems hp hc).mpr ⟨c, hm, hid, k, hck, o, ho, hok⟩⟩

/-- The pools after the strong pass. -/
theorem passStrong_pools (runtime : Runtime) :
    (∀ p, p ∈ (passStrong runtime input.policy (start input)).provider.values ↔
        Left input.provider input.localItems p) ∧
      ∀ c, c ∈ (passStrong runtime input.policy (start input)).localPool.values ↔
        Left input.localItems input.provider c := by
  have hprovider : (start input).provider.values = input.provider := indexar_values hp
  have hlocal : (start input).localPool.values = input.localItems := indexar_values hc
  rw [passStrong_eq _ (indexar_keyed hp) (indexar_keyed hc), hprovider, hlocal]
  refine ⟨fun p => ?_, fun c => ?_⟩
  · change p ∈ ((indexar input.provider).deleteAll _).values ↔ _
    rw [(indexar_keyed hp).values_deleteAll, indexar_values hp, List.mem_filter, left_iff hp,
      decide_eq_true_eq, (mem_strongPlan hp hc runtime p.id).1]
  · change c ∈ ((indexar input.localItems).deleteAll _).values ↔ _
    rw [(indexar_keyed hc).values_deleteAll, indexar_values hc, List.mem_filter, left_iff hc,
      decide_eq_true_eq, (mem_strongPlan hp hc runtime c.id).2]

theorem sourced_passStrong (runtime : Runtime) :
    Sourced runtime input (passStrong runtime input.policy (start input)) := by
  obtain ⟨hmatched, hbreaks⟩ := strongPlan_origin runtime input
  obtain ⟨hprovider, hlocal⟩ := passStrong_pools hp hc runtime
  have hps : (start input).provider.values = input.provider := indexar_values hp
  have hcs : (start input).localPool.values = input.localItems := indexar_values hc
  refine ⟨fun p hpm => (hprovider p).mp hpm, fun c hcm => (hlocal c).mp hcm, fun m hm => ?_, fun b hb => ?_⟩
  · rw [passStrong_eq _ (indexar_keyed hp) (indexar_keyed hc), hps, hcs] at hm
    exact (List.mem_append.mp hm).elim (fun h => by cases h) (hmatched m)
  · rw [passStrong_eq _ (indexar_keyed hp) (indexar_keyed hc), hps, hcs] at hb
    exact (List.mem_append.mp hb).elim (fun h => by cases h) (hbreaks b)

end Strong

section Later

theorem fuzzyEffect_origin {ps cs : List NormalizedItem}
    (hp : ∀ p ∈ ps, Left input.provider input.localItems p)
    (hc : ∀ c ∈ cs, Left input.localItems input.provider c) :
    (∀ m ∈ (fuzzyEffect runtime input.policy ps cs).matched, MatchOrigin runtime input m) ∧
      ∀ b ∈ (fuzzyEffect runtime input.policy ps cs).breaks, BreakOrigin runtime input b := by
  have hsorted : ∀ {k : String} {items : List NormalizedItem} {item : NormalizedItem},
      item ∈ (under fuzzyUnder k items).insertionSort (byInstant runtime) →
        item ∈ items ∧ item.matchKeyFuzzy = k := by
    intro k items item h
    obtain ⟨hm, hk⟩ := mem_under.mp ((List.mem_insertionSort (byInstant runtime)).mp h)
    exact ⟨hm, Option.some.inj hk⟩
  have hbucket : ∀ k,
      (∀ m ∈ (bucketEffect runtime input.policy (under fuzzyUnder k ps) (under fuzzyUnder k cs)).matched,
          MatchOrigin runtime input m) ∧
        ∀ b ∈ (bucketEffect runtime input.policy (under fuzzyUnder k ps) (under fuzzyUnder k cs)).breaks,
          BreakOrigin runtime input b := by
    intro k
    unfold bucketEffect
    dsimp only
    split
    · exact ⟨fun _ h => (by cases h), fun _ h => (by cases h)⟩
    · split
      · exact ⟨fun _ h => (by cases h), fun _ h => (by cases h)⟩
      · refine ⟨fun m hm => ?_, fun b hb => ?_⟩
        · obtain ⟨par, hpar, rfl⟩ := List.mem_map.mp hm
          obtain ⟨hpm, hcm⟩ := casarGuloso_mem hpar
          obtain ⟨hpm, hpk⟩ := hsorted hpm
          obtain ⟨hcm, hck⟩ := hsorted hcm
          exact .fuzzy (hp _ hpm) (hc _ hcm) (hpk.trans hck.symm) _
        · obtain hb | hb := List.mem_append.mp hb
          · obtain ⟨d, hd, rfl⟩ := List.mem_map.mp hb
            obtain ⟨c, gemeo, hcm, _, rfl⟩ := mem_surplusOf.mp hd
            exact .twinLocal (hc _ (hsorted (twins_mem hcm).1).1) (twins_index hcm)
          · obtain ⟨d, hd, rfl⟩ := List.mem_map.mp hb
            obtain ⟨p, gemeo, hpm, _, rfl⟩ := mem_surplusOf.mp hd
            exact .twinProvider (hp _ (hsorted (twins_mem hpm).1).1) (twins_index hpm)
  rw [fuzzyEffect, Effect.join_matched, Effect.join_breaks]
  refine ⟨fun m hm => ?_, fun b hb => ?_⟩
  · obtain ⟨k, _, hm⟩ := List.mem_flatMap.mp hm
    exact (hbucket k).1 m hm
  · obtain ⟨k, _, hb⟩ := List.mem_flatMap.mp hb
    exact (hbucket k).2 b hb

theorem sourced_passDeterministicFuzzy (h : Sourced runtime input s) :
    Sourced runtime input (passDeterministicFuzzy runtime input.policy s) := by
  obtain ⟨hmatched, hbreaks⟩ := fuzzyEffect_origin h.provider h.localPool
  rw [passDeterministicFuzzy_eq]
  exact h.apply hmatched hbreaks

theorem sourced_windowedStep (h : Sourced runtime input s) {p : NormalizedItem}
    (hp : Left input.provider input.localItems p) :
    Sourced runtime input (windowedStep runtime input.policy s p) := by
  rw [windowedStep_eq]
  split
  · exact h
  · obtain ⟨c, hc, hw, he⟩ | ⟨ambiguo, he⟩ := windowedEffect_cases runtime input.policy s.localPool.values p
    · rw [he]
      refine h.apply (fun m hm => ?_) fun b hb => (by cases hb)
      rw [List.mem_singleton.mp hm]
      exact .window hp (h.localPool c hc) hw
    · rw [he]
      refine h.apply (fun m hm => (by cases hm)) fun b hb => ?_
      rw [List.mem_singleton.mp hb]
      exact .missingLocal hp ambiguo

theorem sourced_windowed (h : Sourced runtime input s) {ps : List NormalizedItem}
    (hp : ∀ p ∈ ps, Left input.provider input.localItems p) :
    Sourced runtime input (ps.foldl (windowedStep runtime input.policy) s) := by
  induction ps generalizing s with
  | nil => exact h
  | cons p ps ih =>
    exact ih (sourced_windowedStep h (hp p List.mem_cons_self)) fun q hq => hp q (List.mem_cons_of_mem p hq)

theorem sourced_passWindowedFuzzy (h : Sourced runtime input s) :
    Sourced runtime input (passWindowedFuzzy runtime input.policy input.now s) := by
  unfold passWindowedFuzzy
  dsimp only
  rw [leftover_eq]
  have hw : Sourced runtime input
      ((s.provider.values.insertionSort (byId runtime)).foldl (windowedStep runtime input.policy) s) :=
    sourced_windowed h fun p hp => h.provider p ((List.mem_insertionSort (byId runtime)).mp hp)
  generalize (s.provider.values.insertionSort (byId runtime)).foldl (windowedStep runtime input.policy) s = v
    at hw ⊢
  have hleft : Sourced runtime input ((⟨[], ids (v.localPool.values.insertionSort (byId runtime)), [],
      ((v.localPool.values.insertionSort (byId runtime)).filter fun c => !young input.policy input.now c).map
        (missingProviderBreak input.now)⟩ : Effect).apply v) := by
    refine hw.apply (fun m hm => (by cases hm)) fun b hb => ?_
    obtain ⟨c, hc, rfl⟩ := List.mem_map.mp hb
    exact .missingProvider (hw.localPool c ((List.mem_insertionSort (byId runtime)).mp
      (List.mem_of_mem_filter hc)))
  exact ⟨hleft.provider, hleft.localPool, hleft.matched, hleft.breaks⟩

/-- Every match and every break of the search has its origin. -/
theorem searched_sourced (runtime : Runtime) (hp : (ids input.provider).Nodup)
    (hc : (ids input.localItems).Nodup) : Sourced runtime input (searched runtime input) :=
  sourced_passWindowedFuzzy (sourced_passDeterministicFuzzy (sourced_passStrong hp hc runtime))

end Later

end BaasConnector.Reconciliation.Provenance
