import BaasConnector.Reconciliation.LedgerLegs
import BaasConnector.Reconciliation.Normalizers
import BaasConnector.Reconciliation.Windowed

namespace BaasConnector.Reconciliation.Partition

open BaasConnector.Lib.Keyed BaasConnector.Taxonomy.Status BaasConnector.Connector.Records
open BaasConnector.Reconciliation.Items BaasConnector.Reconciliation.Passes
open BaasConnector.Reconciliation.Motor BaasConnector.Reconciliation.Effects
open BaasConnector.Reconciliation.Origins BaasConnector.Reconciliation.StrongPass
open BaasConnector.Reconciliation.Accounting BaasConnector.Reconciliation.Windowed
open BaasConnector.Reconciliation.LedgerLegs BaasConnector.Reconciliation.Normalizers

variable (runtime : Runtime) (input : ReconciliationInput)

def start : PassState := ⟨indexar input.provider, indexar input.localItems, [], [], []⟩

/-- The input as the motor knows it: of the items of a list under one id, the last. -/
def known : ReconciliationInput :=
  { input with
    provider := (indexar input.provider).values
    localItems := (indexar input.localItems).values
    ledger := (indexar input.ledger).values }

/-- The plan after the three passes over the provider's and the local items. -/
def searched : PassState :=
  passWindowedFuzzy runtime input.policy input.now
    (passDeterministicFuzzy runtime input.policy (passStrong runtime input.policy (start input)))

/-- The plan with the ledger's side. -/
def crossed : LedgerCrossState :=
  passLedgerCross runtime input.policy (indexar input.localItems) (searched runtime input).matched
    (searched runtime input).breaks (indexar input.ledger)

theorem reconcile_eq : reconcile runtime input =
    ⟨(crossed runtime input).matched,
      (passBalance runtime input (crossed runtime input).matched (crossed runtime input).breaks
        (indexar input.provider)).2,
      (passBalance runtime input (crossed runtime input).matched (crossed runtime input).breaks
        (indexar input.provider)).1, (searched runtime input).pendingSettlement⟩ := rfl

theorem reconcile_known : reconcile runtime (known input) = reconcile runtime input := by
  unfold reconcile known
  dsimp only
  rw [indexar_indexar, indexar_indexar, indexar_indexar]
  rfl

theorem reconcile_matched : (reconcile runtime input).matched =
    (searched runtime input).matched.map
      (crossedLink runtime (indexar input.localItems) (indexar input.ledger)) := by
  rw [reconcile_eq]
  dsimp only
  rw [crossed]
  exact (passLedgerCross_eq runtime input.policy (indexar input.localItems) (indexar input.ledger)
    (searched runtime input).matched (searched runtime input).breaks).1

/-- A break about the balance. -/
def BalanceBreak (b : BreakDraft) : Prop :=
  ∃ abertura movimento fechamento, b = balanceBreak runtime input abertura movimento fechamento

theorem passBalance_breaks (links : List MatchLink) (breaks : List BreakDraft) (allProvider : Pool) :
    (passBalance runtime input links breaks allProvider).2 = breaks ∨
      ∃ b, BalanceBreak runtime input b ∧
        (passBalance runtime input links breaks allProvider).2 = breaks ++ [b] := by
  unfold passBalance
  dsimp only
  split
  · exact .inl rfl
  · exact .inl rfl
  · split
    · exact .inl rfl
    · split
      · exact .inl rfl
      · exact .inr ⟨_, ⟨_, _, _, rfl⟩, rfl⟩

/-- The breaks of the passes, with what the ledger and the balance add. -/
theorem reconcile_breaks : ∃ balance : List BreakDraft,
    (reconcile runtime input).breaks = (searched runtime input).breaks ++
      (searched runtime input).matched.flatMap
        (crossedBreaks runtime input.policy (indexar input.localItems) (indexar input.ledger)) ++
      ((orphans runtime (indexar input.localItems) (indexar input.ledger)
        (searched runtime input).matched).insertionSort (byId runtime)).map orphanBreak ++ balance ∧
    balance.length ≤ 1 ∧ ∀ b ∈ balance, BalanceBreak runtime input b := by
  have hcross := (passLedgerCross_eq runtime input.policy (indexar input.localItems) (indexar input.ledger)
    (searched runtime input).matched (searched runtime input).breaks).2
  rw [← crossed] at hcross
  rw [reconcile_eq]
  dsimp only
  rcases passBalance_breaks runtime input (crossed runtime input).matched (crossed runtime input).breaks
    (indexar input.provider) with h | ⟨last, hlast, h⟩
  · exact ⟨[], by rw [h, hcross, List.append_nil], Nat.zero_le 1, fun b hb => by cases hb⟩
  · exact ⟨[last], by rw [h, hcross], Nat.le_refl 1, fun b hb => List.mem_singleton.mp hb ▸ hlast⟩

/-- The breaks that the pass over the ledger opens. -/
inductive LedgerBreak : BreakDraft → Prop
  | missing (c : NormalizedItem) : LedgerBreak (missingLedgerBreak c)
  | amount (c l : NormalizedItem) : LedgerBreak (ledgerAmountBreak c l)
  | date (c l : NormalizedItem) : LedgerBreak (ledgerDateBreak input.policy c l)
  | orphan (l : NormalizedItem) : LedgerBreak (orphanBreak l)

theorem crossed_later : ∃ later : List BreakDraft,
    (crossed runtime input).breaks = (searched runtime input).breaks ++ later ∧
      ∀ b ∈ later, LedgerBreak input b := by
  have hcross := (passLedgerCross_eq runtime input.policy (indexar input.localItems) (indexar input.ledger)
    (searched runtime input).matched (searched runtime input).breaks).2
  rw [← crossed, List.append_assoc] at hcross
  refine ⟨_, hcross, fun b hb => ?_⟩
  obtain hb | hb := List.mem_append.mp hb
  · obtain ⟨m, _, hb⟩ := List.mem_flatMap.mp hb
    obtain ⟨c, _, ⟨_, rfl⟩ | ⟨l, _, hb⟩⟩ := (mem_crossedBreaks runtime).mp hb
    · exact .missing c
    · obtain ⟨_, rfl⟩ | ⟨_, rfl⟩ := mem_legBreaks.mp hb
      · exact .amount c l
      · exact .date c l
  · obtain ⟨l, _, rfl⟩ := List.mem_map.mp hb
    exact .orphan l

/-- What the passes after the matching add to its breaks. -/
theorem reconcile_later : ∃ later : List BreakDraft,
    (reconcile runtime input).breaks = (searched runtime input).breaks ++ later ∧
      ∀ b ∈ later, LedgerBreak input b ∨ BalanceBreak runtime input b := by
  obtain ⟨later, hcross, hlater⟩ := crossed_later runtime input
  rw [reconcile_eq]
  dsimp only
  rcases passBalance_breaks runtime input (crossed runtime input).matched (crossed runtime input).breaks
    (indexar input.provider) with h | ⟨last, hlast, h⟩
  · exact ⟨later, by rw [h, hcross], fun b hb => .inl (hlater b hb)⟩
  · refine ⟨later ++ [last], by rw [h, hcross, List.append_assoc], ?_⟩
    intro b hb
    obtain hb | hb := List.mem_append.mp hb
    · exact .inl (hlater b hb)
    · exact .inr (List.mem_singleton.mp hb ▸ hlast)

variable {runtime input}

theorem partitioned_start (hp : (ids input.provider).Nodup) (hc : (ids input.localItems).Nodup) :
    Partitioned input (start input) where
  providerKeyed := indexar_keyed hp
  localKeyed := indexar_keyed hc
  provider id := by
    change (ids (indexar input.provider).values).count id + 0 = _
    rw [indexar_values hp, Nat.add_zero]
  localItems id := by
    change (ids (indexar input.localItems).values).count id + 0 = _
    rw [indexar_values hc, Nat.add_zero]

theorem partitioned_passes {s : PassState} (h : Partitioned input s) :
    Partitioned input (passDeterministicFuzzy runtime input.policy
      (passStrong runtime input.policy s)) := by
  have hstrong : Partitioned input (passStrong runtime input.policy s) := by
    rw [passStrong_eq s h.providerKeyed h.localKeyed]
    exact h.apply fair_strongPlan (fits_strongPlan h.providerKeyed.nodup h.localKeyed.nodup)
  rw [passDeterministicFuzzy_eq]
  obtain ⟨hfair, hfits⟩ := fuzzyEffect_sound runtime input.policy
    hstrong.providerKeyed.nodup hstrong.localKeyed.nodup
  exact hstrong.apply hfair hfits

/-- The three passes account for each item once. -/
theorem searched_places (runtime : Runtime) (hp : (ids input.provider).Nodup)
    (hc : (ids input.localItems).Nodup) (id : String) :
    providerPlaces (searched runtime input).matched (searched runtime input).breaks id =
        (ids input.provider).count id ∧
      localPlaces (searched runtime input).matched (searched runtime input).breaks
        (searched runtime input).pendingSettlement id = (ids input.localItems).count id := by
  obtain ⟨h, hprovider, hlocal⟩ := partitioned_passWindowedFuzzy runtime input.policy input.now
    (partitioned_passes (partitioned_start hp hc))
  have hps := h.provider id
  have hcs := h.localItems id
  rw [hprovider] at hps
  rw [hlocal] at hcs
  exact ⟨(Nat.zero_add _).symm.trans hps, (Nat.zero_add _).symm.trans hcs⟩

/-- What the last passes open accounts for no item of the two sides. -/
theorem reconcile_places (runtime : Runtime) (input : ReconciliationInput) (id : String) :
    providerPlaces (reconcile runtime input).matched (reconcile runtime input).breaks id =
        providerPlaces (searched runtime input).matched (searched runtime input).breaks id ∧
      localPlaces (reconcile runtime input).matched (reconcile runtime input).breaks
          (reconcile runtime input).pendingSettlement id =
        localPlaces (searched runtime input).matched (searched runtime input).breaks
          (searched runtime input).pendingSettlement id := by
  obtain ⟨later, hbreaks, hcases⟩ := reconcile_later runtime input
  have hlater : ∀ b ∈ later, closesProvider id b = false ∧ closesLocal id b = false := by
    intro b hb
    obtain hb | ⟨_, _, _, rfl⟩ := hcases b hb
    · cases hb with
      | missing c => simp [closesProvider, closesLocal, missingLedgerBreak]
      | amount c l => simp [closesProvider, closesLocal, ledgerAmountBreak]
      | date c l => simp [closesProvider, closesLocal, ledgerDateBreak]
      | orphan l => simp [closesProvider, closesLocal, orphanBreak]
    · simp [closesProvider, closesLocal, balanceBreak]
  have hmatched : ∀ links : List MatchLink,
      (links.map (crossedLink runtime (indexar input.localItems) (indexar input.ledger))).countP
          (linksProvider id) = links.countP (linksProvider id) ∧
        (links.map (crossedLink runtime (indexar input.localItems) (indexar input.ledger))).countP
          (linksLocal id) = links.countP (linksLocal id) := by
    intro links
    rw [List.countP_map, List.countP_map]
    constructor
    · refine List.countP_congr fun link _ => ?_
      simp [linksProvider, (crossedLink_same runtime _ _ link).1]
    · refine List.countP_congr fun link _ => ?_
      simp [linksLocal, (crossedLink_same runtime _ _ link).2.1]
  have hpending : (reconcile runtime input).pendingSettlement =
      (searched runtime input).pendingSettlement := by rw [reconcile_eq]
  rw [hpending, reconcile_matched, hbreaks]
  have hzero : ∀ {p : BreakDraft → Bool} {bs : List BreakDraft}, (∀ b ∈ bs, p b = false) →
      bs.countP p = 0 := fun h => List.countP_eq_zero.mpr fun b hb => by simp [h b hb]
  constructor
  · rw [providerPlaces, providerPlaces, (hmatched _).1, List.countP_append,
      hzero fun b hb => (hlater b hb).1, Nat.add_zero]
  · rw [localPlaces, localPlaces, (hmatched _).2, List.countP_append,
      hzero fun b hb => (hlater b hb).2, Nat.add_zero]

/-- The strong keys are those of the two namespaces. -/
def StrongKey (k : String) : Prop :=
  "e2e:".toList.isPrefixOf k.toList = true ∨ "ptx:".toList.isPrefixOf k.toList = true

/-- The oldest item of the key, as the strong pass chooses it. -/
def Oldest (runtime : Runtime) (items : List NormalizedItem) (k : String) (item : NormalizedItem) : Prop :=
  escolherMaisAntigo runtime (items.filter fun i => decide (i.matchKeyStrong = some k)) = some item

/-- No item of the key is earlier than the oldest. -/
theorem Oldest.earliest {items : List NormalizedItem} {k : String} {item : NormalizedItem}
    (h : Oldest runtime items k item) :
    ∀ i ∈ items, i.matchKeyStrong = some k → item.postedAt ≤ i.postedAt := by
  have hhead : ∀ (l : List NormalizedItem) (first : NormalizedItem),
      (l.insertionSort (byInstant runtime)).head? = some first →
        ∀ i ∈ l, first.postedAt ≤ i.postedAt := by
    intro l
    induction l with
    | nil => intro first hf; cases hf
    | cons a l ih =>
      intro first hf i hi
      rw [List.insertionSort_cons] at hf
      cases hl : l.insertionSort (byInstant runtime) with
      | nil =>
        have hlen := List.length_insertionSort (byInstant runtime) l
        rw [hl] at hlen
        rw [List.length_eq_zero_iff.mp hlen.symm] at hi
        rw [hl] at hf
        rw [List.mem_singleton.mp hi, Option.some.inj hf]
      | cons b rest =>
        have hb := ih b (by rw [hl]; rfl)
        rw [hl] at hf
        by_cases hab : byInstant runtime a b
        · rw [List.orderedInsert_cons_of_le _ _ hab, List.head?_cons, Option.some.injEq] at hf
          subst hf
          have hle : a.postedAt ≤ b.postedAt := hab.elim Int.le_of_lt fun h => Int.le_of_eq h.1
          obtain rfl | hi := List.mem_cons.mp hi
          · exact Int.le_refl _
          · exact Int.le_trans hle (hb i hi)
        · rw [List.orderedInsert_of_not_le _ _ hab, List.head?_cons, Option.some.injEq] at hf
          subst hf
          obtain rfl | hi := List.mem_cons.mp hi
          · by_contra hlt
            exact hab (.inl (Int.not_le.mp hlt))
          · exact hb i hi
  intro i hi hk
  exact hhead _ item h i (List.mem_filter.mpr ⟨hi, by simpa using hk⟩)

theorem under_strong {prefixo k : String} (h : prefixo.toList.isPrefixOf k.toList = true)
    (items : List NormalizedItem) :
    under (strongUnder prefixo) k items = items.filter fun i => decide (i.matchKeyStrong = some k) := by
  refine List.filter_congr fun i _ => ?_
  rw [decide_eq_decide, strongUnder_eq_some]
  exact and_iff_left h

/-- The third pass takes nothing back. -/
theorem windowed_grows (runtime : Runtime) (policy : ReconciliationPolicy) (now : Int) (s : PassState) :
    s.matched ⊆ (passWindowedFuzzy runtime policy now s).matched ∧
      s.breaks ⊆ (passWindowedFuzzy runtime policy now s).breaks := by
  have hsteps : ∀ items : List NormalizedItem,
      s.matched ⊆ (items.foldl (windowedStep runtime policy) s).matched ∧
        s.breaks ⊆ (items.foldl (windowedStep runtime policy) s).breaks := by
    intro items
    induction items generalizing s with
    | nil => exact ⟨List.Subset.refl _, List.Subset.refl _⟩
    | cons p items ih =>
      obtain ⟨hmatched, hbreaks⟩ := ih (windowedStep runtime policy s p)
      have hstep : s.matched ⊆ (windowedStep runtime policy s p).matched ∧
          s.breaks ⊆ (windowedStep runtime policy s p).breaks := by
        rw [windowedStep_eq]
        split
        · exact ⟨List.Subset.refl _, List.Subset.refl _⟩
        · exact ⟨List.subset_append_left .., List.subset_append_left ..⟩
      exact ⟨List.Subset.trans hstep.1 hmatched, List.Subset.trans hstep.2 hbreaks⟩
  unfold passWindowedFuzzy
  dsimp only
  rw [leftover_eq]
  obtain ⟨hmatched, hbreaks⟩ := hsteps (s.provider.values.insertionSort (byId runtime))
  exact ⟨List.subset_append_of_subset_left _ hmatched, List.subset_append_of_subset_left _ hbreaks⟩

/-- What the strong pass plans stays in the plan. -/
theorem strong_stays (runtime : Runtime) (hp : (ids input.provider).Nodup)
    (hc : (ids input.localItems).Nodup) :
    (strongPlan runtime input.policy input.provider input.localItems).matched ⊆
        (searched runtime input).matched ∧
      (strongPlan runtime input.policy input.provider input.localItems).breaks ⊆
        (searched runtime input).breaks := by
  obtain ⟨hmatched, hbreaks⟩ := windowed_grows runtime input.policy input.now
    (passDeterministicFuzzy runtime input.policy (passStrong runtime input.policy (start input)))
  have hprovider : (start input).provider.values = input.provider := indexar_values hp
  have hlocal : (start input).localPool.values = input.localItems := indexar_values hc
  have hstrong : (strongPlan runtime input.policy input.provider input.localItems).matched ⊆
        (passDeterministicFuzzy runtime input.policy
          (passStrong runtime input.policy (start input))).matched ∧
      (strongPlan runtime input.policy input.provider input.localItems).breaks ⊆
        (passDeterministicFuzzy runtime input.policy
          (passStrong runtime input.policy (start input))).breaks := by
    rw [passDeterministicFuzzy_eq, passStrong_eq (start input) (indexar_keyed hp) (indexar_keyed hc),
      hprovider, hlocal]
    exact ⟨List.subset_append_of_subset_left _ (List.subset_append_right ..),
      List.subset_append_of_subset_left _ (List.subset_append_right ..)⟩
  exact ⟨List.Subset.trans hstrong.1 hmatched, List.Subset.trans hstrong.2 hbreaks⟩

/-- The strong pass plans the effect of a strong key that the provider has. -/
theorem strong_planned {k : String} (hk : StrongKey k) {p c : NormalizedItem}
    (hop : Oldest runtime input.provider k p) (hoc : Oldest runtime input.localItems k c) :
    ⟨some p.id, some c.id, none, .EXACT, 1, false⟩ ∈
        (strongPlan runtime input.policy input.provider input.localItems).matched ∧
      attributeBreaks input.policy p c ⊆
        (strongPlan runtime input.policy input.provider input.localItems).breaks := by
  have hround : ∀ prefixo : String, prefixo.toList.isPrefixOf k.toList = true →
      ⟨some p.id, some c.id, none, .EXACT, 1, false⟩ ∈
          (prefixEffect runtime input.policy prefixo input.provider input.localItems).matched ∧
        attributeBreaks input.policy p c ⊆
          (prefixEffect runtime input.policy prefixo input.provider input.localItems).breaks := by
    intro prefixo hpre
    rw [prefixEffect, Effect.join_matched, Effect.join_breaks, List.mem_flatMap]
    rw [Oldest, ← under_strong hpre] at hop hoc
    have hkey : k ∈ groupKeys (strongUnder prefixo) input.provider :=
      mem_groupKeys.mpr ⟨p, mem_under.mp (oldest_mem runtime hop)⟩
    refine ⟨⟨k, hkey, ?_⟩, fun b hb => List.mem_flatMap.mpr ⟨k, hkey, ?_⟩⟩
    · rw [strongEffect_of_oldest k hop hoc]
      exact List.mem_singleton_self _
    · rw [strongEffect_of_oldest k hop hoc]
      exact List.mem_append_right _ hb
  obtain hk | hk := hk
  · obtain ⟨hmatched, hbreaks⟩ := hround _ hk
    exact ⟨List.mem_append_left _ hmatched, List.subset_append_of_subset_left _ hbreaks⟩
  · obtain ⟨hmatched, hbreaks⟩ := hround _ hk
    exact ⟨List.mem_append_right _ (List.mem_append_left _ hmatched),
      List.subset_append_of_subset_right _ (List.subset_append_of_subset_left _ hbreaks)⟩

theorem exists_oldest_of_key (runtime : Runtime) {items : List NormalizedItem} {k : String}
    (h : ∃ i ∈ items, i.matchKeyStrong = some k) : ∃ item, Oldest runtime items k item := by
  obtain ⟨i, hi, hk⟩ := h
  exact exists_oldest runtime (List.ne_nil_of_mem (List.mem_filter.mpr ⟨hi, by simpa using hk⟩))

/-- Each item of the two sides has exactly one place in the plan, and a strong
key of both sides is matched by its oldest items. -/
theorem reconcile_partitions (runtime : Runtime) (hp : (ids input.provider).Nodup)
    (hc : (ids input.localItems).Nodup) :
    (∀ p ∈ input.provider,
      providerPlaces (reconcile runtime input).matched (reconcile runtime input).breaks p.id = 1) ∧
    (∀ c ∈ input.localItems, localPlaces (reconcile runtime input).matched
      (reconcile runtime input).breaks (reconcile runtime input).pendingSettlement c.id = 1) ∧
    ∀ k, StrongKey k → (∃ p ∈ input.provider, p.matchKeyStrong = some k) →
      (∃ c ∈ input.localItems, c.matchKeyStrong = some k) →
        ∃ p c, Oldest runtime input.provider k p ∧ Oldest runtime input.localItems k c ∧
          ∃ m ∈ (reconcile runtime input).matched, m.providerItemId = some p.id ∧
            m.localItemId = some c.id ∧ m.confidence = .EXACT := by
  refine ⟨fun p hpm => ?_, fun c hcm => ?_, fun k hk hpk hck => ?_⟩
  · rw [(reconcile_places runtime input p.id).1, (searched_places runtime hp hc p.id).1]
    exact List.count_eq_one_of_mem hp (List.mem_map_of_mem hpm)
  · rw [(reconcile_places runtime input c.id).2, (searched_places runtime hp hc c.id).2]
    exact List.count_eq_one_of_mem hc (List.mem_map_of_mem hcm)
  · obtain ⟨p, hop⟩ := exists_oldest_of_key runtime hpk
    obtain ⟨c, hoc⟩ := exists_oldest_of_key runtime hck
    refine ⟨p, c, hop, hoc, ?_⟩
    have hm := (strong_stays runtime hp hc).1 (strong_planned hk hop hoc).1
    have hsame := crossedLink_same runtime (indexar input.localItems) (indexar input.ledger)
      ⟨some p.id, some c.id, none, .EXACT, 1, false⟩
    rw [reconcile_matched]
    exact ⟨_, List.mem_map_of_mem hm, hsame.1, hsame.2.1, hsame.2.2.1⟩

section Sample

/-- Texts compared by their characters, dates that all fall on one day. -/
def textRuntime : Runtime :=
  ⟨fun a b => if a < b then -1 else if a = b then 0 else 1, fun _ => "2026-01-01"⟩

def oneDayPolicy : ReconciliationPolicy :=
  ⟨60, 0, 0, 1, 1, 100000, 5, fun _ _ => 0⟩

def paymentItem (side : ReconciliationSide) (id : String) (endToEndId providerTransactionId : Option String)
    (postedAt amountCents : Int) : NormalizedItem :=
  { id, side, accountId := "acc_1", externalId := none, endToEndId, postedAt
    effectiveDate := "2026-01-01", direction := .CREDIT, amountCents, type := "PIX", status := none
    counterpartyTaxIdIndex := none, providerTransactionId, ledgerTransactionId := none
    matchKeyStrong := strongKey endToEndId providerTransactionId
    matchKeyFuzzy := fuzzyKey (fun text => text) "acc_1" .CREDIT amountCents "2026-01-01" }

def paymentInput (provider localItems : List NormalizedItem) : ReconciliationInput :=
  { accountId := "acc_1", windowEnd := 0, now := 10000000, provider, localItems, ledger := []
    balances := ⟨none, none, none⟩, policy := oneDayPolicy }

def twiceSettled : ReconciliationInput :=
  paymentInput
    [paymentItem .PROVIDER "itm_1" (some "E1") none 20 500,
      paymentItem .PROVIDER "itm_2" (some "E1") none 10 500]
    [paymentItem .LOCAL "itm_3" (some "E1") none 15 500]

theorem reconcile_partitions_twice :
    (ids twiceSettled.provider).Nodup ∧ (ids twiceSettled.localItems).Nodup ∧
      (∀ p ∈ twiceSettled.provider, providerPlaces (reconcile textRuntime twiceSettled).matched
        (reconcile textRuntime twiceSettled).breaks p.id = 1) ∧
      ∃ p c, Oldest textRuntime twiceSettled.provider "e2e:E1" p ∧
        Oldest textRuntime twiceSettled.localItems "e2e:E1" c ∧
          ∃ m ∈ (reconcile textRuntime twiceSettled).matched, m.providerItemId = some p.id ∧
            m.localItemId = some c.id ∧ m.confidence = .EXACT := by
  have hp : (ids twiceSettled.provider).Nodup := by decide
  have hc : (ids twiceSettled.localItems).Nodup := by decide
  obtain ⟨hprovider, _, hstrong⟩ := reconcile_partitions textRuntime hp hc
  exact ⟨hp, hc, hprovider, hstrong "e2e:E1" (.inl (by decide)) (by decide) (by decide)⟩

end Sample

end BaasConnector.Reconciliation.Partition
