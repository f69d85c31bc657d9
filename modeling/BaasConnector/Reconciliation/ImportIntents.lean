import BaasConnector.Reconciliation.WindowPairs

namespace BaasConnector.Reconciliation.ImportIntents

open BaasConnector.Lib.Keyed BaasConnector.Taxonomy.Status BaasConnector.Connector.Records
open BaasConnector.Reconciliation.Items BaasConnector.Reconciliation.Passes
open BaasConnector.Reconciliation.Motor BaasConnector.Reconciliation.Effects
open BaasConnector.Reconciliation.StrongPass BaasConnector.Reconciliation.Accounting
open BaasConnector.Reconciliation.LedgerLegs BaasConnector.Reconciliation.Windowed
open BaasConnector.Reconciliation.Partition BaasConnector.Reconciliation.Provenance
open BaasConnector.Reconciliation.FuzzyPairs BaasConnector.Reconciliation.WindowPairs

variable (runtime : Runtime) (input : ReconciliationInput) (policy : ReconciliationPolicy)

/-- Same direction, and amount and date within the tolerance. -/
def Near (p c : NormalizedItem) : Prop :=
  p.direction = c.direction ∧
    ((p.amountCents - c.amountCents).natAbs : Int) ≤
      max policy.amountToleranceCents (amountTolerance c.amountCents policy.amountToleranceBasisPoints) ∧
    ((policy.businessDaysBetween c.effectiveDate p.effectiveDate).natAbs : Int) ≤
      policy.dateToleranceBusinessDays

/-- A credit that no special type keeps from being imported. -/
def Importable (p : NormalizedItem) : Prop :=
  orphanProviderBreakType p = .MISSING_ON_LOCAL ∧ p.direction = .CREDIT ∧ p.side = .PROVIDER

/-- The run proposes to import a provider item. -/
def Imported (p : NormalizedItem) : Prop :=
  ∃ b ∈ (reconcile runtime input).breaks, b.autoResolution = some (.importFromProvider p.id)

/-- A provider item is imported only if no local item that entered the windowed
pass is near it. -/
def ImportsUnmatchable (p : NormalizedItem) : Prop :=
  Imported runtime input p → ∀ c ∈ (entered runtime input).localPool.values, ¬ Near input.policy p c

/-- Where local items that come to the windowed pass are near a provider item that
may be imported, one of its account was not spoken for before. -/
def CandidateFree (p : NormalizedItem) : Prop :=
  Importable p → ProviderEnters runtime input p → (∃ c, LocalEnters runtime input c ∧ Near input.policy p c) →
    ∃ c, LocalEnters runtime input c ∧ p.accountId = c.accountId ∧ Near input.policy p c ∧
      ¬ SpokenBefore runtime input p c

variable {runtime input policy} {p c : NormalizedItem}

theorem dentroDaJanela_iff :
    dentroDaJanela policy p c = true ↔ p.accountId = c.accountId ∧ Near policy p c := by
  have hmax : (if policy.amountToleranceCents >
      amountTolerance c.amountCents policy.amountToleranceBasisPoints then policy.amountToleranceCents
      else amountTolerance c.amountCents policy.amountToleranceBasisPoints) =
        max policy.amountToleranceCents (amountTolerance c.amountCents
          policy.amountToleranceBasisPoints) := by
    split <;> omega
  unfold dentroDaJanela Near
  dsimp only
  rw [hmax]
  simp only [Bool.and_eq_true, decide_eq_true_eq, and_assoc]

/-- A break that proposes no import. -/
def Plain (b : BreakDraft) : Prop := ∀ id, b.autoResolution ≠ some (.importFromProvider id)

theorem attributeBreaks_plain {b : BreakDraft} (h : b ∈ attributeBreaks policy p c) : Plain b := by
  intro id hid
  unfold attributeBreaks at h
  obtain h | h := List.mem_append.mp h
  · obtain h | h := List.mem_append.mp h
    · split at h
      · rw [List.mem_singleton.mp h] at hid
        cases hid
      · cases h
    · split at h
      · split at h
        · rw [List.mem_singleton.mp h] at hid
          change statusIntent _ _ _ = _ at hid
          unfold statusIntent at hid
          split at hid <;> cases hid
        · cases h
      · cases h
  · split at h
    · rw [List.mem_singleton.mp h] at hid
      change timingIntent _ _ _ _ = _ at hid
      unfold timingIntent at hid
      split at hid <;> cases hid
    · cases h

theorem duplicates_plain {tipo : BreakType} {lado : ReconciliationSide}
    {ds : List (NormalizedItem × BreakNote)} {b : BreakDraft} (h : b ∈ ds.map (duplicateBreak tipo lado)) :
    Plain b := by
  obtain ⟨d, _, rfl⟩ := List.mem_map.mp h
  exact fun id hid => nomatch hid

theorem strongEffect_plain {k : String} {ps cs : List NormalizedItem} {b : BreakDraft}
    (h : b ∈ (strongEffect runtime policy k ps cs).breaks) : Plain b := by
  unfold strongEffect at h
  split at h
  · obtain h | h := List.mem_append.mp h
    · obtain h | h := List.mem_append.mp h
      · exact duplicates_plain h
      · exact duplicates_plain h
    · exact attributeBreaks_plain h
  · cases h

/-- The first two passes propose no import. -/
theorem entered_plain (hp : (ids input.provider).Nodup) (hc : (ids input.localItems).Nodup) {b : BreakDraft}
    (h : b ∈ (entered runtime input).breaks) : Plain b := by
  rw [entered_eq hp hc] at h
  obtain h | h := List.mem_append.mp h
  · obtain h | h := List.mem_append.mp h
    · cases h
    · obtain ⟨k, _, h⟩ := (mem_strongPlan_key Effect.breaks Effect.join_breaks rfl runtime input).mp h
      exact strongEffect_plain h
  · obtain ⟨k, _, h⟩ := (mem_fuzzyPlan Effect.breaks Effect.join_breaks rfl).mp h
    obtain h | h := List.mem_append.mp h
    · exact duplicates_plain h
    · exact duplicates_plain h

/-- Some break of the list proposes to import an item. -/
def ImportIn (breaks : List BreakDraft) (id : String) : Prop :=
  ∃ b ∈ breaks, b.autoResolution = some (.importFromProvider id)

theorem importIn_append {breaks breaks' : List BreakDraft} {id : String} :
    ImportIn (breaks ++ breaks') id ↔ ImportIn breaks id ∨ ImportIn breaks' id := by
  simp only [ImportIn, List.mem_append, or_and_right, exists_or]

theorem importIn_plain {breaks : List BreakDraft} (h : ∀ b ∈ breaks, Plain b) (id : String) :
    ¬ ImportIn breaks id := fun ⟨b, hb, hid⟩ => h b hb id hid

theorem missingLocal_imports {ambiguo : Bool} {id : String} :
    (missingLocalBreak p ambiguo).autoResolution = some (.importFromProvider id) ↔
      ambiguo = false ∧ Importable p ∧ p.id = id := by
  change (if orphanProviderBreakType p = .MISSING_ON_LOCAL then importIntent p ambiguo else none) = _ ↔ _
  unfold importIntent Importable
  split_ifs <;> simp_all

/-- What comes after the loop proposes no import. -/
theorem imported_searched (runtime : Runtime) (input : ReconciliationInput) (p : NormalizedItem) :
    Imported runtime input p ↔ ImportIn (((entered runtime input).provider.values.insertionSort
      (byId runtime)).foldl (windowedStep runtime input.policy) (entered runtime input)).breaks p.id := by
  obtain ⟨later, hbreaks, hcases⟩ := reconcile_later runtime input
  have hlater : ∀ b ∈ later, Plain b := by
    intro b hb id hid
    obtain hb | ⟨_, _, _, rfl⟩ := hcases b hb
    · cases hb <;> cases hid
    · cases hid
  have hmissing : ∀ items : List NormalizedItem, ∀ b ∈ items.map (missingProviderBreak input.now), Plain b := by
    intro items b hb id hid
    obtain ⟨c, _, rfl⟩ := List.mem_map.mp hb
    cases hid
  change ImportIn (reconcile runtime input).breaks p.id ↔ _
  rw [hbreaks, importIn_append, or_iff_left (importIn_plain hlater _)]
  change ImportIn (passWindowedFuzzy runtime input.policy input.now (entered runtime input)).breaks p.id ↔ _
  unfold passWindowedFuzzy
  dsimp only
  rw [leftover_eq]
  change ImportIn (_ ++ _) p.id ↔ _
  rw [importIn_append, or_iff_left (importIn_plain (hmissing _) _)]

/-- A provider item is imported when it may be, comes to the windowed pass, and the
local items of its window were all spoken for before. -/
theorem imported_iff (hp : (ids input.provider).Nodup) (hc : (ids input.localItems).Nodup)
    (hpm : p ∈ input.provider) :
    Imported runtime input p ↔ Importable p ∧ ProviderEnters runtime input p ∧
      ∀ c, LocalEnters runtime input c → dentroDaJanela input.policy p c = true →
        SpokenBefore runtime input p c := by
  have hpool := (entered_values hp hc runtime).1
  have hqueue : (entered runtime input).provider.values.insertionSort (byId runtime) = queue runtime input :=
    congrArg _ hpool
  obtain ⟨_, _, hbreaks⟩ := loop_spec hp hc runtime
  have hnone : ∀ q, (¬ ∃ c ∈ leftFor runtime input q, dentroDaJanela input.policy q c = true) ↔
      ∀ c, LocalEnters runtime input c → dentroDaJanela input.policy q c = true →
        SpokenBefore runtime input q c := by
    intro q
    simp only [mem_leftFor hc, not_exists, not_and, and_imp]
    exact forall_congr' fun c => forall_congr' fun _ => not_imp_not
  rw [imported_searched, hqueue]
  constructor
  · rintro ⟨b, hb, hid⟩
    obtain hb | ⟨q, hq, _, rfl⟩ := (hbreaks b).mp hb
    · exact absurd hid (entered_plain hp hc hb p.id)
    · obtain ⟨hambiguo, himportable, hqp⟩ := missingLocal_imports.mp hid
      obtain rfl := List.inj_on_of_nodup_map hp hq.1.mem hpm hqp
      exact ⟨himportable, hq, (hnone q).mp (of_decide_eq_false hambiguo)⟩
  · rintro ⟨himportable, hm, hspoken⟩
    have hempty := (hnone p).mpr hspoken
    refine ⟨_, (hbreaks _).mpr (.inr ⟨p, hm, ?_, rfl⟩), ?_⟩
    · rintro ⟨c, hpair⟩
      exact hpair.free (hspoken c hpair.localItem hpair.window)
    · exact missingLocal_imports.mpr ⟨decide_eq_false hempty, himportable, rfl⟩

/-- A provider item is imported only when nothing could match it, exactly when a
candidate of its window was free where there has been one. -/
theorem imports_unmatchable_iff (runtime : Runtime) (input : ReconciliationInput)
    (hp : (ids input.provider).Nodup) (hc : (ids input.localItems).Nodup) (p : NormalizedItem)
    (hpm : p ∈ input.provider) :
    ImportsUnmatchable runtime input p ↔ CandidateFree runtime input p := by
  have hentered : ∀ c, c ∈ (entered runtime input).localPool.values ↔ LocalEnters runtime input c := by
    intro c
    rw [(entered_values hp hc runtime).2]
    exact mem_entrants
  unfold ImportsUnmatchable CandidateFree
  simp only [hentered]
  rw [imported_iff hp hc hpm]
  constructor
  · intro h himportable hm ⟨c, hcm, hnear⟩
    by_contra hnone
    push Not at hnone
    refine h ⟨himportable, hm, fun c' hc' hw => ?_⟩ c hcm hnear
    obtain ⟨haccount, hnear'⟩ := dentroDaJanela_iff.mp hw
    exact hnone c' hc' haccount hnear'
  · rintro h ⟨himportable, hm, hspoken⟩ c hcm hnear
    obtain ⟨c', hc', haccount, hnear', hfree⟩ := h himportable hm ⟨c, hcm, hnear⟩
    exact hfree (hspoken c' hc' (dentroDaJanela_iff.mpr ⟨haccount, hnear'⟩))

section Sample

/-- Two credits of the provider, each a cent away from the one payment that we have. -/
def twoForOne : ReconciliationInput :=
  paymentInput
    [paymentItem .PROVIDER "itm_1" (some "E1") none 10 501,
      paymentItem .PROVIDER "itm_2" (some "E2") none 20 499]
    [paymentItem .LOCAL "itm_3" none none 15 500]

/-- The same two credits, and a second payment that only the later one is near. -/
def twoForTwo : ReconciliationInput :=
  { twoForOne with
    localItems := twoForOne.localItems ++ [paymentItem .LOCAL "itm_4" none none 25 498] }

theorem imports_unmatchable_second :
    ImportsUnmatchable textRuntime twoForTwo (paymentItem .PROVIDER "itm_2" (some "E2") none 20 499) := by
  refine (imports_unmatchable_iff textRuntime twoForTwo (by decide) (by decide) _ (by decide)).mpr ?_
  intro _ _ _
  have hleft : paymentItem .LOCAL "itm_4" none none 25 498 ∈
      leftFor textRuntime twoForTwo (paymentItem .PROVIDER "itm_2" (some "E2") none 20 499) := by decide
  obtain ⟨henters, hfree⟩ := (mem_leftFor (by decide)).mp hleft
  exact ⟨_, henters, rfl, ⟨rfl, by decide, by decide⟩, hfree⟩

/-- The second credit is imported, because the first has taken the payment that
is near both. -/
theorem second_credit_imported :
    ¬ ∀ (runtime : Runtime) (input : ReconciliationInput), (ids input.provider).Nodup →
      (ids input.localItems).Nodup → ∀ p ∈ input.provider, ImportsUnmatchable runtime input p := by
  intro h
  refine h textRuntime twoForOne (by decide) (by decide)
    (paymentItem .PROVIDER "itm_2" (some "E2") none 20 499) (by decide) ?_
    (paymentItem .LOCAL "itm_3" none none 15 500) (by decide) ⟨rfl, by decide, by decide⟩
  have himported : ∃ b ∈ (reconcile textRuntime twoForOne).breaks,
      b.autoResolution = some (.importFromProvider "itm_2") := by decide
  exact himported

end Sample

end BaasConnector.Reconciliation.ImportIntents
