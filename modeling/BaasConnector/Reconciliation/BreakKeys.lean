import BaasConnector.Reconciliation.LedgerUse
import BaasConnector.Reconciliation.SharedIds
import BaasConnector.Reconciliation.WindowPairs

namespace BaasConnector.Reconciliation.BreakKeys

open BaasConnector.Lib.Matching BaasConnector.Lib.Greedy BaasConnector.Taxonomy.Status
open BaasConnector.Connector.Records
open BaasConnector.Reconciliation.Items BaasConnector.Reconciliation.Passes
open BaasConnector.Reconciliation.Motor BaasConnector.Reconciliation.Effects
open BaasConnector.Reconciliation.Accounting BaasConnector.Reconciliation.LedgerLegs
open BaasConnector.Reconciliation.Normalizers BaasConnector.Reconciliation.Partition
open BaasConnector.Reconciliation.Windowed BaasConnector.Reconciliation.Provenance
open BaasConnector.Reconciliation.LedgerUse BaasConnector.Reconciliation.SharedIds
open BaasConnector.Reconciliation.FuzzyPairs BaasConnector.Reconciliation.WindowPairs

/-- The dedupe keys that the breaks of the motor carry. -/
inductive KeyText
  | e2e (text : String) | bal (text : String) | pitem (text : String) | litem (text : String)

namespace KeyText

def render : KeyText → String
  | e2e text => "e2e:" ++ text
  | bal text => "bal:" ++ text
  | pitem text => "pitem:" ++ text
  | litem text => "litem:" ++ text

def tag : KeyText → Char
  | e2e _ => 'e'
  | bal _ => 'b'
  | pitem _ => 'p'
  | litem _ => 'l'

theorem render_tag (k : KeyText) : k.render.toList.head? = some k.tag := by
  cases k <;> rw [render, String.toList_append] <;> rfl

theorem render_injective {k k' : KeyText} (h : k.render = k'.render) : k = k' := by
  have htag : some k.tag = some k'.tag := by rw [← render_tag, ← render_tag, h]
  cases k <;> cases k' <;> simp only [tag, Option.some.injEq] at htag
  all_goals first
    | exact congrArg _ ((String.append_right_inj _).mp h)
    | exact absurd htag (by decide)

end KeyText

/-- The key under which the breaks of an item are stored: its E2EID, else its own id. -/
def ownKey (byItem : String → KeyText) (item : NormalizedItem) : KeyText :=
  match present item.endToEndId with
  | some e => .e2e e
  | none => byItem item.id

theorem present_id {id : String} (h : id ≠ "") : present (some id) = some id :=
  Option.filter_eq_some_iff.mpr ⟨rfl, decide_eq_true h⟩

theorem dedupeKeyFor_provider {item : NormalizedItem} (accountId : String) (h : item.id ≠ "") :
    dedupeKeyFor { endToEndId := item.endToEndId, accountId, providerItemId := some item.id } =
      (ownKey .pitem item).render := by
  unfold dedupeKeyFor ownKey
  cases present item.endToEndId with
  | some e => rfl
  | none =>
    dsimp only
    rw [present_id h]
    rfl

theorem dedupeKeyFor_local {endToEndId : Option String} {item : NormalizedItem} (accountId : String)
    (h : item.id ≠ "") (he : present endToEndId = present item.endToEndId) :
    dedupeKeyFor { endToEndId, accountId, localItemId := some item.id } = (ownKey .litem item).render := by
  unfold dedupeKeyFor ownKey
  dsimp only
  rw [he]
  cases present item.endToEndId with
  | some e => rfl
  | none =>
    dsimp only
    have hitem : present ((some item.id).orElse fun _ => none) = some item.id := present_id h
    rw [hitem]
    rfl

theorem orphanBreak_key {l : NormalizedItem} (h : l.id ≠ "") :
    (orphanBreak l).dedupeKey = (KeyText.litem l.id).render := by
  unfold orphanBreak dedupeKeyFor
  dsimp only
  have hitem : present ((none : Option String).orElse fun _ => some l.id) = some l.id := present_id h
  rw [hitem]
  rfl

theorem balanceBreak_key (runtime : Runtime) (input : ReconciliationInput)
    (abertura movimento fechamento : Int) :
    (balanceBreak runtime input abertura movimento fechamento).dedupeKey =
      (KeyText.bal input.accountId).render := rfl

variable (runtime : Runtime) (input : ReconciliationInput)

/-- The breaks about a provider item: it is a further item of a strong key, an unpaired
twin of a paired item, or no pass has found its match. -/
inductive ProviderBreak (p : NormalizedItem) : BreakDraft → Prop
  | extra {k : String} {first : NormalizedItem}
      (h : Extra runtime input.provider input.localItems k first p) :
      ProviderBreak p (duplicateBreak .DUPLICATE_PROVIDER .PROVIDER (p, sameKeyNote k first .PROVIDER))
  | twin {gemeo : NormalizedItem} (h : Left input.provider input.localItems p)
      (htwin : Twin input.provider (ProviderPaired runtime input) p)
      (hgemeo : providerGemeo runtime input p = some gemeo) :
      ProviderBreak p (duplicateBreak .DUPLICATE_PROVIDER .PROVIDER (p, surplusNote gemeo .PROVIDER))
  | missing {ambiguo : Bool} (h : ProviderEnters runtime input p)
      (hnone : ¬ ∃ c, WindowPair runtime input p c)
      (hambiguo : ambiguo = true ↔ ∃ c, LocalEnters runtime input c ∧ ¬ SpokenBefore runtime input p c ∧
        dentroDaJanela input.policy p c = true) :
      ProviderBreak p (missingLocalBreak p ambiguo)

/-- A local item that a pass matches. -/
def Matched (c : NormalizedItem) : Prop :=
  (∃ k p, Meet runtime input k p c) ∨ (∃ p, FuzzyPair runtime input p c) ∨ ∃ p, WindowPair runtime input p c

/-- The ledger item that a local item is compared with. -/
def firstLeg (c : NormalizedItem) : Option NormalizedItem :=
  (legsOf runtime (indexar input.ledger) c).head?

/-- The breaks about a local item: it is a further item of a strong key, an unpaired
twin of a paired item, not young and in no match, or matched and different. -/
inductive LocalBreak (c : NormalizedItem) : BreakDraft → Prop
  | extra {k : String} {first : NormalizedItem}
      (h : Extra runtime input.localItems input.provider k first c) :
      LocalBreak c (duplicateBreak .DUPLICATE_LOCAL .LOCAL (c, sameKeyNote k first .LOCAL))
  | twin {gemeo : NormalizedItem} (h : Left input.localItems input.provider c)
      (htwin : Twin input.localItems (LocalPaired runtime input) c)
      (hgemeo : localGemeo runtime input c = some gemeo) :
      LocalBreak c (duplicateBreak .DUPLICATE_LOCAL .LOCAL (c, surplusNote gemeo .LOCAL))
  | missing (h : LocalEnters runtime input c)
      (hfree : ¬ Spoken (dentroDaJanela input.policy) (entrants runtime input) (queue runtime input) c)
      (hold : young input.policy input.now c = false) : LocalBreak c (missingProviderBreak input.now c)
  | amount {k : String} {p : NormalizedItem} (h : Meet runtime input k p c)
      (hne : p.amountCents ≠ c.amountCents) : LocalBreak c (amountBreak input.policy p c)
  | status {k : String} {p : NormalizedItem} {ps cs : TransactionStatus} (h : Meet runtime input k p c)
      (hps : p.status = some ps) (hcs : c.status = some cs) (hne : ps ≠ cs) :
      LocalBreak c (statusBreak p c ps cs)
  | date {k : String} {p : NormalizedItem} (h : Meet runtime input k p c)
      (hne : p.effectiveDate ≠ c.effectiveDate) : LocalBreak c (dateBreak input.policy p c)
  | missingLedger (h : Matched runtime input c) (hleg : firstLeg runtime input c = none) :
      LocalBreak c (missingLedgerBreak c)
  | ledgerAmount {l : NormalizedItem} (h : Matched runtime input c)
      (hleg : firstLeg runtime input c = some l) (hne : l.amountCents ≠ c.amountCents) :
      LocalBreak c (ledgerAmountBreak c l)
  | ledgerDate {l : NormalizedItem} (h : Matched runtime input c)
      (hleg : firstLeg runtime input c = some l) (hne : l.effectiveDate ≠ c.effectiveDate) :
      LocalBreak c (ledgerDateBreak input.policy c l)

/-- A break about a provider item, a local item, an orphan of the ledger, or the
balance, of which the last breaks are. -/
inductive Subject (last : List BreakDraft) : BreakDraft → Prop
  | provider {p : NormalizedItem} {b : BreakDraft} (h : ProviderBreak runtime input p b) :
      Subject last b
  | localItem {c : NormalizedItem} {b : BreakDraft} (h : LocalBreak runtime input c b) :
      Subject last b
  | orphan {l : NormalizedItem} (hm : l ∈ input.ledger) : Subject last (orphanBreak l)
  | balance {abertura movimento fechamento : Int}
      (hm : balanceBreak runtime input abertura movimento fechamento ∈ last) :
      Subject last (balanceBreak runtime input abertura movimento fechamento)

variable {runtime input}

section Reports

variable {p c : NormalizedItem} {b : BreakDraft} (hp : (ids input.provider).Nodup)
  (hc : (ids input.localItems).Nodup)

theorem Matched.mem (h : Matched runtime input c) : c ∈ input.localItems := by
  obtain ⟨_, _, h⟩ | ⟨_, h⟩ | ⟨_, h⟩ := h
  · exact (Oldest.keyed h.localItem).1
  · exact h.left.2.mem
  · exact h.localItem.1.mem

theorem ProviderBreak.mem (h : ProviderBreak runtime input p b) : p ∈ input.provider := by
  cases h with
  | extra h => exact h.mem
  | twin h => exact h.mem
  | missing h => exact h.1.mem

theorem LocalBreak.mem (h : LocalBreak runtime input c b) : c ∈ input.localItems := by
  cases h with
  | extra h => exact h.mem
  | twin h => exact h.mem
  | missing h => exact h.1.mem
  | amount h | status h | date h => exact (Oldest.keyed h.localItem).1
  | missingLedger h | ledgerAmount h | ledgerDate h => exact h.mem

include hp hc in
/-- The local items of the matches. -/
theorem matched_iff (hne : c.id ≠ "") :
    (∃ m ∈ (searched runtime input).matched, localOf (indexar input.localItems) m = some c) ↔
      Matched runtime input c := by
  constructor
  · rintro ⟨m, hm, hlocal⟩
    obtain ⟨hlink, _, hcm⟩ := (localOf_eq_some hc).mp hlocal
    have hsame : ∀ {c'}, c' ∈ input.localItems → some c'.id = some c.id → c' = c := fun hm' h =>
      List.inj_on_of_nodup_map hc hm' hcm (Option.some.inj h)
    obtain ⟨k, p, c', h, rfl⟩ | ⟨p, c', h, rfl⟩ | ⟨p, c', h, rfl⟩ := (mem_searched_matched hp hc).mp hm
    · obtain rfl := hsame (Oldest.keyed h.localItem).1 hlink
      exact .inl ⟨k, p, h⟩
    · obtain rfl := hsame h.left.2.mem hlink
      exact .inr (.inl ⟨p, h⟩)
    · obtain rfl := hsame h.localItem.1.mem hlink
      exact .inr (.inr ⟨p, h⟩)
  · intro h
    have hlocal : ∀ m : MatchLink, m.localItemId = some c.id →
        localOf (indexar input.localItems) m = some c := fun m hlink =>
      (localOf_eq_some hc).mpr ⟨hlink, hne, h.mem⟩
    obtain ⟨k, p, h⟩ | ⟨p, h⟩ | ⟨p, h⟩ := h
    · exact ⟨_, (mem_searched_matched hp hc).mpr (.inl ⟨k, p, c, h, rfl⟩), hlocal _ rfl⟩
    · exact ⟨_, (mem_searched_matched hp hc).mpr (.inr (.inl ⟨p, c, h, rfl⟩)), hlocal _ rfl⟩
    · exact ⟨_, (mem_searched_matched hp hc).mpr (.inr (.inr ⟨p, c, h, rfl⟩)), hlocal _ rfl⟩

include hc in
theorem ambiguo_iff : decide (∃ c ∈ leftFor runtime input p, dentroDaJanela input.policy p c = true) = true ↔
    ∃ c, LocalEnters runtime input c ∧ ¬ SpokenBefore runtime input p c ∧
      dentroDaJanela input.policy p c = true := by
  rw [decide_eq_true_eq]
  simp only [mem_leftFor hc, and_assoc]

include hp hc in
/-- What the search and the ledger pass report is about an item. -/
theorem reported_subject (hb : b ∈ (searched runtime input).breaks ∨
    b ∈ (searched runtime input).matched.flatMap
      (crossedBreaks runtime input.policy (indexar input.localItems) (indexar input.ledger))) :
    (∃ p, ProviderBreak runtime input p b) ∨ ∃ c, LocalBreak runtime input c b := by
  rw [mem_searched_breaks hp hc, mem_strongPlan_breaks, mem_fuzzyPlan_breaks hp hc, List.mem_flatMap] at hb
  simp only [mem_attributeBreaks, mem_crossedBreaks, mem_legBreaks] at hb
  obtain (((⟨k, first, c, h, rfl⟩ | ⟨k, first, p, h, rfl⟩ | ⟨k, p, c, h, hb⟩) |
      ⟨c, _, h, htwin, hgemeo, rfl⟩ | ⟨p, _, h, htwin, hgemeo, rfl⟩) |
      ⟨p, h, hnone, rfl⟩ | ⟨c, h, hfree, hold, rfl⟩) |
    ⟨m, hm, c, hlocal, hb⟩ := hb
  · exact .inr ⟨c, .extra h⟩
  · exact .inl ⟨p, .extra h⟩
  · obtain ⟨hne, rfl⟩ | ⟨ps, cs, hps, hcs, hne, rfl⟩ | ⟨hne, rfl⟩ := hb
    · exact .inr ⟨c, .amount h hne⟩
    · exact .inr ⟨c, .status h hps hcs hne⟩
    · exact .inr ⟨c, .date h hne⟩
  · exact .inr ⟨c, .twin h htwin hgemeo⟩
  · exact .inl ⟨p, .twin h htwin hgemeo⟩
  · exact .inl ⟨p, .missing h hnone (ambiguo_iff hc)⟩
  · exact .inr ⟨c, .missing h hfree hold⟩
  · have hmatched := (matched_iff hp hc ((localOf_eq_some hc).mp hlocal).2.1).mp ⟨m, hm, hlocal⟩
    obtain ⟨hleg, rfl⟩ | ⟨l, hleg, ⟨hne, rfl⟩ | ⟨hne, rfl⟩⟩ := hb
    · exact .inr ⟨c, .missingLedger hmatched hleg⟩
    · exact .inr ⟨c, .ledgerAmount hmatched hleg hne⟩
    · exact .inr ⟨c, .ledgerDate hmatched hleg hne⟩

include hp hc in
theorem providerBreak_searched (h : ProviderBreak runtime input p b) : b ∈ (searched runtime input).breaks := by
  rw [mem_searched_breaks hp hc, mem_strongPlan_breaks, mem_fuzzyPlan_breaks hp hc]
  cases h with
  | extra h => exact .inl (.inl (.inr (.inl ⟨_, _, p, h, rfl⟩)))
  | twin h htwin hgemeo => exact .inl (.inr (.inr ⟨p, _, h, htwin, hgemeo, rfl⟩))
  | missing h hnone hambiguo =>
    have hsame := Bool.eq_iff_iff.mpr (hambiguo.trans (ambiguo_iff hc).symm)
    exact .inr (.inl ⟨p, h, hnone, by rw [hsame]⟩)

include hp hc in
theorem localBreak_reported (hne : c.id ≠ "") (h : LocalBreak runtime input c b) :
    b ∈ (searched runtime input).breaks ∨ b ∈ (searched runtime input).matched.flatMap
      (crossedBreaks runtime input.policy (indexar input.localItems) (indexar input.ledger)) := by
  have hcrossed : Matched runtime input c → (∀ m, localOf (indexar input.localItems) m = some c →
      b ∈ crossedBreaks runtime input.policy (indexar input.localItems) (indexar input.ledger) m) →
        b ∈ (searched runtime input).matched.flatMap
          (crossedBreaks runtime input.policy (indexar input.localItems) (indexar input.ledger)) := by
    intro hmatched hopens
    obtain ⟨m, hm, hlocal⟩ := (matched_iff hp hc hne).mpr hmatched
    exact List.mem_flatMap.mpr ⟨m, hm, hopens m hlocal⟩
  rw [mem_searched_breaks hp hc, mem_strongPlan_breaks, mem_fuzzyPlan_breaks hp hc]
  simp only [mem_attributeBreaks]
  cases h with
  | extra h => exact .inl (.inl (.inl (.inl ⟨_, _, c, h, rfl⟩)))
  | twin h htwin hgemeo => exact .inl (.inl (.inr (.inl ⟨c, _, h, htwin, hgemeo, rfl⟩)))
  | missing h hfree hold => exact .inl (.inr (.inr ⟨c, h, hfree, hold, rfl⟩))
  | amount h hne => exact .inl (.inl (.inl (.inr (.inr ⟨_, _, c, h, .inl ⟨hne, rfl⟩⟩))))
  | status h hps hcs hne =>
    exact .inl (.inl (.inl (.inr (.inr ⟨_, _, c, h, .inr (.inl ⟨_, _, hps, hcs, hne, rfl⟩)⟩))))
  | date h hne => exact .inl (.inl (.inl (.inr (.inr ⟨_, _, c, h, .inr (.inr ⟨hne, rfl⟩)⟩))))
  | missingLedger h hleg =>
    exact .inr (hcrossed h fun m hlocal => (mem_crossedBreaks runtime).mpr ⟨c, hlocal, .inl ⟨hleg, rfl⟩⟩)
  | @ledgerAmount l h hleg hne =>
    exact .inr (hcrossed h fun m hlocal => (mem_crossedBreaks runtime).mpr
      ⟨c, hlocal, .inr ⟨l, hleg, mem_legBreaks.mpr (.inl ⟨hne, rfl⟩)⟩⟩)
  | @ledgerDate l h hleg hne =>
    exact .inr (hcrossed h fun m hlocal => (mem_crossedBreaks runtime).mpr
      ⟨c, hlocal, .inr ⟨l, hleg, mem_legBreaks.mpr (.inr ⟨hne, rfl⟩)⟩⟩)

include hp hc in
/-- Every break has its subject. -/
theorem reconcile_subject (runtime : Runtime) (hl : (ids input.ledger).Nodup) :
    ∃ last : List BreakDraft, last.length ≤ 1 ∧
      ∀ b ∈ (reconcile runtime input).breaks, Subject runtime input last b := by
  obtain ⟨balance, hbreaks, hlength, hbalance⟩ := reconcile_breaks runtime input
  refine ⟨balance, hlength, fun b hb => ?_⟩
  rw [hbreaks] at hb
  obtain hb | hb := List.mem_append.mp hb
  · obtain hb | hb := List.mem_append.mp hb
    · obtain ⟨p, h⟩ | ⟨c, h⟩ := reported_subject hp hc (List.mem_append.mp hb)
      · exact .provider h
      · exact .localItem h
    · obtain ⟨l, hlm, rfl⟩ := List.mem_map.mp hb
      exact .orphan ((mem_orphans hl).mp ((List.mem_insertionSort (byId runtime)).mp hlm)).1
  · obtain ⟨_, _, _, rfl⟩ := hbalance b hb
    exact .balance hb

/-- What the search and the ledger pass report, the run reports. -/
theorem reconcile_reported (h : b ∈ (searched runtime input).breaks ∨
    b ∈ (searched runtime input).matched.flatMap
      (crossedBreaks runtime input.policy (indexar input.localItems) (indexar input.ledger))) :
    b ∈ (reconcile runtime input).breaks := by
  obtain ⟨balance, hbreaks, _⟩ := reconcile_breaks runtime input
  rw [hbreaks]
  exact List.mem_append_left _ (List.mem_append_left _ (List.mem_append.mpr h))

end Reports

section Evidence

variable {p c : NormalizedItem} {b : BreakDraft} {id : String} (hp : (ids input.provider).Nodup)
  (hc : (ids input.localItems).Nodup)

/-- The record that the evidence of a duplicate names. -/
def duplicadoDe : BreakEvidence → Option String
  | .mesmaChave _ original _ => some original
  | .excedente original _ => some original
  | _ => none

theorem searched_link {m : MatchLink} (hm : m ∈ (searched runtime input).matched) :
    ∃ m' ∈ (reconcile runtime input).matched,
      m'.providerItemId = m.providerItemId ∧ m'.localItemId = m.localItemId := by
  obtain ⟨hprovider, hlocal, _⟩ := crossedLink_same runtime (indexar input.localItems) (indexar input.ledger) m
  refine ⟨_, ?_, hprovider, hlocal⟩
  rw [reconcile_matched]
  exact List.mem_map_of_mem hm

include hp hc in
theorem ProviderBreak.original_matched (h : ProviderBreak runtime input p b)
    (he : duplicadoDe b.evidence = some id) : b.providerItemId = some p.id ∧ p.id ≠ id ∧
      ∃ m ∈ (reconcile runtime input).matched, m.providerItemId = some id := by
  cases h with
  | @extra k first h =>
    obtain rfl : first.id = id := Option.some.inj he
    obtain ⟨c, hoc⟩ := h.other
    obtain ⟨m, hm, hid, _⟩ := searched_link ((mem_searched_matched hp hc).mpr
      (.inl ⟨k, first, c, ⟨h.key, h.oldest, hoc⟩, rfl⟩))
    exact ⟨rfl, h.further, m, hm, hid⟩
  | @twin gemeo h htwin hgemeo =>
    obtain rfl : gemeo.id = id := Option.some.inj he
    obtain ⟨⟨p', c⟩, hpair, rfl⟩ := List.mem_map.mp (gemeoDe_mem hgemeo)
    have hfuzzy : FuzzyPair runtime input p' c := of_decide_eq_true (List.mem_filter.mp hpair).2
    obtain ⟨m, hm, hid, _⟩ := searched_link ((mem_searched_matched hp hc).mpr
      (.inr (.inl ⟨p', c, hfuzzy, rfl⟩)))
    refine ⟨rfl, fun hsame => htwin.1 ?_, m, hm, hid⟩
    rw [List.inj_on_of_nodup_map hp h.mem hfuzzy.left.1.mem hsame]
    exact providerPaired_iff.mpr ⟨c, hfuzzy⟩
  | missing => cases he

include hp hc in
theorem LocalBreak.original_matched (h : LocalBreak runtime input c b)
    (he : duplicadoDe b.evidence = some id) : b.localItemId = some c.id ∧ c.id ≠ id ∧
      ∃ m ∈ (reconcile runtime input).matched, m.localItemId = some id := by
  cases h with
  | @extra k first h =>
    obtain rfl : first.id = id := Option.some.inj he
    obtain ⟨p, hop⟩ := h.other
    obtain ⟨m, hm, _, hid⟩ := searched_link ((mem_searched_matched hp hc).mpr
      (.inl ⟨k, p, first, ⟨h.key, hop, h.oldest⟩, rfl⟩))
    exact ⟨rfl, h.further, m, hm, hid⟩
  | @twin gemeo h htwin hgemeo =>
    obtain rfl : gemeo.id = id := Option.some.inj he
    obtain ⟨⟨p, c'⟩, hpair, rfl⟩ := List.mem_map.mp (gemeoDe_mem hgemeo)
    have hfuzzy : FuzzyPair runtime input p c' := of_decide_eq_true (List.mem_filter.mp hpair).2
    obtain ⟨m, hm, _, hid⟩ := searched_link ((mem_searched_matched hp hc).mpr
      (.inr (.inl ⟨p, c', hfuzzy, rfl⟩)))
    refine ⟨rfl, fun hsame => htwin.1 ?_, m, hm, hid⟩
    rw [List.inj_on_of_nodup_map hc h.mem hfuzzy.left.2.mem hsame]
    exact localPaired_iff.mpr ⟨p, hfuzzy⟩
  | _ => cases he

include hp hc in
/-- The evidence of a duplicate names another record of its side, which the run has matched. -/
theorem duplicado_matched (hl : (ids input.ledger).Nodup) (hb : b ∈ (reconcile runtime input).breaks)
    (he : duplicadoDe b.evidence = some id) :
    (∃ p ∈ input.provider, b.providerItemId = some p.id ∧ p.id ≠ id ∧
      ∃ m ∈ (reconcile runtime input).matched, m.providerItemId = some id) ∨
    ∃ c ∈ input.localItems, b.localItemId = some c.id ∧ c.id ≠ id ∧
      ∃ m ∈ (reconcile runtime input).matched, m.localItemId = some id := by
  obtain ⟨_, _, hsubject⟩ := reconcile_subject hp hc runtime hl
  cases hsubject b hb with
  | provider h => exact .inl ⟨_, h.mem, h.original_matched hp hc he⟩
  | localItem h => exact .inr ⟨_, h.mem, h.original_matched hp hc he⟩
  | orphan => cases he
  | balance => cases he

example : (reconcile textRuntime twiceSettled).breaks.map (·.evidence) =
    [.mesmaChave "e2e:E1" "itm_2" .PROVIDER, .lancamento none .CREDIT 500] := by decide

end Evidence

section Facts

/-- What the normalisers promise of the items of an input. -/
structure Minted (input : ReconciliationInput) : Prop where
  distinct : (ids input.provider ++ ids input.localItems ++ ids input.ledger).Nodup
  named : ∀ id ∈ ids input.provider ++ ids input.localItems ++ ids input.ledger, id ≠ ""
  provider : ∀ p ∈ input.provider, Normalized p
  localItems : ∀ c ∈ input.localItems, Normalized c

theorem Minted.nodup (h : Minted input) : (ids input.provider).Nodup ∧ (ids input.localItems).Nodup ∧
    (ids input.ledger).Nodup := by
  obtain ⟨h, hl, _⟩ := List.nodup_append'.mp h.distinct
  obtain ⟨hp, hc, _⟩ := List.nodup_append'.mp h
  exact ⟨hp, hc, hl⟩

variable {p c l : NormalizedItem} {b b' : BreakDraft}

theorem Minted.provider_named (h : Minted input) (hp : p ∈ input.provider) : p.id ≠ "" :=
  h.named p.id (by simp only [List.mem_append]; exact .inl (.inl (List.mem_map_of_mem hp)))

theorem Minted.local_named (h : Minted input) (hc : c ∈ input.localItems) : c.id ≠ "" :=
  h.named c.id (by simp only [List.mem_append]; exact .inl (.inr (List.mem_map_of_mem hc)))

theorem Minted.ledger_named (h : Minted input) (hl : l ∈ input.ledger) : l.id ≠ "" :=
  h.named l.id (by simp only [List.mem_append]; exact .inr (List.mem_map_of_mem hl))

theorem closesProvider_missing (p : NormalizedItem) (ambiguo : Bool) :
    closesProvider p.id (missingLocalBreak p ambiguo) = true := by
  have htype := missingLocalBreak_type p ambiguo
  have hprovider : (missingLocalBreak p ambiguo).providerItemId = some p.id := rfl
  simp [closesProvider, hprovider, htype]

theorem ProviderBreak.facts (h : ProviderBreak runtime input p b) (hid : p.id ≠ "") :
    b.effectiveDate = p.effectiveDate ∧ b.dedupeKey = (ownKey .pitem p).render ∧
      closesProvider p.id b = true ∧ b.providerItemId = some p.id := by
  have hkey := fun accountId => dedupeKeyFor_provider accountId hid
  cases h with
  | extra => exact ⟨rfl, hkey _, by simp [closesProvider, duplicateBreak], rfl⟩
  | twin => exact ⟨rfl, hkey _, by simp [closesProvider, duplicateBreak], rfl⟩
  | missing => exact ⟨rfl, hkey _, closesProvider_missing p _, rfl⟩

/-- Items that meet carry one E2EID, or none. -/
theorem Meet.e2e (hminted : Minted input) {k : String} (h : Meet runtime input k p c) :
    present p.endToEndId = present c.endToEndId := by
  obtain ⟨hpm, hpk⟩ := Oldest.keyed h.provider
  obtain ⟨hcm, hck⟩ := Oldest.keyed h.localItem
  exact (hminted.provider p hpm).same_e2e (hminted.localItems c hcm) hpk hck

/-- The types of the breaks that are about a local item. -/
def localType : BreakType → Bool
  | .DUPLICATE_LOCAL | .MISSING_ON_PROVIDER | .AMOUNT_MISMATCH | .STATUS_MISMATCH | .DATE_MISMATCH
  | .MISSING_ON_LEDGER => true
  | _ => false

theorem LocalBreak.facts (hminted : Minted input) (h : LocalBreak runtime input c b) :
    b.effectiveDate = c.effectiveDate ∧ b.dedupeKey = (ownKey .litem c).render ∧
      localType b.type = true ∧ b.localItemId = some c.id := by
  have hid := hminted.local_named h.mem
  have hown := fun accountId => dedupeKeyFor_local accountId hid rfl
  cases h with
  | extra | twin | missing | missingLedger | ledgerAmount | ledgerDate => exact ⟨rfl, hown _, rfl, rfl⟩
  | amount h | status h | date h =>
    exact ⟨rfl, dedupeKeyFor_local _ hid (Meet.e2e hminted h), rfl, rfl⟩

theorem Meet.unique {k k' : String} {p' : NormalizedItem} (h : Meet runtime input k p c)
    (h' : Meet runtime input k' p' c) : p = p' := by
  have hk := h.keyed.2
  rw [h'.keyed.2, Option.some.injEq] at hk
  have ho := h'.provider
  rw [hk] at ho
  exact Option.some.inj (Eq.trans (Eq.symm h.provider) ho)

/-- No local item differs in one attribute from the provider's and from the ledger's item. -/
structure OneSource (runtime : Runtime) (input : ReconciliationInput) : Prop where
  amount : ∀ k p c l, Meet runtime input k p c → firstLeg runtime input c = some l →
    p.amountCents = c.amountCents ∨ l.amountCents = c.amountCents
  date : ∀ k p c l, Meet runtime input k p c → firstLeg runtime input c = some l →
    p.effectiveDate = c.effectiveDate ∨ l.effectiveDate = c.effectiveDate

/-- Of one type there is one break about a local item. -/
theorem LocalBreak.unique (hone : OneSource runtime input) (h : LocalBreak runtime input c b)
    (h' : LocalBreak runtime input c b') (htype : b.type = b'.type) : b = b' := by
  cases h with
  | extra h =>
    cases h' with
    | extra h' =>
      obtain ⟨rfl, rfl⟩ := h.unique h'
      rfl
    | twin hleft => exact absurd hleft h.not_left
    | _ => cases htype
  | twin hleft _ hgemeo =>
    cases h' with
    | extra h' => exact absurd hleft h'.not_left
    | twin _ _ hgemeo' => rw [Option.some.inj (hgemeo.symm.trans hgemeo')]
    | _ => cases htype
  | missing =>
    cases h' with
    | missing => rfl
    | _ => cases htype
  | amount h hne =>
    cases h' with
    | amount h' => rw [Meet.unique h h']
    | ledgerAmount _ hleg hne' => exact ((hone.amount _ _ _ _ h hleg).elim hne hne').elim
    | _ => cases htype
  | status h hps hcs =>
    cases h' with
    | status h' hps' hcs' =>
      obtain rfl := Meet.unique h h'
      rw [Option.some.inj (hps.symm.trans hps'), Option.some.inj (hcs.symm.trans hcs')]
    | _ => cases htype
  | date h hne =>
    cases h' with
    | date h' => rw [Meet.unique h h']
    | ledgerDate _ hleg hne' => exact ((hone.date _ _ _ _ h hleg).elim hne hne').elim
    | _ => cases htype
  | missingLedger =>
    cases h' with
    | missingLedger => rfl
    | _ => cases htype
  | ledgerAmount _ hleg hne =>
    cases h' with
    | amount h' hne' => exact ((hone.amount _ _ _ _ h' hleg).elim hne' hne).elim
    | ledgerAmount _ hleg' => rw [Option.some.inj (hleg.symm.trans hleg')]
    | _ => cases htype
  | ledgerDate _ hleg hne =>
    cases h' with
    | date h' hne' => exact ((hone.date _ _ _ _ h' hleg).elim hne' hne).elim
    | ledgerDate _ hleg' => rw [Option.some.inj (hleg.symm.trans hleg')]
    | _ => cases htype

/-- Of a provider item there is one break. -/
theorem ProviderBreak.unique (hp : (ids input.provider).Nodup) (hc : (ids input.localItems).Nodup)
    (hid : p.id ≠ "") (h : ProviderBreak runtime input p b) (h' : ProviderBreak runtime input p b')
    (hb : b ∈ (reconcile runtime input).breaks) (hb' : b' ∈ (reconcile runtime input).breaks) : b = b' := by
  have hplaces := (reconcile_places runtime input p.id).1
  rw [(searched_places runtime hp hc p.id).1] at hplaces
  have hcount := List.nodup_iff_count_le_one.mp hp p.id
  have hle : (reconcile runtime input).breaks.countP (closesProvider p.id) ≤ 1 := by
    unfold providerPlaces at hplaces
    omega
  exact eq_of_countP_le_one hle hb hb' (h.facts hid).2.2.1 (h'.facts hid).2.2.1

theorem ownKey_same {byItem : String → KeyText} (hinj : Function.Injective byItem)
    (hitem : ∀ e id, KeyText.e2e e ≠ byItem id) {x x' : NormalizedItem}
    (h : ownKey byItem x = ownKey byItem x') :
    ((present x.endToEndId).isSome ∧ present x.endToEndId = present x'.endToEndId) ∨ x.id = x'.id := by
  unfold ownKey at h
  cases hx : present x.endToEndId with
  | none =>
    cases hx' : present x'.endToEndId with
    | none =>
      rw [hx, hx'] at h
      exact .inr (hinj h)
    | some e' =>
      rw [hx, hx'] at h
      exact absurd h.symm (hitem _ _)
  | some e =>
    cases hx' : present x'.endToEndId with
    | none =>
      rw [hx, hx'] at h
      exact absurd h (hitem _ _)
    | some e' =>
      rw [hx, hx'] at h
      cases h
      exact .inl ⟨rfl, rfl⟩

/-- Items of one E2EID have one key. -/
theorem ownKey_of_e2e {byItem : String → KeyText} {x x' : NormalizedItem} (hsome : (present x.endToEndId).isSome)
    (h : present x.endToEndId = present x'.endToEndId) : ownKey byItem x = ownKey byItem x' := by
  obtain ⟨e, he⟩ := Option.isSome_iff_exists.mp hsome
  rw [ownKey, ownKey, ← h, he]

theorem ProviderBreak.type (h : ProviderBreak runtime input p b) :
    localType b.type = false ∧ b.type ≠ .BALANCE_MISMATCH := by
  cases h with
  | extra | twin => exact ⟨rfl, by simp [duplicateBreak]⟩
  | missing => obtain h | h | h := missingLocalBreak_type p _ <;> rw [h] <;> exact ⟨rfl, by simp⟩

end Facts

section Runs

/-- The two items have one stored key. -/
def SameKey (x x' : NormalizedItem) : Prop :=
  ((present x.endToEndId).isSome ∧ present x.endToEndId = present x'.endToEndId) ∨ x.id = x'.id

/-- Breaks stored under one type and key, and the items that they are about. -/
inductive Aligned (runtime : Runtime) (i j : ReconciliationInput) (last last' : List BreakDraft) :
    BreakDraft → BreakDraft → Prop
  | provider {p p' : NormalizedItem} {b b' : BreakDraft} (h : ProviderBreak runtime i p b)
      (h' : ProviderBreak runtime j p' b') (hsame : SameKey p p') : Aligned runtime i j last last' b b'
  | localItem {c c' : NormalizedItem} {b b' : BreakDraft} (h : LocalBreak runtime i c b)
      (h' : LocalBreak runtime j c' b') (hsame : SameKey c c') : Aligned runtime i j last last' b b'
  | orphan {l l' : NormalizedItem} (h : l ∈ i.ledger) (h' : l' ∈ j.ledger) (hsame : l.id = l'.id) :
      Aligned runtime i j last last' (orphanBreak l) (orphanBreak l')
  | balance {b b' : BreakDraft} (h : b ∈ last) (h' : b' ∈ last') (hsame : i.accountId = j.accountId) :
      Aligned runtime i j last last' b b'

variable {i j : ReconciliationInput} {last last' : List BreakDraft} {b b' : BreakDraft}

theorem ownKey_pitem_ne (p : NormalizedItem) (id : String) : ownKey .pitem p ≠ .litem id := by
  unfold ownKey
  split <;> exact fun h => by cases h

theorem Subject.aligned (hi : Minted i) (hj : Minted j) (hb : Subject runtime i last b)
    (hb' : Subject runtime j last' b') (htype : b.type = b'.type) (hkey : b.dedupeKey = b'.dedupeKey) :
    Aligned runtime i j last last' b b' := by
  cases hb with
  | provider h =>
    have hown := (h.facts (hi.provider_named h.mem)).2.1
    cases hb' with
    | provider h' =>
      rw [hown, (h'.facts (hj.provider_named h'.mem)).2.1] at hkey
      refine .provider h h' (ownKey_same (fun _ _ he => ?_) (fun _ _ he => ?_)
        (KeyText.render_injective hkey))
      · cases he; rfl
      · cases he
    | localItem h' =>
      have hlocal := (h'.facts hj).2.2.1
      rw [← htype, h.type.1] at hlocal
      cases hlocal
    | orphan h' =>
      rw [hown, orphanBreak_key (hj.ledger_named h')] at hkey
      exact absurd (KeyText.render_injective hkey) (ownKey_pitem_ne _ _)
    | balance => exact absurd htype h.type.2
  | localItem h =>
    obtain ⟨_, hown, hlocal, _⟩ := h.facts hi
    cases hb' with
    | provider h' =>
      rw [htype, h'.type.1] at hlocal
      cases hlocal
    | localItem h' =>
      rw [hown, (h'.facts hj).2.1] at hkey
      refine .localItem h h' (ownKey_same (fun _ _ he => ?_) (fun _ _ he => ?_)
        (KeyText.render_injective hkey))
      · cases he; rfl
      · cases he
    | orphan => rw [htype] at hlocal; cases hlocal
    | balance => rw [htype] at hlocal; cases hlocal
  | orphan h =>
    rw [orphanBreak_key (hi.ledger_named h)] at hkey
    cases hb' with
    | provider h' =>
      rw [(h'.facts (hj.provider_named h'.mem)).2.1] at hkey
      exact absurd (KeyText.render_injective hkey).symm (ownKey_pitem_ne _ _)
    | localItem h' =>
      have hlocal := (h'.facts hj).2.2.1
      rw [← htype] at hlocal
      cases hlocal
    | orphan h' =>
      rw [orphanBreak_key (hj.ledger_named h')] at hkey
      have hsame := KeyText.render_injective hkey
      exact .orphan h h' (by injection hsame)
    | balance => cases htype
  | balance h =>
    cases hb' with
    | provider h' => exact absurd htype.symm h'.type.2
    | localItem h' =>
      have hlocal := (h'.facts hj).2.2.1
      rw [← htype] at hlocal
      cases hlocal
    | orphan => cases htype
    | balance h' =>
      rw [balanceBreak_key, balanceBreak_key] at hkey
      have hsame := KeyText.render_injective hkey
      exact .balance h h' (by injection hsame)

/-- The type, the date and the key that a break is stored under. -/
def storedKey (b : BreakDraft) : BreakType × String × String := (b.type, b.effectiveDate, b.dedupeKey)

/-- No two items that share an E2EID and a date are reported under one type. -/
structure Separate (runtime : Runtime) (i j : ReconciliationInput) : Prop where
  provider : ∀ p p' b b', ProviderBreak runtime i p b → ProviderBreak runtime j p' b' → b.type = b'.type →
    (present p.endToEndId).isSome → present p.endToEndId = present p'.endToEndId →
      p.effectiveDate = p'.effectiveDate → p = p'
  localItem : ∀ c c' b b', LocalBreak runtime i c b → LocalBreak runtime j c' b' → b.type = b'.type →
    (present c.endToEndId).isSome → present c.endToEndId = present c'.endToEndId →
      c.effectiveDate = c'.effectiveDate → c = c'

theorem same_run (hi : Minted i) (hone : OneSource runtime i) (hsep : Separate runtime i i)
    (hb : b ∈ (reconcile runtime i).breaks) (hb' : b' ∈ (reconcile runtime i).breaks)
    (h : storedKey b = storedKey b') : b = b' := by
  obtain ⟨hp, hc, hl⟩ := hi.nodup
  obtain ⟨last, hlength, hsubject⟩ := reconcile_subject hp hc runtime hl
  simp only [storedKey, Prod.mk.injEq] at h
  obtain ⟨htype, hdate, hkey⟩ := h
  cases (hsubject b hb).aligned hi hi (hsubject b' hb') htype hkey with
  | @provider p p' _ _ h h' hsame =>
    have hnamed := hi.provider_named h.mem
    rw [(h.facts hnamed).1, (h'.facts (hi.provider_named h'.mem)).1] at hdate
    have hpp : p = p' := by
      obtain ⟨hsome, he⟩ | hid := hsame
      · exact hsep.provider p p' b b' h h' htype hsome he hdate
      · exact List.inj_on_of_nodup_map hp h.mem h'.mem hid
    subst hpp
    exact h.unique hp hc hnamed h' hb hb'
  | @localItem c c' _ _ h h' hsame =>
    rw [(h.facts hi).1, (h'.facts hi).1] at hdate
    have hcc : c = c' := by
      obtain ⟨hsome, he⟩ | hid := hsame
      · exact hsep.localItem c c' b b' h h' htype hsome he hdate
      · exact List.inj_on_of_nodup_map hc h.mem h'.mem hid
    subst hcc
    exact h.unique hone h' htype
  | orphan h h' hsame => rw [List.inj_on_of_nodup_map hl h h' hsame]
  | balance h h' _ =>
    cases last with
    | nil => cases h
    | cons first rest =>
      obtain rfl : rest = [] := List.length_eq_zero_iff.mp (by simpa using hlength)
      rw [List.mem_singleton.mp h, List.mem_singleton.mp h']

theorem two_runs (hi : Minted i) (hj : Minted j) (haccount : i.accountId ≠ j.accountId)
    (hids : ∀ id ∈ ids i.provider ++ ids i.localItems ++ ids i.ledger,
      id ∉ ids j.provider ++ ids j.localItems ++ ids j.ledger)
    (hsep : Separate runtime i j) (hb : b ∈ (reconcile runtime i).breaks)
    (hb' : b' ∈ (reconcile runtime j).breaks) : storedKey b ≠ storedKey b' := by
  intro h
  obtain ⟨hp, hc, hl⟩ := hi.nodup
  obtain ⟨hp', hc', hl'⟩ := hj.nodup
  obtain ⟨last, _, hsubject⟩ := reconcile_subject hp hc runtime hl
  obtain ⟨last', _, hsubject'⟩ := reconcile_subject hp' hc' runtime hl'
  simp only [List.mem_append, not_or] at hids
  simp only [storedKey, Prod.mk.injEq] at h
  obtain ⟨htype, hdate, hkey⟩ := h
  cases (hsubject b hb).aligned hi hj (hsubject' b' hb') htype hkey with
  | @provider p p' _ _ h h' hsame =>
    have hout := (hids p.id (.inl (.inl (List.mem_map_of_mem h.mem)))).1.1
    rw [(h.facts (hi.provider_named h.mem)).1, (h'.facts (hj.provider_named h'.mem)).1] at hdate
    obtain ⟨hsome, he⟩ | hid := hsame
    · exact hout (hsep.provider p p' b b' h h' htype hsome he hdate ▸ List.mem_map_of_mem h'.mem)
    · exact hout (hid ▸ List.mem_map_of_mem h'.mem)
  | @localItem c c' _ _ h h' hsame =>
    have hout := (hids c.id (.inl (.inr (List.mem_map_of_mem h.mem)))).1.2
    rw [(h.facts hi).1, (h'.facts hj).1] at hdate
    obtain ⟨hsome, he⟩ | hid := hsame
    · exact hout (hsep.localItem c c' b b' h h' htype hsome he hdate ▸ List.mem_map_of_mem h'.mem)
    · exact hout (hid ▸ List.mem_map_of_mem h'.mem)
  | @orphan l l' h h' hsame =>
    exact (hids l.id (.inr (List.mem_map_of_mem h))).2 (hsame ▸ List.mem_map_of_mem h')
  | balance _ _ hsame => exact haccount hsame

/-- Two runs whose breaks the database tells apart: one run, or runs of two accounts. -/
def Runs (i j : ReconciliationInput) : Prop :=
  i = j ∨ (i.accountId ≠ j.accountId ∧ ∀ id ∈ ids i.provider ++ ids i.localItems ++ ids i.ledger,
    id ∉ ids j.provider ++ ids j.localItems ++ ids j.ledger)

/-- Breaks of the runs that are stored under one key are one break of one run. -/
def ToldApart (runtime : Runtime) (i j : ReconciliationInput) : Prop :=
  ∀ b ∈ (reconcile runtime i).breaks, ∀ b' ∈ (reconcile runtime j).breaks,
    storedKey b = storedKey b' → i = j ∧ b = b'

theorem ProviderBreak.reported {p : NormalizedItem} (h : ProviderBreak runtime i p b) (hi : Minted i) :
    b ∈ (reconcile runtime i).breaks :=
  reconcile_reported (.inl (providerBreak_searched hi.nodup.1 hi.nodup.2.1 h))

theorem LocalBreak.reported {c : NormalizedItem} (h : LocalBreak runtime i c b) (hi : Minted i) :
    b ∈ (reconcile runtime i).breaks :=
  reconcile_reported (localBreak_reported hi.nodup.1 hi.nodup.2.1 (hi.local_named h.mem) h)

theorem ToldApart.separate (h : ToldApart runtime i j) (hi : Minted i) (hj : Minted j) :
    Separate runtime i j where
  provider p p' b b' hb hb' htype hsome he hdate := by
    obtain ⟨hd, hk, _, hid⟩ := hb.facts (hi.provider_named hb.mem)
    obtain ⟨hd', hk', _, hid'⟩ := hb'.facts (hj.provider_named hb'.mem)
    have hkey : storedKey b = storedKey b' := by
      rw [storedKey, storedKey, htype, hd, hd', hdate, hk, hk', ownKey_of_e2e hsome he]
    obtain ⟨rfl, rfl⟩ := h b (hb.reported hi) b' (hb'.reported hj) hkey
    exact List.inj_on_of_nodup_map hi.nodup.1 hb.mem hb'.mem (Option.some.inj (hid.symm.trans hid'))
  localItem c c' b b' hb hb' htype hsome he hdate := by
    obtain ⟨hd, hk, _, hid⟩ := hb.facts hi
    obtain ⟨hd', hk', _, hid'⟩ := hb'.facts hj
    have hkey : storedKey b = storedKey b' := by
      rw [storedKey, storedKey, htype, hd, hd', hdate, hk, hk', ownKey_of_e2e hsome he]
    obtain ⟨rfl, rfl⟩ := h b (hb.reported hi) b' (hb'.reported hj) hkey
    exact List.inj_on_of_nodup_map hi.nodup.2.1 hb.mem hb'.mem (Option.some.inj (hid.symm.trans hid'))

/-- The breaks that the strong pass and the ledger pass open about one attribute of a
local item have one stored key. -/
theorem ToldApart.oneSource (h : ToldApart runtime i i) (hi : Minted i) : OneSource runtime i := by
  have hdiffer : ∀ {c b b'}, LocalBreak runtime i c b → LocalBreak runtime i c b' → b.type = b'.type →
      b.providerItemId = b'.providerItemId := by
    intro c b b' hb hb' htype
    obtain ⟨hd, hk, _⟩ := hb.facts hi
    obtain ⟨hd', hk', _⟩ := hb'.facts hi
    have hkey : storedKey b = storedKey b' := by rw [storedKey, storedKey, htype, hd, hd', hk, hk']
    rw [(h b (hb.reported hi) b' (hb'.reported hi) hkey).2]
  refine ⟨fun k p c l hmeet hleg => ?_, fun k p c l hmeet hleg => ?_⟩
  · by_contra hne
    obtain ⟨hp, hl⟩ := not_or.mp hne
    cases hdiffer (.amount hmeet hp) (.ledgerAmount (.inl ⟨k, p, hmeet⟩) hleg hl) rfl
  · by_contra hne
    obtain ⟨hp, hl⟩ := not_or.mp hne
    cases hdiffer (.date hmeet hp) (.ledgerDate (.inl ⟨k, p, hmeet⟩) hleg hl) rfl

/-- The stored keys tell the breaks apart exactly where no two items of an E2EID and a
date are reported alike, nor one item twice, for what the provider and the ledger have. -/
theorem stored_key_injective_iff (runtime : Runtime) (hi : Minted i) (hj : Minted j) (hruns : Runs i j) :
    ToldApart runtime i j ↔ Separate runtime i j ∧ (i = j → OneSource runtime i) := by
  constructor
  · intro h
    refine ⟨h.separate hi hj, ?_⟩
    rintro rfl
    exact h.oneSource hi
  · rintro ⟨hsep, hone⟩ b hb b' hb' h
    obtain rfl | ⟨haccount, hids⟩ := hruns
    · exact ⟨rfl, same_run hi (hone rfl) hsep hb hb' h⟩
    · exact absurd h (two_runs hi hj haccount hids hsep hb hb')

end Runs

section Sample

/-- A payment that the two sides have with different amounts, and one that only the
provider has. -/
def differing : ReconciliationInput :=
  paymentInput [paymentItem .PROVIDER "itm_1" (some "E1") none 10 500,
    paymentItem .PROVIDER "itm_2" (some "E2") none 10 500] [paymentItem .LOCAL "itm_3" (some "E1") none 10 600]

theorem differing_minted : Minted differing := by
  refine ⟨by decide, by decide, fun p hp => ?_, fun c hc => ?_⟩
  · obtain rfl | hp := List.mem_cons.mp hp
    · rfl
    · rw [List.mem_singleton.mp hp]
      rfl
  · rw [List.mem_singleton.mp hc]
    rfl

theorem stored_key_injective_iff_differing :
    (reconcile textRuntime differing).breaks.map (·.type) =
        [.AMOUNT_MISMATCH, .MISSING_ON_LOCAL, .MISSING_ON_LEDGER] ∧
      ToldApart textRuntime differing differing := by
  have hprovider : ∀ p ∈ differing.provider, ∀ p' ∈ differing.provider,
      present p.endToEndId = present p'.endToEndId → p = p' := by decide
  have hlocal : ∀ c ∈ differing.localItems, ∀ c' ∈ differing.localItems, c = c' := by decide
  have hleg : ∀ c l, firstLeg textRuntime differing c ≠ some l := fun c l h =>
    absurd ((mem_legsOf textRuntime _).mp (List.mem_of_head? h)).1 List.not_mem_nil
  refine ⟨by decide, (stored_key_injective_iff textRuntime differing_minted differing_minted (.inl rfl)).mpr
    ⟨⟨?_, ?_⟩, fun _ => ⟨?_, ?_⟩⟩⟩
  · exact fun p p' _ _ h h' _ _ he _ => hprovider p h.mem p' h'.mem he
  · exact fun c c' _ _ h h' _ _ _ _ => hlocal c h.mem c' h'.mem
  · exact fun _ _ c l _ h => absurd h (hleg c l)
  · exact fun _ _ c l _ h => absurd h (hleg c l)

def inAccount (item : NormalizedItem) (accountId : String) : NormalizedItem := { item with accountId }

/-- A leg of a transfer that only the provider has, in the run of its account. -/
def transferLeg (accountId id : String) : ReconciliationInput :=
  { paymentInput [inAccount (paymentItem .PROVIDER id (some "E1") none 10 500) accountId] [] with accountId }

theorem transferLeg_minted (accountId : String) {id : String} (h : id ≠ "") :
    Minted (transferLeg accountId id) := by
  refine ⟨List.nodup_singleton id, fun id' hid => ?_, fun p hp => ?_, fun c hc => by cases hc⟩
  · rw [List.mem_singleton.mp hid]
    exact h
  · rw [List.mem_singleton.mp hp]
    rfl

/-- The two missing legs of a transfer between two accounts are stored as one break. -/
theorem transfer_legs_collide :
    ¬ ∀ (runtime : Runtime) (i j : ReconciliationInput), Minted i → Minted j → Runs i j →
      ToldApart runtime i j := by
  intro h
  have hsame := (h textRuntime (transferLeg "acc_1" "itm_1") (transferLeg "acc_2" "itm_2")
    (transferLeg_minted "acc_1" (by decide)) (transferLeg_minted "acc_2" (by decide))
    (.inr ⟨by decide, by decide⟩)
    (missingLocalBreak (inAccount (paymentItem .PROVIDER "itm_1" (some "E1") none 10 500) "acc_1") false)
    (by decide)
    (missingLocalBreak (inAccount (paymentItem .PROVIDER "itm_2" (some "E1") none 10 500) "acc_2") false)
    (by decide) (by decide)).2
  revert hsame
  decide

end Sample

end BaasConnector.Reconciliation.BreakKeys
