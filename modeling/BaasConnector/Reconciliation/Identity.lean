import BaasConnector.Reconciliation.WindowPairs

namespace BaasConnector.Reconciliation.Identity

open BaasConnector.Lib.Keyed BaasConnector.Reconciliation.Items BaasConnector.Reconciliation.Passes
open BaasConnector.Reconciliation.Motor BaasConnector.Reconciliation.Effects
open BaasConnector.Reconciliation.LedgerLegs BaasConnector.Reconciliation.Partition
open BaasConnector.Reconciliation.Windowed BaasConnector.Reconciliation.Provenance
open BaasConnector.Reconciliation.FuzzyPairs BaasConnector.Reconciliation.WindowPairs

/-- Both items carry an E2EID, and not the same one. -/
def Contradict (p c : NormalizedItem) : Prop :=
  (present p.endToEndId).isSome ∧ (present c.endToEndId).isSome ∧
    present p.endToEndId ≠ present c.endToEndId

instance (p c : NormalizedItem) : Decidable (Contradict p c) := inferInstanceAs (Decidable (_ ∧ _))

/-- No match of the plan pairs items that contradict. -/
def KeepsIdentity (runtime : Runtime) (input : ReconciliationInput) : Prop :=
  ∀ m ∈ (reconcile runtime input).matched, ∀ p ∈ (known input).provider, ∀ c ∈ (known input).localItems,
    m.providerItemId = some p.id → m.localItemId = some c.id → ¬ Contradict p c

/-- Of items that contradict no two are the oldest of a strong key, the best pair of
their bucket, or left to each other in their window. -/
def KeptApart (runtime : Runtime) (input : ReconciliationInput) : Prop :=
  ∀ p ∈ input.provider, ∀ c ∈ input.localItems, Contradict p c →
    (∀ k, ¬ Meet runtime input k p c) ∧ ¬ FuzzyPair runtime input p c ∧ ¬ WindowPair runtime input p c

variable {runtime : Runtime} {input : ReconciliationInput} {p c : NormalizedItem}

/-- The items of a match are the ones that its origin names. -/
theorem origin_pair (hp : (ids input.provider).Nodup) (hc : (ids input.localItems).Nodup) {m : MatchLink}
    (hm : MatchOrigin runtime input m) (hpm : p ∈ input.provider) (hcm : c ∈ input.localItems)
    (hmp : m.providerItemId = some p.id) (hmc : m.localItemId = some c.id) :
    (∃ k, m.confidence = .EXACT ∧ Meet runtime input k p c) ∨
      (m.confidence ≠ .EXACT ∧ Left input.provider input.localItems p ∧
        Left input.localItems input.provider c ∧
          (p.matchKeyFuzzy = c.matchKeyFuzzy ∨ (m.needsReview = true ∧
            dentroDaJanela input.policy p c = true))) := by
  have hpid : ∀ {p'}, p' ∈ input.provider → some p'.id = some p.id → p' = p := fun hm' h =>
    List.inj_on_of_nodup_map hp hm' hpm (Option.some.inj h)
  have hcid : ∀ {c'}, c' ∈ input.localItems → some c'.id = some c.id → c' = c := fun hm' h =>
    List.inj_on_of_nodup_map hc hm' hcm (Option.some.inj h)
  cases hm with
  | @strong k p' c' h =>
    have hpe := hpid (List.mem_of_mem_filter (Origins.oldest_mem runtime h.provider)) hmp
    have hce := hcid (List.mem_of_mem_filter (Origins.oldest_mem runtime h.localItem)) hmc
    subst hpe hce
    exact .inl ⟨k, rfl, h⟩
  | @fuzzy p' c' hpl hcl hkey ambiguo =>
    have hpe := hpid hpl.mem hmp
    have hce := hcid hcl.mem hmc
    subst hpe hce
    exact .inr ⟨by simp [pairLink], hpl, hcl, .inl hkey⟩
  | @window p' c' hpl hcl hw =>
    have hpe := hpid hpl.mem hmp
    have hce := hcid hcl.mem hmc
    subst hpe hce
    exact .inr ⟨by simp [windowLink], hpl, hcl, .inr ⟨rfl, hw⟩⟩

theorem known_nodup (input : ReconciliationInput) :
    (ids (known input).provider).Nodup ∧ (ids (known input).localItems).Nodup ∧
      (ids (known input).ledger).Nodup :=
  ⟨(keyed_indexar _).nodup, (keyed_indexar _).nodup, (keyed_indexar _).nodup⟩

/-- Every match comes from the search. -/
theorem matched_origin (hp : (ids input.provider).Nodup) (hc : (ids input.localItems).Nodup) {m : MatchLink}
    (hm : m ∈ (reconcile runtime input).matched) :
    ∃ m', MatchOrigin runtime input m' ∧ m.providerItemId = m'.providerItemId ∧
      m.localItemId = m'.localItemId ∧ m.confidence = m'.confidence ∧ m.needsReview = m'.needsReview := by
  rw [reconcile_matched] at hm
  obtain ⟨m', hm', rfl⟩ := List.mem_map.mp hm
  obtain ⟨hprovider, hlocal, hconfidence, _, hreview⟩ := crossedLink_same runtime
    (indexar input.localItems) (indexar input.ledger) m'
  exact ⟨m', (searched_sourced runtime hp hc).matched m' hm', hprovider, hlocal, hconfidence, hreview⟩

/-- Two items are matched when a pass puts them together. -/
theorem matched_iff (hp : (ids input.provider).Nodup) (hc : (ids input.localItems).Nodup)
    (hpm : p ∈ input.provider) (hcm : c ∈ input.localItems) :
    (∃ m ∈ (reconcile runtime input).matched, m.providerItemId = some p.id ∧ m.localItemId = some c.id) ↔
      (∃ k, Meet runtime input k p c) ∨ FuzzyPair runtime input p c ∨ WindowPair runtime input p c := by
  have hpid : ∀ {p'}, p' ∈ input.provider → some p'.id = some p.id → p' = p := fun hm' h =>
    List.inj_on_of_nodup_map hp hm' hpm (Option.some.inj h)
  have hcid : ∀ {c'}, c' ∈ input.localItems → some c'.id = some c.id → c' = c := fun hm' h =>
    List.inj_on_of_nodup_map hc hm' hcm (Option.some.inj h)
  have hcrossed := crossedLink_same runtime (indexar input.localItems) (indexar input.ledger)
  rw [reconcile_matched]
  constructor
  · rintro ⟨m, hm, hmp, hmc⟩
    obtain ⟨m', hm', rfl⟩ := List.mem_map.mp hm
    rw [(hcrossed m').1] at hmp
    rw [(hcrossed m').2.1] at hmc
    obtain ⟨k, p', c', h, rfl⟩ | ⟨p', c', h, rfl⟩ | ⟨p', c', h, rfl⟩ := (mem_searched_matched hp hc).mp hm'
    · rw [hpid (Oldest.keyed h.provider).1 hmp, hcid (Oldest.keyed h.localItem).1 hmc] at h
      exact .inl ⟨k, h⟩
    · rw [hpid h.left.1.mem hmp, hcid h.left.2.mem hmc] at h
      exact .inr (.inl h)
    · rw [hpid h.provider.1.mem hmp, hcid h.localItem.1.mem hmc] at h
      exact .inr (.inr h)
  · intro h
    have hlink : ∃ m ∈ (searched runtime input).matched, m.providerItemId = some p.id ∧
        m.localItemId = some c.id := by
      obtain ⟨k, h⟩ | h | h := h
      · exact ⟨_, (mem_searched_matched hp hc).mpr (.inl ⟨k, p, c, h, rfl⟩), rfl, rfl⟩
      · exact ⟨_, (mem_searched_matched hp hc).mpr (.inr (.inl ⟨p, c, h, rfl⟩)), rfl, rfl⟩
      · exact ⟨_, (mem_searched_matched hp hc).mpr (.inr (.inr ⟨p, c, h, rfl⟩)), rfl, rfl⟩
    obtain ⟨m, hm, hmp, hmc⟩ := hlink
    exact ⟨_, List.mem_map_of_mem hm, (hcrossed m).1.trans hmp, (hcrossed m).2.1.trans hmc⟩

/-- No match pairs items that contradict exactly when no pass puts such items together. -/
theorem keeps_identity_iff (runtime : Runtime) (input : ReconciliationInput) :
    KeepsIdentity runtime input ↔ KeptApart runtime (known input) := by
  obtain ⟨hp, hc, _⟩ := known_nodup input
  have hexists : KeepsIdentity runtime input ↔ ∀ p ∈ (known input).provider, ∀ c ∈ (known input).localItems,
      Contradict p c → ¬ ∃ m ∈ (reconcile runtime (known input)).matched, m.providerItemId = some p.id ∧
        m.localItemId = some c.id := by
    rw [KeepsIdentity, ← reconcile_known]
    constructor
    · rintro h p hpm c hcm hcontra ⟨m, hm, hmp, hmc⟩
      exact h m hm p hpm c hcm hmp hmc hcontra
    · intro h m hm p hpm c hcm hmp hmc hcontra
      exact h p hpm c hcm hcontra ⟨m, hm, hmp, hmc⟩
  rw [hexists, KeptApart]
  refine forall₂_congr fun p hpm => forall₂_congr fun c hcm => imp_congr_right fun _ => ?_
  rw [matched_iff hp hc hpm hcm, not_or, not_or, not_exists]

/-- Two different payments of one amount and day are reported as one. -/
theorem different_payments_matched : ¬ ∀ runtime input, KeepsIdentity runtime input := by
  intro h
  refine h textRuntime (paymentInput [paymentItem .PROVIDER "itm_1" (some "E1") none 10 500]
      [paymentItem .LOCAL "itm_2" (some "E2") none 15 500])
    ⟨some "itm_1", some "itm_2", none, .HIGH, 2, false⟩ (by decide)
    (paymentItem .PROVIDER "itm_1" (some "E1") none 10 500) (by decide)
    (paymentItem .LOCAL "itm_2" (some "E2") none 15 500) (by decide) rfl rfl (by decide)

end BaasConnector.Reconciliation.Identity
