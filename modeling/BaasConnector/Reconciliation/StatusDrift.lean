import BaasConnector.Reconciliation.SharedIds

namespace BaasConnector.Reconciliation.StatusDrift

open BaasConnector.Lib.Keyed BaasConnector.Taxonomy.Status BaasConnector.Connector.Records
open BaasConnector.Reconciliation.Items BaasConnector.Reconciliation.Passes
open BaasConnector.Reconciliation.Motor BaasConnector.Reconciliation.Effects
open BaasConnector.Reconciliation.Accounting BaasConnector.Reconciliation.LedgerLegs
open BaasConnector.Reconciliation.Windowed BaasConnector.Reconciliation.Normalizers
open BaasConnector.Reconciliation.Partition BaasConnector.Reconciliation.Provenance
open BaasConnector.Reconciliation.Identity BaasConnector.Reconciliation.SharedIds

/-- The run reports that the two items differ in status, and proposes to take
the provider's. -/
def DriftDetected (runtime : Runtime) (input : ReconciliationInput) (p c : NormalizedItem) : Prop :=
  ∃ b ∈ (reconcile runtime input).breaks, b.type = .STATUS_MISMATCH ∧ b.providerItemId = some p.id ∧
    b.localItemId = some c.id ∧ ∃ fromStatus toStatus,
      b.autoResolution = some (.markProviderAuthoritative c.id fromStatus toStatus)

/-- The two items are of one movement: one strong key, amount, direction and date. -/
structure SameMovement (p c : NormalizedItem) : Prop where
  keyed : p.matchKeyStrong.isSome
  strong : p.matchKeyStrong = c.matchKeyStrong
  amount : p.amountCents = c.amountCents
  direction : p.direction = c.direction
  date : p.effectiveDate = c.effectiveDate

instance (p c : NormalizedItem) : Decidable (SameMovement p c) :=
  decidable_of_iff (p.matchKeyStrong.isSome ∧ p.matchKeyStrong = c.matchKeyStrong ∧
      p.amountCents = c.amountCents ∧ p.direction = c.direction ∧ p.effectiveDate = c.effectiveDate)
    ⟨fun ⟨h, hs, ha, hd, he⟩ => ⟨h, hs, ha, hd, he⟩, fun h => ⟨h.1, h.2, h.3, h.4, h.5⟩⟩

/-- A status that the provider has not settled yet. -/
def Unsettled (status : TransactionStatus) : Prop :=
  status = .PENDING ∨ status = .PROCESSING ∨ status = .UNKNOWN

variable {runtime : Runtime} {input : ReconciliationInput} {p c : NormalizedItem} {b : BreakDraft}

theorem attributeBreaks_status (h : b ∈ attributeBreaks input.policy p c)
    (htype : b.type = .STATUS_MISMATCH) :
    ∃ ps cs, p.status = some ps ∧ c.status = some cs ∧ ps ≠ cs ∧ b = statusBreak p c ps cs := by
  unfold attributeBreaks at h
  obtain h | h := List.mem_append.mp h
  · obtain h | h := List.mem_append.mp h
    · split at h
      · rw [List.mem_singleton.mp h] at htype
        cases htype
      · cases h
    · split at h
      · next ps cs hps hcs =>
        split at h
        · next hne => exact ⟨ps, cs, hps, hcs, hne, List.mem_singleton.mp h⟩
        · cases h
      · cases h
  · split at h
    · rw [List.mem_singleton.mp h] at htype
      cases htype
    · cases h

/-- A status break is about two items of one strong key that carry statuses. -/
theorem status_origin (hp : (ids input.provider).Nodup) (hc : (ids input.localItems).Nodup)
    (hb : b ∈ (reconcile runtime input).breaks) (htype : b.type = .STATUS_MISMATCH) :
    ∃ k p c ps cs, Meet runtime input k p c ∧ p.status = some ps ∧ c.status = some cs ∧
      ps ≠ cs ∧ b = statusBreak p c ps cs := by
  obtain ⟨later, hbreaks, hlater⟩ := reconcile_later runtime input
  rw [hbreaks] at hb
  obtain hb | hb := List.mem_append.mp hb
  · cases (searched_sourced runtime hp hc).breaks b hb with
    | @compared k p c _ hmeet hb =>
      obtain ⟨ps, cs, hps, hcs, hne, rfl⟩ := attributeBreaks_status hb htype
      exact ⟨k, p, c, ps, cs, hmeet, hps, hcs, hne, rfl⟩
    | @missingLocal p _ ambiguo =>
      obtain h | h | h := missingLocalBreak_type p ambiguo <;> rw [h] at htype <;> cases htype
    | _ => cases htype
  · obtain hb | ⟨_, _, _, rfl⟩ := hlater b hb
    · cases hb <;> cases htype
    · cases htype

/-- The motor detects the drift of two items that both carry a status, when the
provider's is ahead. -/
theorem drift_detected_iff (hp : (ids input.provider).Nodup) (hc : (ids input.localItems).Nodup)
    {k : String} (hmeet : Meet runtime input k p c) :
    DriftDetected runtime input p c ↔
      ∃ ps cs, p.status = some ps ∧ c.status = some cs ∧ providerIsAhead cs ps = true := by
  constructor
  · rintro ⟨b, hb, htype, hbp, hbc, fromStatus, toStatus, hintent⟩
    obtain ⟨_, p', c', ps, cs, hmeet', hps, hcs, _, rfl⟩ := status_origin hp hc hb htype
    obtain rfl : p' = p := List.inj_on_of_nodup_map hp (Oldest.keyed hmeet'.provider).1
      (Oldest.keyed hmeet.provider).1 (Option.some.inj hbp)
    obtain rfl : c' = c := List.inj_on_of_nodup_map hc (Oldest.keyed hmeet'.localItem).1
      (Oldest.keyed hmeet.localItem).1 (Option.some.inj hbc)
    refine ⟨ps, cs, hps, hcs, ?_⟩
    by_contra hbehind
    change statusIntent c'.id cs ps = _ at hintent
    rw [statusIntent, if_neg hbehind] at hintent
    cases hintent
  · rintro ⟨ps, cs, hps, hcs, hahead⟩
    have hne : ps ≠ cs := by
      rintro rfl
      simp [providerIsAhead] at hahead
    have hbreak : statusBreak p c ps cs ∈ attributeBreaks input.policy p c := by
      unfold attributeBreaks
      rw [hps, hcs]
      dsimp only
      rw [if_pos hne]
      exact List.mem_append_left _ (List.mem_append_right _ (List.mem_singleton_self _))
    have hstays := (strong_stays runtime hp hc).2
      ((strong_planned hmeet.key hmeet.provider hmeet.localItem).2 hbreak)
    obtain ⟨later, hbreaks, _⟩ := reconcile_later runtime input
    refine ⟨statusBreak p c ps cs, ?_, rfl, rfl, rfl, cs, ps, if_pos hahead⟩
    rw [hbreaks]
    exact List.mem_append_left _ hstays

variable (runtime : Runtime) (sha256 : String → String) (account : ReconciliationInput)
  (entries : List (String × DatedEntry)) (transactions : List (String × DatedTransaction))

/-- No entry of a statement carries a status, so no drift of a transaction is
ever detected. -/
theorem statement_drift_undetected (p c : NormalizedItem) :
    ¬ DriftDetected runtime (normalizedInput sha256 account entries transactions) p c := by
  rintro ⟨b, hb, htype, _⟩
  obtain ⟨hpk, hck, _⟩ := known_nodup (normalizedInput sha256 account entries transactions)
  rw [← reconcile_known] at hb
  obtain ⟨_, q, _, ps, _, hmeet, hps, _⟩ := status_origin hpk hck hb htype
  have hknown := (Oldest.keyed hmeet.provider).1
  obtain ⟨id, hget⟩ := Table.mem_values.mp hknown
  obtain ⟨e, _, rfl⟩ := List.mem_map.mp (indexar_get hget).1
  cases hps

section Sample

/-- A payment that the statement lists and our record still has as processing. -/
def processingPix : DatedTransaction := { pixTransaction (some "E1") with status := .PROCESSING }

theorem processing_drift_undetected :
    ¬ ∀ (runtime : Runtime) (sha256 : String → String) (account : ReconciliationInput)
      (entries : List (String × DatedEntry)) (transactions : List (String × DatedTransaction)),
      ∀ e ∈ entries, ∀ t ∈ transactions, Unsettled t.2.status →
        SameMovement (fromStatementEntry sha256 e.1 e.2 account.accountId) (fromTransaction sha256 t.1 t.2) →
          DriftDetected runtime (normalizedInput sha256 account entries transactions)
            (fromStatementEntry sha256 e.1 e.2 account.accountId) (fromTransaction sha256 t.1 t.2) := by
  intro h
  obtain ⟨b, hb, htype, _⟩ := h textRuntime id (paymentInput [] []) [("itm_1", pixEntry (some "E1"))]
    [("itm_2", processingPix)] _ (List.mem_singleton_self _) _ (List.mem_singleton_self _)
    (.inr (.inl rfl)) (by decide)
  have hnone : ∀ b ∈ (reconcile textRuntime (normalizedInput id (paymentInput [] [])
      [("itm_1", pixEntry (some "E1"))] [("itm_2", processingPix)])).breaks,
      b.type ≠ .STATUS_MISMATCH := by decide
  exact hnone b hb htype

end Sample

end BaasConnector.Reconciliation.StatusDrift
