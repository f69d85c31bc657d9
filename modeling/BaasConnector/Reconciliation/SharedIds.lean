import BaasConnector.Reconciliation.Identity

namespace BaasConnector.Reconciliation.SharedIds

open BaasConnector.Lib.Greedy BaasConnector.Lib.Keyed
open BaasConnector.Reconciliation.Items BaasConnector.Reconciliation.Passes
open BaasConnector.Reconciliation.Motor BaasConnector.Reconciliation.Effects
open BaasConnector.Reconciliation.LedgerLegs BaasConnector.Reconciliation.Normalizers
open BaasConnector.Reconciliation.Partition BaasConnector.Reconciliation.Provenance
open BaasConnector.Reconciliation.Identity

/-- The input that the entries and the transactions of an account are normalised to,
each under the id minted for it. -/
def normalizedInput (sha256 : String → String) (account : ReconciliationInput)
    (entries : List (String × DatedEntry)) (transactions : List (String × DatedTransaction)) :
    ReconciliationInput :=
  { account with
    provider := entries.map fun e => fromStatementEntry sha256 e.1 e.2 account.accountId
    localItems := transactions.map fun t => fromTransaction sha256 t.1 t.2 }

/-- The strong key of an item is that of its ids. -/
def Normalized (item : NormalizedItem) : Prop :=
  item.matchKeyStrong = strongKey item.endToEndId item.providerTransactionId

/-- Two items carry one provider's id, each alone on its side, and do not contradict. -/
structure SharesId (input : ReconciliationInput) (p c : NormalizedItem) : Prop where
  provider : p ∈ input.provider
  localItem : c ∈ input.localItems
  carried : (present p.providerTransactionId).isSome
  shared : present p.providerTransactionId = present c.providerTransactionId
  aloneProvider : ∀ p' ∈ input.provider,
    present p'.providerTransactionId = present p.providerTransactionId → p' = p
  aloneLocal : ∀ c' ∈ input.localItems,
    present c'.providerTransactionId = present c.providerTransactionId → c' = c
  agree : ¬ Contradict p c

def MatchedExactly (runtime : Runtime) (input : ReconciliationInput) (p c : NormalizedItem) : Prop :=
  ∃ m ∈ (reconcile runtime input).matched, m.providerItemId = some p.id ∧ m.localItemId = some c.id ∧
    m.confidence = .EXACT

/-- Neither item carries an E2EID, or both do and each is the oldest of its side under it. -/
def SameFooting (runtime : Runtime) (input : ReconciliationInput) (p c : NormalizedItem) : Prop :=
  (present p.endToEndId = none ∧ present c.endToEndId = none) ∨
    ∃ e, present p.endToEndId = some e ∧ present c.endToEndId = some e ∧
      Oldest runtime input.provider ("e2e:" ++ e) p ∧ Oldest runtime input.localItems ("e2e:" ++ e) c

variable {runtime : Runtime} {input : ReconciliationInput} {p c : NormalizedItem}

theorem present_cases (text : Option String) : present text = none ∨ ∃ k, present text = some k := by
  cases present text with
  | none => exact .inl rfl
  | some k => exact .inr ⟨k, rfl⟩

theorem Normalized.e2e {item : NormalizedItem} {k : String} (h : Normalized item)
    (hk : present item.endToEndId = some k) : item.matchKeyStrong = some ("e2e:" ++ k) :=
  Eq.trans h (strongKey_e2e hk)

theorem Normalized.ptx {item : NormalizedItem} (h : Normalized item)
    (hk : present item.endToEndId = none) :
    item.matchKeyStrong = (present item.providerTransactionId).map ("ptx:" ++ ·) :=
  Eq.trans h (strongKey_ptx hk)

/-- Items of one strong key carry one E2EID, or none. -/
theorem Normalized.same_e2e {a b : NormalizedItem} {k : String} (ha : Normalized a) (hb : Normalized b)
    (hak : a.matchKeyStrong = some k) (hbk : b.matchKeyStrong = some k) :
    present a.endToEndId = present b.endToEndId := by
  obtain hae | ⟨e, hae⟩ := present_cases a.endToEndId <;>
    obtain hbe | ⟨e', hbe⟩ := present_cases b.endToEndId
  · rw [hae, hbe]
  · rw [ha.ptx hae, Option.map_eq_some_iff] at hak
    rw [hb.e2e hbe, Option.some.injEq] at hbk
    obtain ⟨x, _, hx⟩ := hak
    exact absurd (hbk.trans hx.symm) (e2e_ne_ptx _ _)
  · rw [ha.e2e hae, Option.some.injEq] at hak
    rw [hb.ptx hbe, Option.map_eq_some_iff] at hbk
    obtain ⟨x, _, hx⟩ := hbk
    exact absurd (hak.trans hx.symm) (e2e_ne_ptx _ _)
  · rw [ha.e2e hae, Option.some.injEq] at hak
    rw [hb.e2e hbe, Option.some.injEq] at hbk
    rw [hae, hbe, e2e_injective (hak.trans hbk.symm)]

/-- An item alone under a key is its oldest. -/
theorem oldest_alone {items : List NormalizedItem} (hnodup : (ids items).Nodup) {k : String}
    {item : NormalizedItem} (hm : item ∈ items) (hk : item.matchKeyStrong = some k)
    (halone : ∀ i ∈ items, i.matchKeyStrong = some k → i = item) : Oldest runtime items k item := by
  have hone : (items.filter fun i => decide (i.matchKeyStrong = some k)) = [item] :=
    (filter_eq_singleton (hnodup.of_map _)).mpr
      ⟨hm, decide_eq_true hk, fun i hi hik => halone i hi (of_decide_eq_true hik)⟩
  rw [Oldest, hone]
  rfl

theorem meet_matched (hp : (ids input.provider).Nodup) (hc : (ids input.localItems).Nodup) {k : String}
    (h : Meet runtime input k p c) : MatchedExactly runtime input p c := by
  have hm := (strong_stays runtime hp hc).1 (strong_planned h.key h.provider h.localItem).1
  obtain ⟨hprovider, hlocal, hconfidence, _⟩ := crossedLink_same runtime (indexar input.localItems)
    (indexar input.ledger) ⟨some p.id, some c.id, none, .EXACT, 1, false⟩
  refine ⟨_, ?_, hprovider, hlocal, hconfidence⟩
  rw [reconcile_matched]
  exact List.mem_map_of_mem hm

/-- An exact match is one of the strong pass. -/
theorem matched_meet (hp : (ids input.provider).Nodup) (hc : (ids input.localItems).Nodup)
    (hpm : p ∈ input.provider) (hcm : c ∈ input.localItems) (h : MatchedExactly runtime input p c) :
    ∃ k, Meet runtime input k p c := by
  obtain ⟨m, hm, hmp, hmc, hexact⟩ := h
  obtain ⟨m', horigin, hprovider, hlocal, hconfidence, _⟩ := matched_origin hp hc hm
  rw [hprovider] at hmp
  rw [hlocal] at hmc
  rw [hconfidence] at hexact
  obtain ⟨k, _, hmeet⟩ | ⟨hother, _⟩ := origin_pair hp hc horigin hpm hcm hmp hmc
  · exact ⟨k, hmeet⟩
  · exact absurd hexact hother

theorem shared_id_iff (hp : (ids input.provider).Nodup) (hc : (ids input.localItems).Nodup)
    (hnp : ∀ p ∈ input.provider, Normalized p) (hnc : ∀ c ∈ input.localItems, Normalized c)
    (h : SharesId input p c) :
    MatchedExactly runtime input p c ↔ SameFooting runtime input p c := by
  have hpn := hnp p h.provider
  have hcn := hnc c h.localItem
  constructor
  · intro hmatched
    obtain ⟨k, hmeet⟩ := matched_meet hp hc h.provider h.localItem hmatched
    obtain ⟨hpk, hck⟩ := hmeet.keyed
    have hsame := hpn.same_e2e hcn hpk hck
    obtain hpe | ⟨e, hpe⟩ := present_cases p.endToEndId
    · exact .inl ⟨hpe, hsame.symm.trans hpe⟩
    · rw [hpn.e2e hpe, Option.some.injEq] at hpk
      subst hpk
      exact .inr ⟨e, hpe, hsame.symm.trans hpe, hmeet.provider, hmeet.localItem⟩
  · rintro (⟨hpe, hce⟩ | ⟨e, _, _, hop, hoc⟩)
    · obtain ⟨x, hx⟩ := Option.isSome_iff_exists.mp h.carried
      have hkey : ∀ {item : NormalizedItem}, Normalized item → present item.endToEndId = none →
          present item.providerTransactionId = some x → item.matchKeyStrong = some ("ptx:" ++ x) := by
        intro item hn he hxi
        rw [hn.ptx he, hxi]
        rfl
      have hptx : ∀ {item : NormalizedItem}, Normalized item → item.matchKeyStrong = some ("ptx:" ++ x) →
          present item.providerTransactionId = some x := by
        intro item hn hk
        obtain he | ⟨e, he⟩ := present_cases item.endToEndId
        · rw [hn.ptx he, Option.map_eq_some_iff] at hk
          obtain ⟨y, hy, hyx⟩ := hk
          rw [hy, ptx_injective hyx]
        · rw [hn.e2e he, Option.some.injEq] at hk
          exact absurd hk (e2e_ne_ptx _ _)
      refine meet_matched hp hc ⟨.inr (ptx_isPrefixOf x), ?_, ?_⟩
      · exact oldest_alone hp h.provider (hkey hpn hpe hx) fun i hi hik =>
          h.aloneProvider i hi ((hptx (hnp i hi) hik).trans hx.symm)
      · have hxc := h.shared.symm.trans hx
        exact oldest_alone hc h.localItem (hkey hcn hce hxc) fun i hi hik =>
          h.aloneLocal i hi ((hptx (hnc i hi) hik).trans hxc.symm)
    · exact meet_matched hp hc ⟨.inl (e2e_isPrefixOf e), hop, hoc⟩

/-- A transaction and an entry that share a provider's id are matched exactly when
they stand on the same footing. -/
theorem shared_id_matched_iff (runtime : Runtime) (sha256 : String → String) (account : ReconciliationInput)
    (entries : List (String × DatedEntry)) (transactions : List (String × DatedTransaction))
    (he : (entries.map Prod.fst).Nodup) (ht : (transactions.map Prod.fst).Nodup)
    (h : SharesId (normalizedInput sha256 account entries transactions) p c) :
    MatchedExactly runtime (normalizedInput sha256 account entries transactions) p c ↔
      SameFooting runtime (normalizedInput sha256 account entries transactions) p c := by
  have hp : (ids (normalizedInput sha256 account entries transactions).provider).Nodup := by
    rw [normalizedInput, ids, List.map_map]
    exact he
  have hc : (ids (normalizedInput sha256 account entries transactions).localItems).Nodup := by
    rw [normalizedInput, ids, List.map_map]
    exact ht
  refine shared_id_iff hp hc (fun p hpm => ?_) (fun c hcm => ?_) h
  · obtain ⟨e, _, rfl⟩ := List.mem_map.mp hpm
    rfl
  · obtain ⟨t, _, rfl⟩ := List.mem_map.mp hcm
    rfl

section Sample

def pixEntry (endToEndId : Option String) : DatedEntry :=
  { providerEntryId := "sta_1", postedAt := 10, direction := .credit, amountCents := 500, endToEndId
    providerTransactionId := some "ptx_1", effectiveDate := "2026-01-01", type := "PIX" }

def pixTransaction (endToEndId : Option String) : DatedTransaction :=
  { id := "txn_1", accountId := "acc_1", parentTransactionId := none, type := .PIX_IN
    direction := .CREDIT, status := .SETTLED, lastEventAt := none, amountCents := 500
    refundedAmountCents := 0, provider := "prv", providerConnectionId := "con_1"
    providerTransactionId := some "ptx_1", externalId := none, idempotencyKey := none
    operationId := none, failureCode := none, providerFailureCode := none, failureMessage := none
    requestedAt := 5, settledAt := some 10, failedAt := none, ledgerPendingTransactionId := none
    ledgerPostedTransactionId := none, endToEndId, effectiveDate := "2026-01-01"
    counterpartyTaxIdIndex := none }

/-- One entry and one transaction of one provider's id. -/
def pixInput (entryE2e transactionE2e : Option String) : ReconciliationInput :=
  normalizedInput id (paymentInput [] []) [("itm_1", pixEntry entryE2e)]
    [("itm_2", pixTransaction transactionE2e)]

def pixProvider (endToEndId : Option String) : NormalizedItem :=
  fromStatementEntry id "itm_1" (pixEntry endToEndId) "acc_1"

def pixLocal (endToEndId : Option String) : NormalizedItem :=
  fromTransaction id "itm_2" (pixTransaction endToEndId)

theorem pix_shares {entryE2e transactionE2e : Option String}
    (h : ¬ Contradict (pixProvider entryE2e) (pixLocal transactionE2e)) :
    SharesId (pixInput entryE2e transactionE2e) (pixProvider entryE2e) (pixLocal transactionE2e) where
  provider := List.mem_singleton_self _
  localItem := List.mem_singleton_self _
  carried := rfl
  shared := rfl
  aloneProvider _ hm _ := List.mem_singleton.mp hm
  aloneLocal _ hm _ := List.mem_singleton.mp hm
  agree := h

theorem shared_id_matched_iff_plain :
    MatchedExactly textRuntime (pixInput none none) (pixProvider none) (pixLocal none) := by
  have hiff := shared_id_matched_iff textRuntime id (paymentInput [] []) [("itm_1", pixEntry none)]
    [("itm_2", pixTransaction none)] (List.nodup_singleton _) (List.nodup_singleton _)
    (pix_shares (by decide))
  exact hiff.mpr (.inl ⟨rfl, rfl⟩)

/-- An E2EID that only the transaction carries hides the id that both carry. -/
theorem one_sided_e2e_not_exact :
    ¬ ∀ (runtime : Runtime) (sha256 : String → String) (account : ReconciliationInput)
      (entries : List (String × DatedEntry)) (transactions : List (String × DatedTransaction))
      (p c : NormalizedItem), (entries.map Prod.fst).Nodup → (transactions.map Prod.fst).Nodup →
      SharesId (normalizedInput sha256 account entries transactions) p c →
        MatchedExactly runtime (normalizedInput sha256 account entries transactions) p c := by
  intro h
  obtain ⟨m, hm, _, _, hexact⟩ := h textRuntime id (paymentInput [] []) [("itm_1", pixEntry none)]
    [("itm_2", pixTransaction (some "E1"))] _ _ (List.nodup_singleton _) (List.nodup_singleton _)
    (pix_shares (by decide))
  have hnone : ∀ m ∈ (reconcile textRuntime (pixInput none (some "E1"))).matched,
      m.confidence ≠ .EXACT := by decide
  exact hnone m hm hexact

end Sample

end BaasConnector.Reconciliation.SharedIds
