import Mathlib
import BaasConnector.Lib.Matching
import BaasConnector.Reconciliation.LedgerUse

namespace BaasConnector.Reconciliation.EqualMoney

open BaasConnector.Lib.Keyed BaasConnector.Lib.Matching BaasConnector.Taxonomy.Status
open BaasConnector.Connector.Records
open BaasConnector.Reconciliation.Items BaasConnector.Reconciliation.Passes
open BaasConnector.Reconciliation.Motor BaasConnector.Reconciliation.Effects
open BaasConnector.Reconciliation.Accounting BaasConnector.Reconciliation.LedgerLegs
open BaasConnector.Reconciliation.Partition BaasConnector.Reconciliation.Provenance
open BaasConnector.Reconciliation.Identity BaasConnector.Reconciliation.LedgerUse

def signedSum (items : List NormalizedItem) : Int := (items.map signed).sum

/-- Nothing is reported, pending or to be reviewed. -/
structure Clean (result : ReconciliationResult) : Prop where
  breaks : result.breaks = []
  pendingSettlement : result.pendingSettlement = []
  reviewed : ∀ m ∈ result.matched, m.needsReview = false

/-- At most one ledger item of each ledger transaction; an item that names none
stands for itself. -/
def OneLeg (ledger : List NormalizedItem) : Prop :=
  ∀ l ∈ ledger, ∀ l' ∈ ledger, ledgerKey l = ledgerKey l' → l = l'

/-- No two local items name one ledger transaction. -/
def OneEach (localItems : List NormalizedItem) : Prop :=
  ∀ c ∈ localItems, ∀ c' ∈ localItems, (present c.ledgerTransactionId).isSome →
    present c.ledgerTransactionId = present c'.ledgerTransactionId → c = c'

/-- What the passes put together agrees in what they do not compare. -/
structure Comparable (runtime : Runtime) (input : ReconciliationInput) : Prop where
  strong : ∀ k p c, Meet runtime input k p c → p.direction = c.direction
  bucket : ∀ p c, Left input.provider input.localItems p → Left input.localItems input.provider c →
    p.matchKeyFuzzy = c.matchKeyFuzzy → p.direction = c.direction ∧ p.amountCents = c.amountCents
  legs : ∀ c ∈ input.localItems, ∀ l ∈ input.ledger, Names c l → c.direction = l.direction
  oneEach : OneEach input.localItems
  named : ∀ c ∈ input.localItems, c.id ≠ ""

variable {runtime : Runtime} {input : ReconciliationInput} {p c l : NormalizedItem}

theorem signed_congr {a b : NormalizedItem} (hd : a.direction = b.direction)
    (ha : a.amountCents = b.amountCents) : signed a = signed b := by
  rw [signed, signed, hd, ha]

/-- The two items are the legs of one match. -/
def Paired (runtime : Runtime) (input : ReconciliationInput) (p c : NormalizedItem) : Prop :=
  ∃ m ∈ (reconcile runtime input).matched, m.providerItemId = some p.id ∧ m.localItemId = some c.id

section Pairs

variable (hp : (ids input.provider).Nodup) (hc : (ids input.localItems).Nodup)
  (hclean : Clean (reconcile runtime input))
include hp hc hclean

/-- Each item of the two sides is in one match. -/
theorem clean_counts (id : String) :
    (reconcile runtime input).matched.countP (linksProvider id) = (ids input.provider).count id ∧
      (reconcile runtime input).matched.countP (linksLocal id) = (ids input.localItems).count id := by
  obtain ⟨hprovider, hlocal⟩ := reconcile_places runtime input id
  obtain ⟨hprovider', hlocal'⟩ := searched_places runtime hp hc id
  rw [providerPlaces, hclean.breaks, List.countP_nil, Nat.add_zero] at hprovider
  rw [localPlaces, hclean.breaks, hclean.pendingSettlement, List.countP_nil, List.count_nil,
    Nat.add_zero] at hlocal
  exact ⟨hprovider.trans hprovider', hlocal.trans hlocal'⟩

omit hclean in
theorem origin_items {m : MatchLink} (hm : m ∈ (reconcile runtime input).matched) :
    ∃ p ∈ input.provider, ∃ c ∈ input.localItems, m.providerItemId = some p.id ∧
      m.localItemId = some c.id := by
  obtain ⟨m', horigin, hmp, hmc, _⟩ := matched_origin hp hc hm
  rw [hmp, hmc]
  cases horigin with
  | strong h => exact ⟨_, (Oldest.keyed h.provider).1, _, (Oldest.keyed h.localItem).1, rfl, rfl⟩
  | fuzzy hpl hcl => exact ⟨_, hpl.mem, _, hcl.mem, rfl, rfl⟩
  | window hpl hcl => exact ⟨_, hpl.mem, _, hcl.mem, rfl, rfl⟩

theorem clean_partners : Partners (Paired runtime input) input.provider input.localItems where
  left p hpm := by
    have hcount := (clean_counts hp hc hclean p.id).1
    rw [List.count_eq_one_of_mem hp (List.mem_map_of_mem hpm)] at hcount
    obtain ⟨m, hm, hlink⟩ := List.countP_pos_iff.mp (Nat.lt_of_lt_of_eq Nat.one_pos hcount.symm)
    obtain ⟨_, _, c, hcm, _, hmc⟩ := origin_items hp hc hm
    exact ⟨c, hcm, m, hm, of_decide_eq_true hlink, hmc⟩
  right c hcm := by
    have hcount := (clean_counts hp hc hclean c.id).2
    rw [List.count_eq_one_of_mem hc (List.mem_map_of_mem hcm)] at hcount
    obtain ⟨m, hm, hlink⟩ := List.countP_pos_iff.mp (Nat.lt_of_lt_of_eq Nat.one_pos hcount.symm)
    obtain ⟨p, hpm, _, _, hmp, _⟩ := origin_items hp hc hm
    exact ⟨p, hpm, m, hm, hmp, of_decide_eq_true hlink⟩
  functional p _ c hcm c' hcm' := by
    rintro ⟨m, hm, hmp, hmc⟩ ⟨m', hm', hmp', hmc'⟩
    have hcount := (clean_counts hp hc hclean p.id).1
    have hle : (ids input.provider).count p.id ≤ 1 := List.nodup_iff_count_le_one.mp hp p.id
    have hsame : m = m' := eq_of_countP_le_one (hcount ▸ hle) hm hm' (decide_eq_true hmp)
      (decide_eq_true hmp')
    rw [← hsame, hmc] at hmc'
    exact List.inj_on_of_nodup_map hc hcm hcm' (Option.some.inj hmc')
  injective p hpm p' hpm' c _ := by
    rintro ⟨m, hm, hmp, hmc⟩ ⟨m', hm', hmp', hmc'⟩
    have hcount := (clean_counts hp hc hclean c.id).2
    have hle : (ids input.localItems).count c.id ≤ 1 := List.nodup_iff_count_le_one.mp hc c.id
    have hsame : m = m' := eq_of_countP_le_one (hcount ▸ hle) hm hm' (decide_eq_true hmc)
      (decide_eq_true hmc')
    rw [← hsame, hmp] at hmp'
    exact List.inj_on_of_nodup_map hp hpm hpm' (Option.some.inj hmp')

omit hp hc in
theorem clean_searched : (searched runtime input).breaks = [] ∧
    (∀ m ∈ (searched runtime input).matched,
      crossedBreaks runtime input.policy (indexar input.localItems) (indexar input.ledger) m = []) ∧
    orphans runtime (indexar input.localItems) (indexar input.ledger)
    (searched runtime input).matched = [] := by
  obtain ⟨balance, hbreaks, _⟩ := reconcile_breaks runtime input
  rw [hclean.breaks] at hbreaks
  obtain ⟨hbreaks, _⟩ := List.append_eq_nil_iff.mp hbreaks.symm
  obtain ⟨hbreaks, horphans⟩ := List.append_eq_nil_iff.mp hbreaks
  obtain ⟨hsearched, hcrossed⟩ := List.append_eq_nil_iff.mp hbreaks
  refine ⟨hsearched, List.flatMap_eq_nil_iff.mp hcrossed, ?_⟩
  have hperm := List.perm_insertionSort (byId runtime) (orphans runtime (indexar input.localItems)
    (indexar input.ledger) (searched runtime input).matched)
  rw [List.map_eq_nil_iff.mp horphans] at hperm
  exact List.nil_perm.mp hperm

/-- The legs of a match agree in amount, where a comparison of the strong pass or
the bucket says so, and in direction. -/
theorem paired_signed (hcmp : Comparable runtime input) (hpm : p ∈ input.provider)
    (hcm : c ∈ input.localItems)
    (h : Paired runtime input p c) : signed p = signed c := by
  obtain ⟨m, hm, hmp, hmc⟩ := h
  have hreviewed := hclean.reviewed m hm
  obtain ⟨m', horigin, hmp', hmc', _, hreview⟩ := matched_origin hp hc hm
  rw [hmp'] at hmp
  rw [hmc'] at hmc
  rw [hreview] at hreviewed
  obtain ⟨k, _, hmeet⟩ | ⟨_, hpl, hcl, hkey | ⟨hrev, _⟩⟩ := origin_pair hp hc horigin hpm hcm hmp hmc
  · refine signed_congr (hcmp.strong k p c hmeet) ?_
    by_contra hne
    have hbreak : amountBreak input.policy p c ∈ attributeBreaks input.policy p c := by
      unfold attributeBreaks
      rw [if_pos hne]
      exact List.mem_append_left _ (List.mem_append_left _ (List.mem_singleton_self _))
    have hstays := (strong_stays runtime hp hc).2
      ((strong_planned hmeet.key hmeet.provider hmeet.localItem).2 hbreak)
    rw [(clean_searched hclean).1] at hstays
    cases hstays
  · obtain ⟨hd, ha⟩ := hcmp.bucket p c hpl hcl hkey
    exact signed_congr hd ha
  · rw [hreviewed] at hrev
    cases hrev

end Pairs

section Legs

variable (hp : (ids input.provider).Nodup) (hc : (ids input.localItems).Nodup)
  (hl : (ids input.ledger).Nodup) (hleg : OneLeg input.ledger)
  (hclean : Clean (reconcile runtime input)) (hcmp : Comparable runtime input)
include hp hc hl hleg hclean hcmp

omit hleg in
/-- A local item and a ledger item of its transaction agree. -/
theorem clean_leg (hcm : c ∈ input.localItems) :
    ∃ l ∈ input.ledger, Names c l ∧ signed c = signed l := by
  obtain ⟨p, _, m, hm, _, hmc⟩ := (clean_partners hp hc hclean).right c hcm
  obtain ⟨_, hcrossed, _⟩ := clean_searched hclean
  rw [reconcile_matched] at hm
  obtain ⟨m', hm', rfl⟩ := List.mem_map.mp hm
  rw [(crossedLink_same runtime _ _ m').2.1] at hmc
  have hlocal : localOf (indexar input.localItems) m' = some c :=
    (localOf_eq_some hc).mpr ⟨hmc, hcmp.named c hcm, hcm⟩
  have hnone := hcrossed m' hm'
  unfold crossedBreaks at hnone
  rw [hlocal] at hnone
  dsimp only at hnone
  cases hhead : (legsOf runtime (indexar input.ledger) c).head? with
  | none => rw [hhead] at hnone; cases hnone
  | some l =>
    rw [hhead] at hnone
    obtain ⟨hlm, hnames⟩ := legsOf_head_mem hhead
    rw [indexar_values hl] at hlm
    refine ⟨l, hlm, hnames, signed_congr (hcmp.legs c hcm l hlm hnames) ?_⟩
    by_contra hne
    dsimp only at hnone
    unfold legBreaks at hnone
    rw [if_pos (Ne.symm hne)] at hnone
    cases hnone

theorem clean_legs : Partners Names input.localItems input.ledger where
  left c hcm := by
    obtain ⟨l, hlm, hnames, _⟩ := clean_leg hp hc hl hclean hcmp hcm
    exact ⟨l, hlm, hnames⟩
  right l hlm := by
    by_contra hnone
    push Not at hnone
    have horphan := (mem_orphans_iff hc hl runtime (searched runtime input).matched hlm).mpr hnone
    rw [(clean_searched hclean).2.2] at horphan
    cases horphan
  functional c _ l hlm l' hlm' h h' :=
    hleg l hlm l' hlm' (Option.some.inj (Eq.trans (Eq.symm h) h'))
  injective c hcm c' hcm' l _ h h' :=
    hcmp.oneEach c hcm c' hcm' (by rw [h]; rfl) (Eq.trans h (Eq.symm h'))

end Legs

/-- A clean reconciliation means equal money, where what the passes put together
agrees in what they do not compare. -/
theorem clean_equal_money (runtime : Runtime) (input : ReconciliationInput)
    (hp : (ids input.provider).Nodup) (hc : (ids input.localItems).Nodup) (hl : (ids input.ledger).Nodup)
    (hleg : OneLeg input.ledger) (hclean : Clean (reconcile runtime input))
    (hcmp : Comparable runtime input) :
    signedSum input.provider = signedSum input.localItems ∧
      signedSum input.localItems = signedSum input.ledger := by
  refine ⟨?_, ?_⟩
  · exact (clean_partners hp hc hclean).sum_eq hp.of_map hc.of_map fun p hpm c hcm h =>
      paired_signed hp hc hclean hcmp hpm hcm h
  · refine (clean_legs hp hc hl hleg hclean hcmp).sum_eq hc.of_map hl.of_map fun c hcm l hlm h => ?_
    obtain ⟨l', hlm', hnames, hsigned⟩ := clean_leg hp hc hl hclean hcmp hcm
    rw [hsigned, hleg l' hlm' l hlm (Option.some.inj (Eq.trans (Eq.symm hnames) h))]

section Sample

/-- One payment on all three sides, with the direction that our side has for it. -/
def onePayment (direction : TransactionDirection) : ReconciliationInput :=
  { paymentInput [paymentItem .PROVIDER "itm_1" (some "E1") none 10 500]
      [{ inTransaction (paymentItem .LOCAL "itm_2" (some "E1") none 15 500) "ltx_1" with direction }] with
    ledger := [inTransaction (paymentItem .LEDGER "itm_3" none none 20 500) "ltx_1"] }

theorem onePayment_clean (direction : TransactionDirection) :
    Clean (reconcile textRuntime (onePayment direction)) := by
  cases direction <;> exact ⟨by decide, by decide, by decide⟩

theorem onePayment_leg (direction : TransactionDirection) : OneLeg (onePayment direction).ledger :=
  fun _ hl _ hl' _ => (List.mem_singleton.mp hl).trans (List.mem_singleton.mp hl').symm

theorem clean_equal_money_one :
    signedSum (onePayment .CREDIT).provider = signedSum (onePayment .CREDIT).localItems ∧
      signedSum (onePayment .CREDIT).localItems = signedSum (onePayment .CREDIT).ledger := by
  have hsame : ∀ p ∈ (onePayment .CREDIT).provider, ∀ c ∈ (onePayment .CREDIT).localItems,
      p.direction = c.direction ∧ p.amountCents = c.amountCents := by decide
  refine clean_equal_money textRuntime (onePayment .CREDIT) (by decide) (by decide) (by decide)
    (onePayment_leg _) (onePayment_clean _) ⟨fun k p c h => ?_,
      fun p c hp hc _ => ?_, by decide, ?_, by decide⟩
  · exact (hsame p (Oldest.keyed h.provider).1 c (Oldest.keyed h.localItem).1).1
  · exact hsame p hp.mem c hc.mem
  · exact fun c hc c' hc' _ _ => (List.mem_singleton.mp hc).trans (List.mem_singleton.mp hc').symm

/-- A payment that the provider credits and we debit is clean. -/
theorem opposite_directions_clean :
    ¬ ∀ (runtime : Runtime) (input : ReconciliationInput), (ids input.provider).Nodup →
      (ids input.localItems).Nodup → (ids input.ledger).Nodup → OneLeg input.ledger →
      Clean (reconcile runtime input) → signedSum input.provider = signedSum input.localItems ∧
        signedSum input.localItems = signedSum input.ledger := by
  intro h
  have hequal := (h textRuntime (onePayment .DEBIT) (by decide) (by decide) (by decide) (onePayment_leg _)
    (onePayment_clean _)).1
  revert hequal
  decide

end Sample

end BaasConnector.Reconciliation.EqualMoney
