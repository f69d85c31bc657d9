import BaasConnector.Reconciliation.EqualMoney

namespace BaasConnector.Reconciliation.BalanceResidue

open BaasConnector.Lib.Keyed BaasConnector.Taxonomy.Status BaasConnector.Connector.Records
open BaasConnector.Reconciliation.Items BaasConnector.Reconciliation.Passes
open BaasConnector.Reconciliation.Motor BaasConnector.Reconciliation.Effects
open BaasConnector.Reconciliation.Accounting BaasConnector.Reconciliation.LedgerLegs
open BaasConnector.Reconciliation.Windowed BaasConnector.Reconciliation.Partition
open BaasConnector.Reconciliation.Provenance BaasConnector.Reconciliation.Identity
open BaasConnector.Reconciliation.EqualMoney

/-- A clean result explains the closing balance, and a balance break is alone and
carries what is left unexplained. -/
structure NoSilentResidue (breaks : List BreakDraft) (opening closing movement : Int) : Prop where
  clean : breaks = [] → closing = opening + movement
  reported : ∀ b ∈ breaks, b.type = .BALANCE_MISMATCH →
    b.deltaCents = some (closing - opening - movement) ∧ breaks = [b]

variable {runtime : Runtime} {input : ReconciliationInput}

section Movement

/-- The provider items of the matches, in the order of the matches. -/
def linked (allProvider : Pool) (links : List MatchLink) : List NormalizedItem :=
  links.filterMap fun link => (present link.providerItemId).bind allProvider.get

theorem foldl_movement (allProvider : Pool) (links : List MatchLink) (movement : Int) :
    links.foldl (fun movimento link =>
      match (present link.providerItemId).bind allProvider.get with
      | some p => movimento + signed p
      | none => movimento) movement = movement + signedSum (linked allProvider links) := by
  induction links generalizing movement with
  | nil => exact (Int.add_zero movement).symm
  | cons link links ih =>
    have hcons : linked allProvider (link :: links) =
        ((present link.providerItemId).bind allProvider.get).toList ++ linked allProvider links := by
      rw [linked, List.filterMap_cons]
      cases (present link.providerItemId).bind allProvider.get <;> rfl
    rw [List.foldl_cons, ih, hcons, signedSum, signedSum, List.map_append, List.sum_append]
    cases (present link.providerItemId).bind allProvider.get with
    | none => exact congrArg (movement + ·) (Int.zero_add _).symm
    | some p => simp [Int.add_assoc]

theorem matchedMovement_eq (allProvider : Pool) (links : List MatchLink) :
    matchedMovement allProvider links = signedSum (linked allProvider links) := by
  have h := foldl_movement allProvider links 0
  rwa [Int.zero_add] at h

theorem linked_eq (allProvider : Pool) (links : List MatchLink) :
    linked allProvider links =
      (links.filterMap fun link => present link.providerItemId).filterMap allProvider.get := by
  rw [List.filterMap_filterMap]
  rfl

/-- The items of a pool are what it has under their ids. -/
theorem values_eq {pool : Pool} (h : Keyed pool) : (ids pool.values).filterMap pool.get = pool.values := by
  rw [ids, List.filterMap_map]
  have hget : ∀ item ∈ pool.values, (pool.get ∘ fun item : NormalizedItem => item.id) item = some item :=
    fun item hm => h.get.mpr ⟨hm, rfl⟩
  rw [List.filterMap_congr hget]
  exact List.filterMap_some

theorem count_links (links : List MatchLink) {id : String} (hid : id ≠ "") :
    (links.filterMap fun link => present link.providerItemId).count id =
      links.countP (linksProvider id) := by
  rw [List.count_filterMap]
  apply List.countP_congr
  intro link _
  rw [beq_iff_eq, present, Option.filter_eq_some_iff, linksProvider, decide_eq_true_eq, decide_eq_true_eq]
  exact and_iff_left hid

theorem count_no_link (links : List MatchLink) :
    (links.filterMap fun link => present link.providerItemId).count "" = 0 := by
  rw [List.count_eq_zero]
  intro hm
  obtain ⟨link, _, hlink⟩ := List.mem_filterMap.mp hm
  obtain ⟨_, hne⟩ := Option.filter_eq_some_iff.mp hlink
  exact of_decide_eq_true hne rfl

end Movement

section Breaks

variable (hp : (ids input.provider).Nodup) (hc : (ids input.localItems).Nodup)
include hp hc

/-- With no break, the matches have each provider item once. -/
theorem clean_movement (hnamed : ∀ p ∈ input.provider, p.id ≠ "")
    (hclean : (crossed runtime input).breaks = []) :
    matchedMovement (indexar input.provider) (crossed runtime input).matched = signedSum input.provider := by
  obtain ⟨hmatched, hbreaks⟩ := passLedgerCross_eq runtime input.policy (indexar input.localItems)
    (indexar input.ledger) (searched runtime input).matched (searched runtime input).breaks
  rw [← crossed] at hmatched hbreaks
  rw [hclean] at hbreaks
  obtain ⟨hbreaks, _⟩ := List.append_eq_nil_iff.mp hbreaks.symm
  obtain ⟨hsearched, _⟩ := List.append_eq_nil_iff.mp hbreaks
  have hcount : ∀ id, (crossed runtime input).matched.countP (linksProvider id) =
      (ids input.provider).count id := by
    intro id
    have hplaces := (searched_places runtime hp hc id).1
    rw [providerPlaces, hsearched, List.countP_nil, Nat.add_zero] at hplaces
    rw [← hplaces, hmatched, List.countP_map]
    apply List.countP_congr
    intro link _
    simp [linksProvider, (crossedLink_same runtime _ _ link).1]
  have hperm : ((crossed runtime input).matched.filterMap fun link => present link.providerItemId).Perm
      (ids input.provider) := by
    rw [List.perm_iff_count]
    intro id
    by_cases hid : id = ""
    · subst hid
      rw [count_no_link, eq_comm, List.count_eq_zero]
      intro hm
      obtain ⟨p, hpm, hempty⟩ := List.mem_map.mp hm
      exact hnamed p hpm hempty
    · rw [count_links _ hid, hcount]
  have hvalues := values_eq (indexar_keyed hp)
  rw [indexar_values hp] at hvalues
  have hitems := hperm.filterMap (indexar input.provider).get
  rw [hvalues, ← linked_eq] at hitems
  rw [matchedMovement_eq, signedSum, signedSum]
  exact (hitems.map signed).sum_eq

/-- Only the balance pass reports the balance. -/
theorem crossed_type {b : BreakDraft} (hb : b ∈ (crossed runtime input).breaks) :
    b.type ≠ .BALANCE_MISMATCH := by
  intro htype
  obtain ⟨later, hbreaks, hlater⟩ := crossed_later runtime input
  rw [hbreaks] at hb
  obtain hb | hb := List.mem_append.mp hb
  · cases (searched_sourced runtime hp hc).breaks b hb with
    | compared _ hb =>
      obtain hb | hb | hb := attributeBreaks_type hb <;> rw [hb] at htype <;> cases htype
    | @missingLocal p _ ambiguo =>
      obtain h | h | h := missingLocalBreak_type p ambiguo <;> rw [h] at htype <;> cases htype
    | _ => cases htype
  · cases hlater b hb <;> cases htype

end Breaks

theorem passBalance_reports {links : List MatchLink} {breaks : List BreakDraft} {allProvider : Pool}
    {opening closing : Int} (hopening : input.balances.providerOpeningCents = some opening)
    (hclosing : input.balances.providerClosingCents = some closing) :
    let residuo := closing - (opening + matchedMovement allProvider links)
    (passBalance runtime input links breaks allProvider).2 =
      if residuo ≠ 0 ∧ breaks = [] then
        [balanceBreak runtime input opening (matchedMovement allProvider links) closing]
      else breaks := by
  intro residuo
  unfold passBalance
  dsimp only
  rw [hopening, hclosing]
  dsimp only
  by_cases hzero : residuo = 0
  · rw [if_pos hzero, if_neg fun h => h.1 hzero]
  · rw [if_neg hzero]
    cases breaks with
    | nil => rw [if_neg (by simp), if_pos ⟨hzero, rfl⟩, List.nil_append]
    | cons b breaks => rw [if_pos (by simp), if_neg fun h => nomatch h.2]

theorem distinct_residue (hp : (ids input.provider).Nodup) (hc : (ids input.localItems).Nodup)
    (hnamed : ∀ p ∈ input.provider, p.id ≠ "") {opening closing : Int}
    (hopening : input.balances.providerOpeningCents = some opening)
    (hclosing : input.balances.providerClosingCents = some closing) :
    NoSilentResidue (reconcile runtime input).breaks opening closing (signedSum input.provider) := by
  have hreports := @passBalance_reports runtime input (crossed runtime input).matched
    (crossed runtime input).breaks (indexar input.provider) _ _ hopening hclosing
  rw [reconcile_eq]
  dsimp only at hreports ⊢
  rw [hreports]
  by_cases hclean : (crossed runtime input).breaks = []
  · rw [clean_movement hp hc hnamed hclean, hclean]
    by_cases hzero : closing - (opening + signedSum input.provider) = 0
    · rw [if_neg fun h => h.1 hzero]
      exact ⟨fun _ => by omega, fun b hb => by cases hb⟩
    · rw [if_pos ⟨hzero, rfl⟩]
      refine ⟨fun h => (by cases h), fun b hb _ => ?_⟩
      rw [List.mem_singleton.mp hb]
      exact ⟨congrArg some (by omega), rfl⟩
  · rw [if_neg fun h => hclean h.2]
    exact ⟨fun h => absurd h hclean, fun b hb htype => absurd htype (crossed_type hp hc hb)⟩

/-- No residue of the balance is silent, for provider items with ids of their own. -/
theorem no_silent_residue (runtime : Runtime) (input : ReconciliationInput) (hp : (ids input.provider).Nodup)
    (hnamed : ∀ p ∈ input.provider, p.id ≠ "") (opening closing : Int)
    (hopening : input.balances.providerOpeningCents = some opening)
    (hclosing : input.balances.providerClosingCents = some closing) :
    NoSilentResidue (reconcile runtime input).breaks opening closing (signedSum input.provider) := by
  obtain ⟨hpk, hck, _⟩ := known_nodup input
  have hprovider : (known input).provider = input.provider := indexar_values hp
  have h := @distinct_residue runtime _ hpk hck (by rwa [hprovider]) _ _ hopening hclosing
  rwa [reconcile_known, hprovider] at h

section Sample

/-- One payment of 500 on all three sides, between two balances. -/
def betweenBalances (opening closing : Int) : ReconciliationInput :=
  { onePayment .CREDIT with balances := ⟨some opening, some closing, none⟩ }

/-- A fee that the statement does not list. -/
theorem no_silent_residue_fee :
    (∃ b ∈ (reconcile textRuntime (betweenBalances 1000 1480)).breaks, b.type = .BALANCE_MISMATCH) ∧
      ∀ b ∈ (reconcile textRuntime (betweenBalances 1000 1480)).breaks, b.type = .BALANCE_MISMATCH →
        b.deltaCents = some (-20) := by
  have h := no_silent_residue textRuntime (betweenBalances 1000 1480) (by decide)
    (by decide) 1000 1480 rfl rfl
  exact ⟨by decide, fun b hb htype => (h.reported b hb htype).1⟩

end Sample

end BaasConnector.Reconciliation.BalanceResidue
