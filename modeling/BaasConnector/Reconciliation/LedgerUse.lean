import BaasConnector.Reconciliation.Identity

namespace BaasConnector.Reconciliation.LedgerUse

open BaasConnector.Lib.Keyed BaasConnector.Taxonomy.Status
open BaasConnector.Reconciliation.Items BaasConnector.Reconciliation.Passes
open BaasConnector.Reconciliation.Motor BaasConnector.Reconciliation.Effects
open BaasConnector.Reconciliation.Accounting BaasConnector.Reconciliation.LedgerLegs
open BaasConnector.Reconciliation.Partition BaasConnector.Reconciliation.Provenance
open BaasConnector.Reconciliation.Identity

/-- How many matches a ledger item is attached to. -/
def attachments (matched : List MatchLink) (id : String) : Nat :=
  matched.countP fun m => decide (m.ledgerItemId = some id)

def isOrphanBreak (id : String) (b : BreakDraft) : Bool :=
  decide (b.type = .MISSING_ON_LOCAL ∧ b.ledgerItemId = some id)

/-- How many orphan breaks report a ledger item. -/
def orphanBreaks (breaks : List BreakDraft) (id : String) : Nat := breaks.countP (isOrphanBreak id)

/-- What becomes of a ledger item. -/
inductive LedgerPlace
  | attached | furtherLeg | unmatched | orphan
deriving DecidableEq

/-- A local item that the ledger pass finds in no match. -/
def Unmatched (matched : List MatchLink) (c : NormalizedItem) : Prop :=
  c.id = "" ∨ ∀ m ∈ matched, m.localItemId ≠ some c.id

def LedgerPlace.Holds (runtime : Runtime) (input : ReconciliationInput) (l : NormalizedItem) :
    LedgerPlace → Prop
  | .attached => attachments (reconcile runtime input).matched l.id = 1
  | .furtherLeg => ∃ first ∈ input.ledger, ledgerKey first = ledgerKey l ∧ first ≠ l ∧
      attachments (reconcile runtime input).matched first.id = 1
  | .unmatched => (∃ c ∈ input.localItems, Names c l) ∧
      ∀ c ∈ input.localItems, Names c l → Unmatched (reconcile runtime input).matched c
  | .orphan => orphanBreaks (reconcile runtime input).breaks l.id = 1

/-- No two matched local items name the transaction of one ledger item. -/
def OneMatched (runtime : Runtime) (input : ReconciliationInput) : Prop :=
  ∀ l ∈ input.ledger, ∀ c ∈ input.localItems, ∀ c' ∈ input.localItems, Names c l → Names c' l →
    ¬ Unmatched (reconcile runtime input).matched c → ¬ Unmatched (reconcile runtime input).matched c' →
      c = c'

variable {runtime : Runtime} {input : ReconciliationInput} {c l : NormalizedItem}
  (hp : (ids input.provider).Nodup) (hc : (ids input.localItems).Nodup) (hl : (ids input.ledger).Nodup)

theorem unmatched_iff (c : NormalizedItem) :
    Unmatched (reconcile runtime input).matched c ↔ Unmatched (searched runtime input).matched c := by
  unfold Unmatched
  rw [reconcile_matched]
  refine or_congr Iff.rfl ?_
  simp only [List.forall_mem_map]
  refine forall₂_congr fun m _ => ?_
  rw [(crossedLink_same runtime _ _ m).2.1]

/-- An item of a match of the search is matched. -/
theorem matched_of_link {m : MatchLink} (hm : m ∈ (searched runtime input).matched)
    (hlink : m.localItemId = some c.id) (hne : c.id ≠ "") :
    ¬ Unmatched (reconcile runtime input).matched c := by
  rw [unmatched_iff]
  rintro (hid | hfree)
  · exact hne hid
  · exact hfree m hm hlink

section Matches

include hc in
theorem localOf_eq_some {m : MatchLink} :
    localOf (indexar input.localItems) m = some c ↔
      m.localItemId = some c.id ∧ c.id ≠ "" ∧ c ∈ input.localItems := by
  rw [localOf, Option.bind_eq_some_iff]
  constructor
  · rintro ⟨id, hid, hget⟩
    obtain ⟨hm, rfl⟩ := indexar_get hget
    obtain ⟨hlink, hne⟩ := Option.filter_eq_some_iff.mp hid
    exact ⟨hlink, of_decide_eq_true hne, hm⟩
  · rintro ⟨hlink, hne, hm⟩
    refine ⟨c.id, Option.filter_eq_some_iff.mpr ⟨hlink, decide_eq_true hne⟩, ?_⟩
    rw [(indexar_keyed hc).get, indexar_values hc]
    exact ⟨hm, rfl⟩

/-- The match is about a local item whose transaction the ledger item is the first of. -/
def Attaches (runtime : Runtime) (input : ReconciliationInput) (m : MatchLink) (c l : NormalizedItem) :
    Prop :=
  m.localItemId = some c.id ∧ c.id ≠ "" ∧ c ∈ input.localItems ∧
    (legsOf runtime (indexar input.ledger) c).head? = some l

include hp hc in
theorem searched_ledger {m : MatchLink} (hm : m ∈ (searched runtime input).matched) :
    m.ledgerItemId = none := by
  cases (searched_sourced runtime hp hc).matched m hm <;> rfl

include hp hc in
theorem crossedLink_ledger {m : MatchLink} (hm : m ∈ (searched runtime input).matched) {id : String} :
    (crossedLink runtime (indexar input.localItems) (indexar input.ledger) m).ledgerItemId = some id ↔
      ∃ c l, Attaches runtime input m c l ∧ l.id = id := by
  unfold crossedLink
  constructor
  · intro h
    split at h
    · next l hbind =>
      obtain ⟨c, hlocal, hhead⟩ := Option.bind_eq_some_iff.mp hbind
      obtain ⟨hlink, hne, hcm⟩ := (localOf_eq_some hc).mp hlocal
      exact ⟨c, l, ⟨hlink, hne, hcm, hhead⟩, Option.some.inj h⟩
    · rw [searched_ledger hp hc hm] at h
      cases h
  · rintro ⟨c, l, ⟨hlink, hne, hcm, hhead⟩, rfl⟩
    rw [(localOf_eq_some hc).mpr ⟨hlink, hne, hcm⟩, Option.bind_some, hhead]

theorem attachments_eq (id : String) :
    attachments (reconcile runtime input).matched id = (searched runtime input).matched.countP fun m =>
      decide ((crossedLink runtime (indexar input.localItems) (indexar input.ledger) m).ledgerItemId =
        some id) := by
  rw [attachments, reconcile_matched, List.countP_map]
  rfl

include hp hc in
/-- A local item is in one match of the search at most. -/
theorem countP_linksLocal_le (id : String) : (searched runtime input).matched.countP (linksLocal id) ≤ 1 := by
  have hplaces := (searched_places runtime hp hc id).2
  have hcount := List.nodup_iff_count_le_one.mp hc id
  have hle : (searched runtime input).matched.countP (linksLocal id) ≤
      localPlaces (searched runtime input).matched (searched runtime input).breaks
        (searched runtime input).pendingSettlement id := by
    unfold localPlaces
    omega
  omega

theorem legsOf_head_mem (h : (legsOf runtime (indexar input.ledger) c).head? = some l) :
    l ∈ (indexar input.ledger).values ∧ Names c l :=
  (mem_legsOf runtime _).mp (List.mem_of_mem_head? h)

include hp hc hl in
/-- No ledger item is attached to two matches. -/
theorem attachments_le (hone : OneMatched runtime input) (id : String) :
    attachments (reconcile runtime input).matched id ≤ 1 := by
  rw [attachments_eq]
  by_cases hnone : ∃ m ∈ (searched runtime input).matched, ∃ c l, Attaches runtime input m c l ∧ l.id = id
  · obtain ⟨m, hm, c, l, ⟨hlink, hne, hcm, hhead⟩, hid⟩ := hnone
    obtain ⟨hlm, hnames⟩ := legsOf_head_mem hhead
    refine Nat.le_trans (List.countP_mono_left fun m' hm' h => ?_) (countP_linksLocal_le hp hc c.id)
    obtain ⟨c', l', ⟨hlink', hne', hcm', hhead'⟩, hid'⟩ :=
      (crossedLink_ledger hp hc hm').mp (of_decide_eq_true h)
    obtain ⟨hlm', hnames'⟩ := legsOf_head_mem hhead'
    have hll : l' = l := List.inj_on_of_nodup_map (keyed_indexar input.ledger).nodup hlm' hlm
      (hid'.trans hid.symm)
    rw [hll] at hnames'
    rw [indexar_values hl] at hlm
    have hcc : c' = c := hone l hlm c' hcm' c hcm hnames' hnames (matched_of_link hm' hlink' hne')
      (matched_of_link hm hlink hne)
    rw [hcc] at hlink'
    exact decide_eq_true hlink'
  · have hzero : (searched runtime input).matched.countP (fun m =>
        decide ((crossedLink runtime (indexar input.localItems) (indexar input.ledger) m).ledgerItemId =
          some id)) = 0 := by
      rw [List.countP_eq_zero]
      intro m hm h
      exact hnone ⟨m, hm, (crossedLink_ledger hp hc hm).mp (of_decide_eq_true h)⟩
    omega

include hp hc hl in
theorem attached_iff (hone : OneMatched runtime input) (hlm : l ∈ input.ledger) :
    attachments (reconcile runtime input).matched l.id = 1 ↔
      ∃ m ∈ (searched runtime input).matched, ∃ c, Attaches runtime input m c l := by
  have hle := attachments_le hp hc hl hone l.id
  constructor
  · intro h
    rw [attachments_eq] at h
    obtain ⟨m, hm, hlink⟩ := List.countP_pos_iff.mp (Nat.lt_of_lt_of_eq Nat.one_pos h.symm)
    obtain ⟨c, l', hattach, hid⟩ := (crossedLink_ledger hp hc hm).mp (of_decide_eq_true hlink)
    have hl'm := (legsOf_head_mem hattach.2.2.2).1
    rw [indexar_values hl] at hl'm
    rw [List.inj_on_of_nodup_map hl hl'm hlm hid] at hattach
    exact ⟨m, hm, c, hattach⟩
  · rintro ⟨m, hm, c, hattach⟩
    have hpos : 0 < attachments (reconcile runtime input).matched l.id := by
      rw [attachments_eq, List.countP_pos_iff]
      exact ⟨m, hm, decide_eq_true ((crossedLink_ledger hp hc hm).mpr ⟨c, l, hattach, rfl⟩)⟩
    omega

end Matches

section Orphans

include hl in
theorem mem_orphans {links : List MatchLink} :
    l ∈ orphans runtime (indexar input.localItems) (indexar input.ledger) links ↔
      l ∈ input.ledger ∧
        l.id ∉ links.flatMap (crossedTaken runtime (indexar input.localItems) (indexar input.ledger)) ∧
        l.id ∉ (indexar input.localItems).values.flatMap
          (fun c => ids (legsOf runtime (indexar input.ledger) c)) := by
  rw [orphans, ((indexar_keyed hl).deleteAll _).values_deleteAll, (indexar_keyed hl).values_deleteAll,
    indexar_values hl, List.mem_filter, List.mem_filter, decide_eq_true_eq, decide_eq_true_eq, and_assoc]

include hc hl in
/-- The orphans are the items of transactions that no local item names. -/
theorem mem_orphans_iff (runtime : Runtime) (links : List MatchLink) (hlm : l ∈ input.ledger) :
    l ∈ orphans runtime (indexar input.localItems) (indexar input.ledger) links ↔
      ∀ c ∈ input.localItems, ¬ Names c l := by
  have hnamed : ∀ {c : NormalizedItem}, l.id ∈ ids (legsOf runtime (indexar input.ledger) c) ↔ Names c l := by
    intro c
    constructor
    · intro h
      obtain ⟨l', hl', hid⟩ := List.mem_map.mp h
      obtain ⟨hlm', hnames⟩ := (mem_legsOf runtime _).mp hl'
      rw [indexar_values hl] at hlm'
      rwa [List.inj_on_of_nodup_map hl hlm' hlm hid] at hnames
    · intro h
      refine List.mem_map_of_mem ((mem_legsOf runtime _).mpr ⟨?_, h⟩)
      rw [indexar_values hl]
      exact hlm
  rw [mem_orphans hl, indexar_values hc]
  constructor
  · rintro ⟨_, _, hfree⟩ c hcm hnames
    exact hfree (List.mem_flatMap.mpr ⟨c, hcm, hnamed.mpr hnames⟩)
  · intro hfree
    refine ⟨hlm, fun htaken => ?_, fun htaken => ?_⟩
    · obtain ⟨m, _, hm⟩ := List.mem_flatMap.mp htaken
      unfold crossedTaken at hm
      split at hm
      · cases hm
      · next c hlocal => exact hfree c ((localOf_eq_some hc).mp hlocal).2.2 (hnamed.mp hm)
    · obtain ⟨c, hcm, hm⟩ := List.mem_flatMap.mp htaken
      exact hfree c hcm (hnamed.mp hm)

include hp hc in
/-- An orphan is reported once, and nothing else as one. -/
theorem orphanBreaks_eq (id : String) :
    orphanBreaks (reconcile runtime input).breaks id =
      (ids (orphans runtime (indexar input.localItems) (indexar input.ledger)
        (searched runtime input).matched)).count id := by
  obtain ⟨balance, hbreaks, _, hbalance⟩ := reconcile_breaks runtime input
  have hsearched : (searched runtime input).breaks.countP (isOrphanBreak id) = 0 := by
    rw [List.countP_eq_zero]
    intro b hb h
    obtain ⟨htype, hledger⟩ := of_decide_eq_true h
    cases (searched_sourced runtime hp hc).breaks b hb with
    | compared _ hb =>
      obtain hb | hb | hb := attributeBreaks_type hb <;> rw [hb] at htype <;> cases htype
    | _ => cases hledger
  have hcrossed : ((searched runtime input).matched.flatMap
      (crossedBreaks runtime input.policy (indexar input.localItems) (indexar input.ledger))).countP
        (isOrphanBreak id) = 0 := by
    rw [List.countP_eq_zero]
    intro b hb h
    obtain ⟨m, _, hb⟩ := List.mem_flatMap.mp hb
    obtain ⟨c, _, ⟨_, rfl⟩ | ⟨l, _, hb⟩⟩ := (mem_crossedBreaks runtime).mp hb
    · simp [isOrphanBreak, missingLedgerBreak] at h
    · obtain ⟨_, rfl⟩ | ⟨_, rfl⟩ := mem_legBreaks.mp hb
      · simp [isOrphanBreak, ledgerAmountBreak] at h
      · simp [isOrphanBreak, ledgerDateBreak] at h
  have hlast : balance.countP (isOrphanBreak id) = 0 := by
    rw [List.countP_eq_zero]
    intro b hb h
    obtain ⟨_, _, _, rfl⟩ := hbalance b hb
    simp [isOrphanBreak, balanceBreak] at h
  rw [orphanBreaks, hbreaks, List.countP_append, List.countP_append, List.countP_append, hsearched, hcrossed,
    hlast, List.countP_map, ids, List.count, List.countP_map, Nat.zero_add, Nat.add_zero]
  refine Eq.trans (List.countP_congr fun l _ => ?_)
    ((List.perm_insertionSort (byId runtime) _).countP_eq _)
  simp [isOrphanBreak, orphanBreak]

end Orphans

include hl in
theorem orphans_nodup (runtime : Runtime) (links : List MatchLink) :
    (ids (orphans runtime (indexar input.localItems) (indexar input.ledger) links)).Nodup := by
  rw [orphans, ((indexar_keyed hl).deleteAll _).values_deleteAll, (indexar_keyed hl).values_deleteAll,
    indexar_values hl]
  exact hl.sublist ((List.filter_sublist.trans List.filter_sublist).map _)

section Places

include hp hc hl

theorem orphan_iff (hlm : l ∈ input.ledger) :
    orphanBreaks (reconcile runtime input).breaks l.id = 1 ↔ ∀ c ∈ input.localItems, ¬ Names c l := by
  rw [orphanBreaks_eq hp hc, ← mem_orphans_iff hc hl runtime (searched runtime input).matched hlm]
  have hnodup := orphans_nodup hl runtime (searched runtime input).matched
  constructor
  · intro h
    have hmem : l.id ∈ ids (orphans runtime (indexar input.localItems) (indexar input.ledger)
        (searched runtime input).matched) := List.count_pos_iff.mp (by omega)
    obtain ⟨l', hl', hid⟩ := List.mem_map.mp hmem
    rwa [List.inj_on_of_nodup_map hl ((mem_orphans hl).mp hl').1 hlm hid] at hl'
  · intro h
    exact List.count_eq_one_of_mem hnodup (List.mem_map_of_mem h)

/-- A ledger item has one place: with a match, as a further leg of one, with
unmatched local items, or as an orphan. -/
theorem ledger_item_place (hone : OneMatched runtime input) (hlm : l ∈ input.ledger) :
    ∃! place : LedgerPlace, place.Holds runtime input l := by
  -- what is attached of the transaction is attached for a matched item that names it
  have hattached : ∀ first ∈ input.ledger, ledgerKey first = ledgerKey l →
      attachments (reconcile runtime input).matched first.id = 1 → ∃ m ∈ (searched runtime input).matched,
        ∃ c, Attaches runtime input m c first ∧ Names c l := by
    intro first hfm hkey hfirst
    obtain ⟨m, hm, c, hattach⟩ := (attached_iff hp hc hl hone hfm).mp hfirst
    exact ⟨m, hm, c, hattach, Eq.trans (legsOf_head_mem hattach.2.2.2).2 (congrArg some hkey)⟩
  by_cases hmatched : ∃ c ∈ input.localItems, Names c l ∧ ¬ Unmatched (reconcile runtime input).matched c
  · obtain ⟨c, hcm, hnames, hlinked⟩ := hmatched
    have horphan : ¬ LedgerPlace.Holds runtime input l .orphan := fun h =>
      (orphan_iff hp hc hl hlm).mp h c hcm hnames
    have hunmatched : ¬ LedgerPlace.Holds runtime input l .unmatched := fun h => hlinked (h.2 c hcm hnames)
    have hlegs : l ∈ legsOf runtime (indexar input.ledger) c := by
      rw [mem_legsOf, indexar_values hl]
      exact ⟨hlm, hnames⟩
    obtain ⟨first, hhead⟩ : ∃ first, (legsOf runtime (indexar input.ledger) c).head? = some first := by
      cases hlist : legsOf runtime (indexar input.ledger) c with
      | nil => rw [hlist] at hlegs; cases hlegs
      | cons first legs => exact ⟨first, rfl⟩
    obtain ⟨hfm, hfnames⟩ := legsOf_head_mem hhead
    rw [indexar_values hl] at hfm
    have hkey : ledgerKey first = ledgerKey l := Option.some.inj (Eq.trans (Eq.symm hfnames) hnames)
    have hone' : attachments (reconcile runtime input).matched first.id = 1 := by
      have hsearched := hlinked
      rw [unmatched_iff, Unmatched, not_or] at hsearched
      obtain ⟨hne, hlinks⟩ := hsearched
      push Not at hlinks
      obtain ⟨m, hm, hlink⟩ := hlinks
      exact (attached_iff hp hc hl hone hfm).mpr ⟨m, hm, c, hlink, hne, hcm, hhead⟩
    have honly : ∀ first' ∈ input.ledger, ledgerKey first' = ledgerKey l →
        attachments (reconcile runtime input).matched first'.id = 1 → first' = first := by
      intro first' hfm' hkey' h
      obtain ⟨m, hm, c', ⟨hlink, hne, hcm', hhead'⟩, hnames'⟩ := hattached first' hfm' hkey' h
      obtain rfl := hone l hlm c' hcm' c hcm hnames' hnames (matched_of_link hm hlink hne) hlinked
      exact Option.some.inj (hhead'.symm.trans hhead)
    by_cases hfirst : first = l
    · refine ⟨.attached, hfirst ▸ hone', fun place h => ?_⟩
      cases place with
      | attached => rfl
      | furtherLeg =>
        obtain ⟨first', hfm', hkey', hne, h⟩ := h
        exact absurd ((honly first' hfm' hkey' h).trans hfirst) hne
      | unmatched => exact absurd h hunmatched
      | orphan => exact absurd h horphan
    · refine ⟨.furtherLeg, ⟨first, hfm, hkey, hfirst, hone'⟩, fun place h => ?_⟩
      cases place with
      | attached => exact absurd (honly l hlm rfl h).symm hfirst
      | furtherLeg => rfl
      | unmatched => exact absurd h hunmatched
      | orphan => exact absurd h horphan
  · push Not at hmatched
    have hnone : ∀ first ∈ input.ledger, ledgerKey first = ledgerKey l →
        attachments (reconcile runtime input).matched first.id ≠ 1 := by
      intro first hfm hkey h
      obtain ⟨m, hm, c, ⟨hlink, hne, hcm, _⟩, hnames⟩ := hattached first hfm hkey h
      exact matched_of_link hm hlink hne (hmatched c hcm hnames)
    have hfree : ∀ place : LedgerPlace, place.Holds runtime input l → place = .unmatched ∨ place = .orphan := by
      intro place h
      cases place with
      | attached => exact absurd h (hnone l hlm rfl)
      | furtherLeg =>
        obtain ⟨first, hfm, hkey, _, h⟩ := h
        exact absurd h (hnone first hfm hkey)
      | unmatched => exact .inl rfl
      | orphan => exact .inr rfl
    by_cases hnamed : ∃ c ∈ input.localItems, Names c l
    · refine ⟨.unmatched, ⟨hnamed, hmatched⟩, fun place h => (hfree place h).resolve_right ?_⟩
      rintro rfl
      obtain ⟨c, hcm, hnames⟩ := hnamed
      exact (orphan_iff hp hc hl hlm).mp h c hcm hnames
    · refine ⟨.orphan, (orphan_iff hp hc hl hlm).mpr fun c hcm hnames => hnamed ⟨c, hcm, hnames⟩,
        fun place h => (hfree place h).resolve_left ?_⟩
      rintro rfl
      exact hnamed h.1

end Places

/-- Where no two matched local items name the transaction of one ledger item, no
ledger item backs two matches, and each has one place. -/
theorem ledger_backs_once (runtime : Runtime) (input : ReconciliationInput)
    (hone : OneMatched runtime (known input)) :
    (∀ id, attachments (reconcile runtime input).matched id ≤ 1) ∧
      ∀ l ∈ (known input).ledger, orphanBreaks (reconcile runtime input).breaks l.id ≤ 1 ∧
        ∃! place : LedgerPlace, place.Holds runtime (known input) l := by
  obtain ⟨hp, hc, hl⟩ := known_nodup input
  refine ⟨fun id => ?_, fun l hlm => ⟨?_, ledger_item_place hp hc hl hone hlm⟩⟩
  · rw [← reconcile_known]
    exact attachments_le hp hc hl hone id
  · rw [← reconcile_known, orphanBreaks_eq hp hc]
    exact List.nodup_iff_count_le_one.mp (orphans_nodup hl runtime _) l.id

section Sample

def inTransaction (item : NormalizedItem) (ledgerTransactionId : String) : NormalizedItem :=
  { item with ledgerTransactionId := some ledgerTransactionId }

/-- One payment on all three sides, the ledger's side in two legs, and a second
local item of its transaction that the provider has not. -/
def twoLegs : ReconciliationInput :=
  { paymentInput [paymentItem .PROVIDER "itm_1" (some "E1") none 10 500]
      [inTransaction (paymentItem .LOCAL "itm_2" (some "E1") none 15 500) "ltx_1",
        inTransaction (paymentItem .LOCAL "itm_5" (some "E2") none 15 900) "ltx_1"] with
    ledger := [inTransaction (paymentItem .LEDGER "itm_3" none none 20 500) "ltx_1",
      inTransaction (paymentItem .LEDGER "itm_4" none none 20 500) "ltx_1"] }

theorem ledger_backs_once_two_legs :
    OneMatched textRuntime (known twoLegs) ∧
      attachments (reconcile textRuntime twoLegs).matched "itm_3" ≤ 1 ∧
      ∃! place : LedgerPlace, place.Holds textRuntime (known twoLegs)
        (inTransaction (paymentItem .LEDGER "itm_4" none none 20 500) "ltx_1") := by
  have hlinked : ∀ c ∈ (known twoLegs).localItems, (c.id = "" ∨
      ∀ m ∈ (reconcile textRuntime (known twoLegs)).matched, m.localItemId ≠ some c.id) ∨
        c.id = "itm_2" := by decide
  have hone : OneMatched textRuntime (known twoLegs) := by
    intro _ _ c hc c' hc' _ _ hlink hlink'
    have hid := (hlinked c hc).resolve_left hlink
    have hid' := (hlinked c' hc').resolve_left hlink'
    exact List.inj_on_of_nodup_map (known_nodup twoLegs).2.1 hc hc' (hid.trans hid'.symm)
  obtain ⟨honce, hplaces⟩ := ledger_backs_once textRuntime twoLegs hone
  exact ⟨hone, honce "itm_3", (hplaces _ (by decide)).2⟩

/-- A further leg of a matched transaction is taken with it and has no break. -/
theorem further_leg_unreported :
    ¬ ∀ (runtime : Runtime) (input : ReconciliationInput),
      (∀ id, attachments (reconcile runtime input).matched id ≤ 1) ∧
        ∀ l ∈ input.ledger, attachments (reconcile runtime input).matched l.id = 1 ∨
          orphanBreaks (reconcile runtime input).breaks l.id = 1 := by
  intro h
  have hleg := (h textRuntime twoLegs).2
    (inTransaction (paymentItem .LEDGER "itm_4" none none 20 500) "ltx_1") (by decide)
  revert hleg
  decide

end Sample

end BaasConnector.Reconciliation.LedgerUse
