import BaasConnector.Reconciliation.FuzzyPairs

namespace BaasConnector.Reconciliation.WindowPairs

open BaasConnector.Lib.Keyed BaasConnector.Lib.Greedy BaasConnector.Lib.History
open BaasConnector.Reconciliation.Items BaasConnector.Reconciliation.Passes
open BaasConnector.Reconciliation.Motor BaasConnector.Reconciliation.Effects
open BaasConnector.Reconciliation.StrongPass BaasConnector.Reconciliation.Accounting
open BaasConnector.Reconciliation.Windowed BaasConnector.Reconciliation.Partition
open BaasConnector.Reconciliation.Provenance BaasConnector.Reconciliation.FuzzyPairs

section Turns

variable {runtime : Runtime} {policy : ReconciliationPolicy} {pool : List NormalizedItem}
  {p c : NormalizedItem}

/-- One turn of the loop, by the candidates that are left for the item. -/
theorem windowedEffect_filter (runtime : Runtime) (policy : ReconciliationPolicy) (pool : List NormalizedItem)
    (p : NormalizedItem) : windowedEffect runtime policy pool p =
      match pool.filter (dentroDaJanela policy p) with
      | [c] => ⟨[p.id], [c.id], [windowLink p c], []⟩
      | [] => ⟨[p.id], [], [], [missingLocalBreak p false]⟩
      | _ => ⟨[p.id], [], [], [missingLocalBreak p true]⟩ := by
  unfold windowedEffect
  cases hf : pool.filter (dentroDaJanela policy p) with
  | nil => rfl
  | cons c rest =>
    cases rest with
    | nil => rfl
    | cons d rest =>
      have hlength := List.length_insertionSort (byId runtime) (c :: d :: rest)
      cases hs : (c :: d :: rest).insertionSort (byId runtime) with
      | nil => rw [hs] at hlength; cases hlength
      | cons a sorted =>
        cases sorted with
        | nil => rw [hs] at hlength; cases hlength
        | cons b sorted => rfl

theorem mem_windowedEffect_matched (hpool : pool.Nodup) {m : MatchLink} :
    m ∈ (windowedEffect runtime policy pool p).matched ↔ ∃ c, (c ∈ pool ∧ dentroDaJanela policy p c = true ∧
      ∀ d ∈ pool, dentroDaJanela policy p d = true → d = c) ∧ m = windowLink p c := by
  simp only [← filter_eq_singleton hpool]
  rw [windowedEffect_filter]
  split
  · next c hone =>
    rw [hone, List.mem_singleton]
    exact ⟨fun h => ⟨c, rfl, h⟩, fun ⟨d, hd, h⟩ => by rw [h, (List.cons.inj hd).1]⟩
  · next hnone => exact iff_of_false List.not_mem_nil fun ⟨d, hd, _⟩ => by rw [hnone] at hd; cases hd
  · next hmany _ => exact iff_of_false List.not_mem_nil fun ⟨d, hd, _⟩ => hmany d hd

theorem mem_windowedEffect_breaks (hpool : pool.Nodup) {b : BreakDraft} :
    b ∈ (windowedEffect runtime policy pool p).breaks ↔
      (¬ ∃ c, c ∈ pool ∧ dentroDaJanela policy p c = true ∧
        ∀ d ∈ pool, dentroDaJanela policy p d = true → d = c) ∧
        b = missingLocalBreak p (decide (∃ c ∈ pool, dentroDaJanela policy p c = true)) := by
  simp only [← filter_eq_singleton hpool]
  have hsome : (∃ c ∈ pool, dentroDaJanela policy p c = true) ↔ pool.filter (dentroDaJanela policy p) ≠ [] := by
    rw [Ne, List.filter_eq_nil_iff]
    push Not
    rfl
  have hdecide : decide (∃ c ∈ pool, dentroDaJanela policy p c = true) =
      decide (pool.filter (dentroDaJanela policy p) ≠ []) := decide_eq_decide.mpr hsome
  rw [windowedEffect_filter, hdecide]
  split
  · next c hone => exact iff_of_false List.not_mem_nil fun h => h.1 ⟨c, hone⟩
  · next hnone => simp [hnone]
  · next hmany hnone =>
    rw [decide_eq_true (show pool.filter (dentroDaJanela policy p) ≠ [] from hnone), List.mem_singleton]
    exact (and_iff_right fun ⟨c, hc⟩ => hmany c hc).symm

/-- The local items that a turn leaves. -/
theorem windowedStep_local (runtime : Runtime) (policy : ReconciliationPolicy) {s : PassState}
    (hkeyed : Keyed s.localPool) (hp : (s.provider.get p.id).isSome) :
    Keyed (windowedStep runtime policy s p).localPool ∧
      (windowedStep runtime policy s p).localPool.values =
        serve (dentroDaJanela policy) s.localPool.values p := by
  rw [windowedStep_eq, if_neg (by simpa using Option.isSome_iff_ne_none.mp hp)]
  refine ⟨hkeyed.deleteAll _, ?_⟩
  change (s.localPool.deleteAll _).values = _
  have hnodup : s.localPool.values.Nodup := hkeyed.nodup.of_map _
  rw [hkeyed.values_deleteAll, windowedEffect_filter, serve]
  cases hf : s.localPool.values.filter (dentroDaJanela policy p) with
  | nil => simp
  | cons c rest =>
    cases rest with
    | cons d rest => simp
    | nil =>
      have hc := ((filter_eq_singleton hnodup).mp hf).1
      dsimp only
      rw [hnodup.erase_eq_filter]
      refine List.filter_congr fun d hd => ?_
      have hsame : d.id = c.id ↔ d = c := ⟨List.inj_on_of_nodup_map hkeyed.nodup hd hc, congrArg _⟩
      rw [Bool.eq_iff_iff, decide_eq_true_eq, bne_iff_ne, List.mem_singleton, hsame]

/-- The whole loop, by the candidates that its turns find. -/
theorem windowed_turns (runtime : Runtime) (policy : ReconciliationPolicy) {s : PassState}
    {items : List NormalizedItem} (hkeyed : Keyed s.localPool) (hitems : (ids items).Nodup)
    (hpool : ∀ p ∈ items, (s.provider.get p.id).isSome) :
    Keyed (items.foldl (windowedStep runtime policy) s).localPool ∧
    (items.foldl (windowedStep runtime policy) s).localPool.values =
      items.foldl (serve (dentroDaJanela policy)) s.localPool.values ∧
    (∀ m, m ∈ (items.foldl (windowedStep runtime policy) s).matched ↔ m ∈ s.matched ∨
      Once (fun before p => m ∈ (windowedEffect runtime policy
        (before.foldl (serve (dentroDaJanela policy)) s.localPool.values) p).matched) items) ∧
    ∀ b, b ∈ (items.foldl (windowedStep runtime policy) s).breaks ↔ b ∈ s.breaks ∨
      Once (fun before p => b ∈ (windowedEffect runtime policy
        (before.foldl (serve (dentroDaJanela policy)) s.localPool.values) p).breaks) items := by
  induction items using List.reverseRecOn with
  | nil => exact ⟨hkeyed, rfl, fun m => (or_iff_left not_once_nil).symm,
      fun b => (or_iff_left not_once_nil).symm⟩
  | append_singleton items p ih =>
    rw [ids, List.map_append] at hitems
    obtain ⟨hnodup, _, hdisjoint⟩ := List.nodup_append'.mp hitems
    obtain ⟨hkeyed', hlocal, hmatched, hbreaks⟩ := ih hnodup fun q hq => hpool q (List.mem_append_left _ hq)
    have hthere : ((items.foldl (windowedStep runtime policy) s).provider.get p.id).isSome := by
      have hnew : p.id ∉ ids items := fun h => hdisjoint h (List.mem_singleton_self _)
      rw [windowed_provider, if_neg hnew]
      exact hpool p (List.mem_append_right _ (List.mem_singleton_self p))
    obtain ⟨hkeyed'', hlocal'⟩ := windowedStep_local runtime policy hkeyed' hthere
    have hstep := windowedStep_eq runtime policy (items.foldl (windowedStep runtime policy) s) p
    rw [if_neg (by simpa using Option.isSome_iff_ne_none.mp hthere)] at hstep
    simp only [List.foldl_append, List.foldl_cons, List.foldl_nil]
    refine ⟨hkeyed'', by rw [hlocal', hlocal], fun m => ?_, fun b => ?_⟩
    · rw [hstep, once_append, ← or_assoc, ← hmatched, ← hlocal]
      exact List.mem_append
    · rw [hstep, once_append, ← or_assoc, ← hbreaks, ← hlocal]
      exact List.mem_append

end Turns

section Input

variable (runtime : Runtime) (input : ReconciliationInput)

/-- The items that come to the windowed pass, those of the provider in the order of
its loop. -/
def queue : List NormalizedItem :=
  (input.provider.filter fun p => decide (ProviderEnters runtime input p)).insertionSort (byId runtime)

def entrants : List NormalizedItem := input.localItems.filter fun c => decide (LocalEnters runtime input c)

/-- The provider items that come before one. -/
def earlier (p : NormalizedItem) : List NormalizedItem :=
  (queue runtime input).takeWhile fun q => decide (q.id ≠ p.id)

/-- A local item was spoken for before a provider item's turn: an earlier provider
item has it in its window, whose other local items were all spoken for before. -/
def SpokenBefore (p c : NormalizedItem) : Prop :=
  Spoken (dentroDaJanela input.policy) (entrants runtime input) (earlier runtime input p) c

/-- The windowed pass matches two items: the local item is the only one of the
window that was not spoken for before. -/
structure WindowPair (p c : NormalizedItem) : Prop where
  provider : ProviderEnters runtime input p
  localItem : LocalEnters runtime input c
  window : dentroDaJanela input.policy p c = true
  free : ¬ SpokenBefore runtime input p c
  only : ∀ d, LocalEnters runtime input d → dentroDaJanela input.policy p d = true → d ≠ c →
    SpokenBefore runtime input p d

variable {runtime input} {p c : NormalizedItem}

theorem mem_queue : p ∈ queue runtime input ↔ ProviderEnters runtime input p := by
  rw [queue, List.mem_insertionSort, List.mem_filter, decide_eq_true_eq]
  exact and_iff_right_of_imp fun h => h.1.mem

theorem mem_entrants : c ∈ entrants runtime input ↔ LocalEnters runtime input c := by
  rw [entrants, List.mem_filter, decide_eq_true_eq]
  exact and_iff_right_of_imp fun h => h.1.mem

variable (hp : (ids input.provider).Nodup) (hc : (ids input.localItems).Nodup)

include hp in
theorem queue_nodup (runtime : Runtime) : (ids (queue runtime input)).Nodup :=
  (((List.perm_insertionSort (byId runtime) _).map _).nodup_iff).mpr
    (hp.sublist (List.filter_sublist.map _))

include hc in
theorem entrants_nodup : (entrants runtime input).Nodup := (hc.of_map _).filter _

include hp in
theorem earlier_eq {before after : List NormalizedItem} (h : queue runtime input = before ++ p :: after) :
    earlier runtime input p = before := by
  have hnodup := queue_nodup hp runtime
  rw [h, ids, List.map_append, List.map_cons] at hnodup
  obtain ⟨_, _, hdisjoint⟩ := List.nodup_append'.mp hnodup
  rw [earlier, h, List.takeWhile_append_of_pos fun q hq => ?_, List.takeWhile_cons_of_neg (by simp),
    List.append_nil]
  exact decide_eq_true fun hid => hdisjoint (hid ▸ List.mem_map_of_mem hq) List.mem_cons_self

include hp in
theorem once_queue {P : List NormalizedItem → NormalizedItem → Prop} :
    Once P (queue runtime input) ↔ ∃ p, ProviderEnters runtime input p ∧ P (earlier runtime input p) p := by
  constructor
  · rintro ⟨before, p, after, hsplit, h⟩
    refine ⟨p, mem_queue.mp (by rw [hsplit]; exact List.mem_append_right _ List.mem_cons_self), ?_⟩
    rwa [earlier_eq hp hsplit]
  · rintro ⟨p, hm, h⟩
    obtain ⟨before, after, hsplit⟩ := List.append_of_mem (mem_queue.mpr hm)
    rw [earlier_eq hp hsplit] at h
    exact ⟨before, p, after, hsplit, h⟩

/-- The local items that are left at a provider item's turn. -/
def leftFor (runtime : Runtime) (input : ReconciliationInput) (p : NormalizedItem) : List NormalizedItem :=
  (earlier runtime input p).foldl (serve (dentroDaJanela input.policy)) (entrants runtime input)

include hc in
theorem mem_leftFor : c ∈ leftFor runtime input p ↔
    LocalEnters runtime input c ∧ ¬ SpokenBefore runtime input p c := by
  rw [leftFor, mem_served (entrants_nodup hc), mem_entrants]
  rfl

include hc in
theorem windowPair_iff : WindowPair runtime input p c ↔ ProviderEnters runtime input p ∧
    c ∈ leftFor runtime input p ∧ dentroDaJanela input.policy p c = true ∧
      ∀ d ∈ leftFor runtime input p, dentroDaJanela input.policy p d = true → d = c := by
  simp only [mem_leftFor hc]
  constructor
  · intro h
    refine ⟨h.provider, ⟨h.localItem, h.free⟩, h.window, fun d hd hw => ?_⟩
    by_contra hne
    exact hd.2 (h.only d hd.1 hw hne)
  · rintro ⟨hprovider, ⟨hlocal, hfree⟩, hw, honly⟩
    refine ⟨hprovider, hlocal, hw, hfree, fun d hd hdw hne => ?_⟩
    by_contra hspoken
    exact hne (honly d ⟨hd, hspoken⟩ hdw)

include hp hc in
/-- The loop of the windowed pass, read off the input. -/
theorem loop_spec (runtime : Runtime) :
    let v := (queue runtime input).foldl (windowedStep runtime input.policy) (entered runtime input)
    (∀ c, c ∈ v.localPool.values ↔ LocalEnters runtime input c ∧
      ¬ Spoken (dentroDaJanela input.policy) (entrants runtime input) (queue runtime input) c) ∧
    (∀ m, m ∈ v.matched ↔ m ∈ (entered runtime input).matched ∨
      ∃ p c, WindowPair runtime input p c ∧ m = windowLink p c) ∧
    ∀ b, b ∈ v.breaks ↔ b ∈ (entered runtime input).breaks ∨
      ∃ p, ProviderEnters runtime input p ∧ (¬ ∃ c, WindowPair runtime input p c) ∧
        b = missingLocalBreak p (decide (∃ c ∈ leftFor runtime input p, dentroDaJanela input.policy p c)) := by
  obtain ⟨hpv, hcv⟩ := entered_values hp hc runtime
  have hpart : Partitioned input (entered runtime input) := partitioned_passes (partitioned_start hp hc)
  have hthere : ∀ p ∈ queue runtime input, ((entered runtime input).provider.get p.id).isSome := by
    intro p hm
    rw [queue, List.mem_insertionSort, ← hpv] at hm
    rw [hpart.providerKeyed.get.mpr ⟨hm, rfl⟩]
    rfl
  obtain ⟨_, hlocal, hmatched, hbreaks⟩ := windowed_turns runtime input.policy
    hpart.localKeyed (queue_nodup hp runtime) hthere
  have hentrants : (entered runtime input).localPool.values = entrants runtime input := hcv
  rw [hentrants] at hlocal
  simp only [hentrants] at hmatched hbreaks
  have hnodup : ∀ p, (leftFor runtime input p).Nodup := fun p => nodup_served (entrants_nodup hc) _
  intro v
  refine ⟨fun c => ?_, fun m => ?_, fun b => ?_⟩
  · rw [hlocal, mem_served (entrants_nodup hc), mem_entrants]
  · rw [hmatched]
    refine or_congr_right ((once_queue hp).trans (exists_congr fun p => ?_))
    change ProviderEnters runtime input p ∧
      m ∈ (windowedEffect runtime input.policy (leftFor runtime input p) p).matched ↔ _
    rw [mem_windowedEffect_matched (hnodup p), ← exists_and_left]
    refine exists_congr fun c => ?_
    rw [windowPair_iff hc, ← and_assoc]
  · rw [hbreaks]
    refine or_congr_right ((once_queue hp).trans (exists_congr fun p => and_congr_right fun hm => ?_))
    change b ∈ (windowedEffect runtime input.policy (leftFor runtime input p) p).breaks ↔ _
    rw [mem_windowedEffect_breaks (hnodup p)]
    simp only [windowPair_iff hc, and_iff_right hm]

include hp hc in
/-- The search ends with the local items that the loop has left. -/
theorem searched_loop (runtime : Runtime) :
    let v := (queue runtime input).foldl (windowedStep runtime input.policy) (entered runtime input)
    (searched runtime input).matched = v.matched ∧
      (searched runtime input).breaks = v.breaks ++ ((v.localPool.values.insertionSort (byId runtime)).filter
        fun c => !young input.policy input.now c).map (missingProviderBreak input.now) := by
  obtain ⟨hpv, _⟩ := entered_values hp hc runtime
  have hsearched : searched runtime input =
      passWindowedFuzzy runtime input.policy input.now (entered runtime input) := rfl
  rw [hsearched]
  unfold passWindowedFuzzy
  dsimp only
  rw [leftover_eq, hpv]
  exact ⟨List.append_nil _, rfl⟩

include hp hc in
/-- The matches of the search: the strong pass's, a bucket's, a window's. -/
theorem mem_searched_matched {m : MatchLink} : m ∈ (searched runtime input).matched ↔
    (∃ k p c, Meet runtime input k p c ∧ m = ⟨some p.id, some c.id, none, .EXACT, 1, false⟩) ∨
    (∃ p c, FuzzyPair runtime input p c ∧
      m = pairLink (decide (Ambiguous runtime input p.matchKeyFuzzy)) (p, c)) ∨
    ∃ p c, WindowPair runtime input p c ∧ m = windowLink p c := by
  obtain ⟨_, hmatched, _⟩ := loop_spec hp hc runtime
  rw [(searched_loop hp hc runtime).1, hmatched, entered_eq hp hc, ← mem_strongPlan_matched,
    ← mem_fuzzyPlan_matched, ← or_assoc]
  refine or_congr_left ?_
  change m ∈ ([] ++ _) ++ _ ↔ _
  rw [List.nil_append, List.mem_append]

include hp hc in
/-- The breaks of the search: what the first two passes report, the provider items
that no window has matched, and the local items that are left and not young. -/
theorem mem_searched_breaks {b : BreakDraft} : b ∈ (searched runtime input).breaks ↔
    (b ∈ (strongPlan runtime input.policy input.provider input.localItems).breaks ∨
      b ∈ (fuzzyPlan runtime input).breaks) ∨
    (∃ p, ProviderEnters runtime input p ∧ (¬ ∃ c, WindowPair runtime input p c) ∧
      b = missingLocalBreak p (decide (∃ c ∈ leftFor runtime input p, dentroDaJanela input.policy p c))) ∨
    ∃ c, LocalEnters runtime input c ∧
      ¬ Spoken (dentroDaJanela input.policy) (entrants runtime input) (queue runtime input) c ∧
        young input.policy input.now c = false ∧ b = missingProviderBreak input.now c := by
  obtain ⟨hlocal, _, hbreaks⟩ := loop_spec hp hc runtime
  have hentered : b ∈ (entered runtime input).breaks ↔
      b ∈ (strongPlan runtime input.policy input.provider input.localItems).breaks ∨
        b ∈ (fuzzyPlan runtime input).breaks := by
    rw [entered_eq hp hc]
    change b ∈ ([] ++ _) ++ _ ↔ _
    rw [List.nil_append, List.mem_append]
  rw [(searched_loop hp hc runtime).2, List.mem_append, hbreaks, hentered, or_assoc]
  simp only [List.mem_map, List.mem_filter, List.mem_insertionSort, hlocal, Bool.not_eq_true', and_assoc,
    eq_comm (b := b)]

end Input

end BaasConnector.Reconciliation.WindowPairs
