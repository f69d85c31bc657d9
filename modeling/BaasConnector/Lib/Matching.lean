import BaasConnector.Lib.History
import Mathlib

namespace BaasConnector.Lib.Matching

variable {α β : Type}

/-- Two elements of a list that at most one passes are one. -/
theorem eq_of_countP_le_one {l : List α} {q : α → Bool} (h : l.countP q ≤ 1) {a b : α} (ha : a ∈ l)
    (hb : b ∈ l) (hqa : q a = true) (hqb : q b = true) : a = b := by
  rw [List.countP_eq_length_filter] at h
  have hma : a ∈ l.filter q := List.mem_filter.mpr ⟨ha, hqa⟩
  have hmb : b ∈ l.filter q := List.mem_filter.mpr ⟨hb, hqb⟩
  cases hl : l.filter q with
  | nil => rw [hl] at hma; cases hma
  | cons c rest =>
    rw [hl] at h hma hmb
    obtain rfl : rest = [] := List.length_eq_zero_iff.mp (by simpa using h)
    rw [List.mem_singleton.mp hma, List.mem_singleton.mp hmb]

/-- Each element of either list has one partner in the other. -/
structure Partners (r : α → β → Prop) (l : List α) (l' : List β) : Prop where
  left : ∀ a ∈ l, ∃ b ∈ l', r a b
  right : ∀ b ∈ l', ∃ a ∈ l, r a b
  functional : ∀ a ∈ l, ∀ b ∈ l', ∀ b' ∈ l', r a b → r a b' → b = b'
  injective : ∀ a ∈ l, ∀ a' ∈ l, ∀ b ∈ l', r a b → r a' b → a = a'

/-- What agrees between partners has one sum over both lists. -/
theorem Partners.sum_eq [DecidableEq α] [DecidableEq β] {r : α → β → Prop} {l : List α} {l' : List β}
    (h : Partners r l l') (hl : l.Nodup) (hl' : l'.Nodup) {f : α → Int} {g : β → Int}
    (hsame : ∀ a ∈ l, ∀ b ∈ l', r a b → f a = g b) : (l.map f).sum = (l'.map g).sum := by
  choose partner hmem hr using h.left
  rw [← List.sum_toFinset f hl, ← List.sum_toFinset g hl']
  refine Finset.sum_bij (fun a ha => partner a (List.mem_toFinset.mp ha)) ?_ ?_ ?_ ?_
  · intro a ha
    exact List.mem_toFinset.mpr (hmem a _)
  · intro a ha a' ha' he
    have hra' := hr a' (List.mem_toFinset.mp ha')
    rw [← he] at hra'
    exact h.injective a (List.mem_toFinset.mp ha) a' (List.mem_toFinset.mp ha') _ (hmem a _) (hr a _) hra'
  · intro b hb
    obtain ⟨a, ha, hab⟩ := h.right b (List.mem_toFinset.mp hb)
    exact ⟨a, List.mem_toFinset.mpr ha, h.functional a ha _ (hmem a ha) b (List.mem_toFinset.mp hb)
      (hr a ha) hab⟩
  · intro a ha
    exact hsame a (List.mem_toFinset.mp ha) _ (hmem a _) (hr a _)

end BaasConnector.Lib.Matching

namespace BaasConnector.Lib.Greedy

open BaasConnector.Lib.History

section Choice

variable {A : Type} {clash : A → A → Prop}

/-- A candidate loses to the ones before it, of which the last stands first: one
of them clashes with it and does not lose itself. -/
def Loses (clash : A → A → Prop) : List A → A → Prop
  | [], _ => False
  | b :: earlier, a => (clash b a ∧ ¬ Loses clash earlier b) ∨ Loses clash earlier a

def Loses.decidable [DecidableRel clash] : (earlier : List A) → (a : A) → Decidable (Loses clash earlier a)
  | [], _ => isFalse not_false
  | b :: earlier, a =>
    have := Loses.decidable earlier b
    have := Loses.decidable earlier a
    inferInstanceAs (Decidable ((clash b a ∧ ¬ Loses clash earlier b) ∨ Loses clash earlier a))

instance [DecidableRel clash] {earlier : List A} {a : A} : Decidable (Loses clash earlier a) :=
  Loses.decidable earlier a

theorem loses_iff {l : List A} {a : A} :
    Loses clash l.reverse a ↔ Once (fun before b => clash b a ∧ ¬ Loses clash before.reverse b) l := by
  induction l using List.reverseRecOn with
  | nil => exact iff_of_false not_false not_once_nil
  | append_singleton l b ih =>
    rw [List.reverse_append, List.reverse_singleton, List.singleton_append, once_append, ← ih]
    exact or_comm

/-- Take a candidate, unless it clashes with one that is taken. -/
def take (clash : A → A → Prop) [DecidableRel clash] (taken : List A) (a : A) : List A :=
  if ∃ b ∈ taken, clash b a then taken else taken ++ [a]

/-- The greedy choice takes each candidate that loses to none before it. -/
theorem mem_greedy [DecidableRel clash] {l : List A} {a : A} :
    a ∈ l.foldl (take clash) [] ↔
      Once (fun before b => b = a ∧ ¬ Loses clash before.reverse b) l := by
  induction l using List.reverseRecOn generalizing a with
  | nil => exact iff_of_false List.not_mem_nil not_once_nil
  | append_singleton l b ih =>
    have hclash : (∃ b' ∈ l.foldl (take clash) [], clash b' b) ↔ Loses clash l.reverse b := by
      rw [loses_iff]
      constructor
      · rintro ⟨b', hb', hclash⟩
        obtain ⟨before, b'', after, hsplit, rfl, hkept⟩ := ih.mp hb'
        exact ⟨before, b'', after, hsplit, hclash, hkept⟩
      · rintro ⟨before, b', after, hsplit, hclash, hkept⟩
        exact ⟨b', ih.mpr ⟨before, b', after, hsplit, rfl, hkept⟩, hclash⟩
    rw [List.foldl_append, List.foldl_cons, List.foldl_nil, take, once_append, ← ih]
    by_cases hloses : Loses clash l.reverse b
    · rw [if_pos (hclash.mpr hloses)]
      exact (or_iff_left fun h => h.2 hloses).symm
    · rw [if_neg fun h => hloses (hclash.mp h), List.mem_append, List.mem_singleton]
      refine or_congr_right ⟨fun h => ⟨h.symm, hloses⟩, fun h => h.1.symm⟩

theorem greedy_sublist [DecidableRel clash] (l : List A) : (l.foldl (take clash) []).Sublist l := by
  induction l using List.reverseRecOn with
  | nil => exact .slnil
  | append_singleton l b ih =>
    rw [List.foldl_append, List.foldl_cons, List.foldl_nil, take]
    split
    · exact ih.trans (List.sublist_append_left l [b])
    · exact ih.append (.refl [b])

/-- The greedy choice keeps the order of the candidates. -/
theorem greedy_eq_filter [DecidableRel clash] {l : List A} (hnodup : l.Nodup) {p : A → Prop} [DecidablePred p]
    (h : ∀ a, Once (fun before b => b = a ∧ ¬ Loses clash before.reverse b) l ↔ a ∈ l ∧ p a) :
    l.foldl (take clash) [] = l.filter fun a => decide (p a) := by
  have hmem : ∀ a, a ∈ l.foldl (take clash) [] ↔ a ∈ l.filter fun a => decide (p a) := by
    intro a
    rw [mem_greedy, h, List.mem_filter, decide_eq_true_eq]
  have hself : (l.foldl (take clash) []).filter (fun a => decide (p a)) = l.foldl (take clash) [] :=
    List.filter_eq_self.mpr fun a ha => (List.mem_filter.mp ((hmem a).mp ha)).2
  have htaken : (l.foldl (take clash) []).Sublist l := greedy_sublist l
  have hsub := htaken.filter fun a => decide (p a)
  rw [hself] at hsub
  exact hsub.eq_of_length_le
    (List.subperm_of_subset (hnodup.filter _) fun a ha => (hmem a).mpr ha).length_le

end Choice

section Service

variable {P C : Type} {near : P → C → Bool} {pool : List C}

/-- A candidate is spoken for when an element of the queue is near it whose other
candidates were all spoken for before. -/
inductive Spoken (near : P → C → Bool) (pool : List C) : List P → C → Prop
  | near {before after : List P} {p : P} {c : C} (hnear : near p c = true)
      (hothers : ∀ d ∈ pool, near p d = true → d ≠ c → Spoken near pool before d) :
      Spoken near pool (before ++ p :: after) c

theorem spoken_nil {c : C} : ¬ Spoken near pool [] c := by
  intro h
  generalize hqueue : ([] : List P) = queue at h
  cases h with
  | near => exact absurd hqueue (by simp)

theorem spoken_append {queue : List P} {p : P} {c : C} :
    Spoken near pool (queue ++ [p]) c ↔ Spoken near pool queue c ∨
      (near p c = true ∧ ∀ d ∈ pool, near p d = true → d ≠ c → Spoken near pool queue d) := by
  constructor
  · intro h
    generalize hqueue : queue ++ [p] = queue' at h
    cases h with
    | near hnear hothers =>
      obtain ⟨rfl, rfl⟩ | ⟨rest, -, rfl⟩ := append_split hqueue
      · exact .inr ⟨hnear, hothers⟩
      · exact .inl (.near hnear hothers)
  · rintro (h | ⟨hnear, hothers⟩)
    · cases h with
      | near hnear hothers =>
        rw [List.append_assoc, List.cons_append]
        exact .near hnear hothers
    · exact .near hnear hothers

/-- An element of the queue takes the one candidate that is left for it. -/
def serve [DecidableEq C] (near : P → C → Bool) (pool : List C) (p : P) : List C :=
  match pool.filter (near p) with
  | [c] => pool.erase c
  | _ => pool

theorem filter_eq_singleton [DecidableEq C] (hpool : pool.Nodup) {q : C → Bool} {c : C} :
    pool.filter q = [c] ↔ c ∈ pool ∧ q c = true ∧ ∀ d ∈ pool, q d = true → d = c := by
  constructor
  · intro h
    have hmem : ∀ d, d ∈ pool ∧ q d = true ↔ d = c := fun d => by
      rw [← List.mem_filter, h, List.mem_singleton]
    exact ⟨((hmem c).mpr rfl).1, ((hmem c).mpr rfl).2, fun d hd hq => (hmem d).mp ⟨hd, hq⟩⟩
  · rintro ⟨hc, hq, hone⟩
    refine List.perm_singleton.mp ((List.perm_ext_iff_of_nodup (hpool.filter q)
      (List.nodup_singleton c)).mpr fun d => ?_)
    rw [List.mem_filter, List.mem_singleton]
    exact ⟨fun hd => hone d hd.1 hd.2, fun hd => hd ▸ ⟨hc, hq⟩⟩

variable [DecidableEq C]

theorem mem_serve (hpool : pool.Nodup) {p : P} {c : C} :
    c ∈ serve near pool p ↔ c ∈ pool ∧ ¬ (near p c = true ∧ ∀ d ∈ pool, near p d = true → d = c) := by
  unfold serve
  split
  · next d hone =>
    obtain ⟨hd, hnear, hone⟩ := (filter_eq_singleton hpool).mp hone
    rw [hpool.mem_erase_iff, and_comm]
    refine and_congr_right fun hc => ⟨fun hne h => hne (hone c hc h.1), ?_⟩
    rintro h rfl
    exact h ⟨hnear, hone⟩
  · next hmany =>
    refine (and_iff_left_of_imp fun hc h => ?_).symm
    exact hmany c ((filter_eq_singleton hpool).mpr ⟨hc, h.1, h.2⟩)

theorem nodup_served (hpool : pool.Nodup) (queue : List P) : (queue.foldl (serve near) pool).Nodup := by
  induction queue using List.reverseRecOn with
  | nil => exact hpool
  | append_singleton queue p ih =>
    rw [List.foldl_append, List.foldl_cons, List.foldl_nil, serve]
    split
    · exact ih.erase _
    · exact ih

/-- What a queue leaves: the candidates that it does not speak for. -/
theorem mem_served (hpool : pool.Nodup) {queue : List P} {c : C} :
    c ∈ queue.foldl (serve near) pool ↔ c ∈ pool ∧ ¬ Spoken near pool queue c := by
  induction queue using List.reverseRecOn generalizing c with
  | nil => exact (and_iff_left spoken_nil).symm
  | append_singleton queue p ih =>
    rw [List.foldl_append, List.foldl_cons, List.foldl_nil, mem_serve (nodup_served hpool queue), ih,
      spoken_append, not_or, and_assoc]
    refine and_congr_right fun _ => and_congr_right fun _ => not_congr (and_congr_right fun _ => ?_)
    constructor
    · intro h d hd hnear hne
      by_contra hspoken
      exact hne (h d (ih.mpr ⟨hd, hspoken⟩) hnear)
    · intro h d hd hnear
      by_contra hne
      exact (ih.mp hd).2 (h d (ih.mp hd).1 hnear hne)

end Service

end BaasConnector.Lib.Greedy
