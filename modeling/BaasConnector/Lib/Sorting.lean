import Mathlib.Data.List.Chain
import Mathlib.Data.List.Sort

namespace BaasConnector.Lib.Chains

variable {α : Type} {R : α → α → Prop} {p : α → Bool} {l : List α}

/-- A test that leaves no gap: what stands between two chosen elements is chosen. -/
def Gapless (p : α → Bool) (l : List α) : Prop :=
  ∀ a b c, [a, b, c].Sublist l → p a = true → p c = true → p b = true

theorem Gapless.tail {a : α} (h : Gapless p (a :: l)) : Gapless p l :=
  fun x y z hs => h x y z (hs.cons a)

/-- What a gapless test chooses from a chain is a chain. -/
theorem isChain_filter (h : l.IsChain R) (hgap : Gapless p l) : (l.filter p).IsChain R := by
  induction l with
  | nil => exact .nil
  | cons a l ih =>
    obtain ⟨hhead, htail⟩ := List.isChain_cons.mp h
    have hrest := ih htail hgap.tail
    by_cases ha : p a = true
    · rw [List.filter_cons_of_pos ha]
      refine hrest.cons fun y hy => ?_
      cases l with
      | nil => cases hy
      | cons b l =>
        by_cases hb : p b = true
        · rw [List.filter_cons_of_pos hb, List.head?_cons, Option.mem_some_iff] at hy
          exact hy ▸ hhead b rfl
        · rw [List.filter_cons_of_neg hb] at hy
          obtain ⟨hmem, hp⟩ := List.mem_filter.mp (List.mem_of_mem_head? hy)
          have hs : [a, b, y].Sublist (a :: b :: l) :=
            ((List.singleton_sublist.mpr hmem).cons_cons b).cons_cons a
          exact absurd (hgap a b y hs ha hp) hb
    · rw [List.filter_cons_of_neg ha]
      exact hrest

end BaasConnector.Lib.Chains

namespace BaasConnector.Lib.Sorting

variable {α : Type} {r : α → α → Prop}

/-- The relation puts the elements of a list into one order. -/
structure Orders (r : α → α → Prop) (l : List α) : Prop where
  total : ∀ a ∈ l, ∀ b ∈ l, r a b ∨ r b a
  trans : ∀ a ∈ l, ∀ b ∈ l, ∀ c ∈ l, r a b → r b c → r a c
  antisymm : ∀ a ∈ l, ∀ b ∈ l, r a b → r b a → a = b

theorem Orders.subset {l l' : List α} (h : Orders r l) (hs : ∀ a ∈ l', a ∈ l) : Orders r l' where
  total a ha b hb := h.total a (hs a ha) b (hs b hb)
  trans a ha b hb c hc := h.trans a (hs a ha) b (hs b hb) c (hs c hc)
  antisymm a ha b hb := h.antisymm a (hs a ha) b (hs b hb)

theorem orders_le {α : Type} [LE α] [Std.IsLinearOrder α] (l : List α) : Orders (· ≤ ·) l where
  total _ _ _ _ := Std.le_total
  trans _ _ _ _ _ _ := Std.le_trans
  antisymm _ _ _ _ := Std.le_antisymm

variable [DecidableRel r]

theorem pairwise_orderedInsert {a : α} {l : List α} (h : Orders r (a :: l)) (hl : l.Pairwise r) :
    (l.orderedInsert r a).Pairwise r := by
  induction l with
  | nil => exact List.pairwise_singleton r a
  | cons b l ih =>
    have ha : a ∈ a :: b :: l := List.mem_cons_self
    have hb : b ∈ a :: b :: l := List.mem_cons_of_mem a List.mem_cons_self
    obtain ⟨hbl, hl'⟩ := List.pairwise_cons.mp hl
    by_cases hab : r a b
    · rw [List.orderedInsert_cons_of_le r l hab]
      refine List.pairwise_cons.mpr ⟨fun c hc => ?_, hl⟩
      obtain rfl | hc' := List.mem_cons.mp hc
      · exact hab
      · exact h.trans a ha b hb c (List.mem_cons_of_mem a hc) hab (hbl c hc')
    · rw [List.orderedInsert_of_not_le r l hab]
      have hba : r b a := (h.total a ha b hb).resolve_left hab
      refine List.pairwise_cons.mpr ⟨fun c hc => ?_, ih (h.subset fun c hc => ?_) hl'⟩
      · obtain rfl | hc := (List.mem_orderedInsert r).mp hc
        · exact hba
        · exact hbl c hc
      · obtain rfl | hc := List.mem_cons.mp hc
        · exact ha
        · exact List.mem_cons_of_mem a (List.mem_cons_of_mem b hc)

theorem pairwise_insertionSort {l : List α} (h : Orders r l) : (l.insertionSort r).Pairwise r := by
  induction l with
  | nil => exact List.Pairwise.nil
  | cons a l ih =>
    rw [List.insertionSort_cons]
    refine pairwise_orderedInsert (h.subset fun b hb => ?_)
      (ih (h.subset fun b hb => List.mem_cons_of_mem a hb))
    obtain rfl | hb := List.mem_cons.mp hb
    · exact List.mem_cons_self
    · exact List.mem_cons_of_mem a ((List.mem_insertionSort r).mp hb)

/-- What a list is sorted into does not depend on the order it comes in. -/
theorem insertionSort_eq_of_perm {l l' : List α} (h : Orders r l) (hp : l.Perm l') :
    l.insertionSort r = l'.insertionSort r := by
  have hs := pairwise_insertionSort h
  have hs' := pairwise_insertionSort (h.subset fun a ha => hp.mem_iff.mpr ha)
  have hsort : (l.insertionSort r).Perm (l'.insertionSort r) :=
    (List.perm_insertionSort r l).trans (hp.trans (List.perm_insertionSort r l').symm)
  refine List.Perm.eq_of_pairwise (fun a b ha hb => ?_) hs hs' hsort
  exact h.antisymm a ((List.mem_insertionSort r).mp ha) b
    (hp.mem_iff.mpr ((List.mem_insertionSort r).mp hb))

theorem orderedInsert_congr {r' : α → α → Prop} [DecidableRel r'] {a : α} {l : List α}
    (h : ∀ b ∈ l, (r a b ↔ r' a b)) : l.orderedInsert r a = l.orderedInsert r' a := by
  induction l with
  | nil => rfl
  | cons b l ih =>
    have hb := h b List.mem_cons_self
    have hl := ih fun c hc => h c (List.mem_cons_of_mem b hc)
    by_cases hab : r a b
    · rw [List.orderedInsert_cons_of_le r l hab, List.orderedInsert_cons_of_le r' l (hb.mp hab)]
    · rw [List.orderedInsert_of_not_le r l hab, List.orderedInsert_of_not_le r' l (mt hb.mpr hab), hl]

/-- Sorting never compares an element with one that stands before it, or with itself. -/
theorem insertionSort_congr {r' : α → α → Prop} [DecidableRel r'] {l : List α}
    (h : l.Pairwise fun a b => (r a b ↔ r' a b)) : l.insertionSort r = l.insertionSort r' := by
  induction l with
  | nil => rfl
  | cons a l ih =>
    obtain ⟨ha, hl⟩ := List.pairwise_cons.mp h
    rw [List.insertionSort_cons, List.insertionSort_cons, ih hl]
    exact orderedInsert_congr fun b hb => ha b ((List.mem_insertionSort r').mp hb)

end BaasConnector.Lib.Sorting
