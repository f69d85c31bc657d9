import Mathlib.Data.List.Basic

namespace BaasConnector.Lib.Separators

variable {α : Type} {c : α} {a b xs ys : List α}

/-- A separator that two words do not contain tells where they end. -/
theorem split_at_separator (ha : c ∉ a) (hb : c ∉ b) (h : a ++ c :: xs = b ++ c :: ys) :
    a = b ∧ xs = ys := by
  induction a generalizing b with
  | nil =>
    cases b with
    | nil => simpa using h
    | cons d b =>
      have hc : c = d := (List.cons.inj h).1
      exact absurd (List.mem_cons.mpr (.inl hc)) hb
  | cons d a ih =>
    cases b with
    | nil =>
      have hc : d = c := (List.cons.inj h).1
      exact absurd (List.mem_cons.mpr (.inl hc.symm)) ha
    | cons e b =>
      obtain ⟨rfl, htail⟩ := List.cons.inj h
      obtain ⟨rfl, hxs⟩ := ih (fun hm => ha (List.mem_cons_of_mem _ hm))
        (fun hm => hb (List.mem_cons_of_mem _ hm)) htail
      exact ⟨rfl, hxs⟩

theorem prefix_at_separator (ha : c ∉ a) (hb : c ∉ b) :
    a ++ c :: xs <+: b ++ c :: ys ↔ a = b ∧ xs <+: ys := by
  constructor
  · rintro ⟨rest, h⟩
    rw [List.append_assoc, List.cons_append] at h
    obtain ⟨hab, hxs⟩ := split_at_separator ha hb h
    exact ⟨hab, rest, hxs⟩
  · rintro ⟨rfl, hxs⟩
    exact (List.prefix_append_right_inj a).mpr (List.cons_prefix_cons.mpr ⟨rfl, hxs⟩)

theorem prefix_before_separator (ha : c ∉ a) : a <+: b ++ c :: ys ↔ a <+: b := by
  constructor
  · intro h
    by_cases hlen : a.length ≤ b.length
    · exact List.prefix_of_prefix_length_le h (List.prefix_append b _) hlen
    · have hb : b ++ [c] <+: b ++ c :: ys := (List.prefix_append_right_inj b).mpr ⟨ys, rfl⟩
      have hlonger : b ++ [c] <+: a := List.prefix_of_prefix_length_le hb h (by simp; omega)
      exact absurd (hlonger.subset (by simp)) ha
  · intro h
    exact h.trans (List.prefix_append b _)

/-- Texts without the separator come back out of what they are joined to. -/
theorem intercalate_inj {c : Char} {as bs : List String} (ha : ∀ s ∈ as, c ∉ s.toList)
    (hb : ∀ s ∈ bs, c ∉ s.toList) (has : as ≠ []) (hbs : bs ≠ [])
    (h : (String.singleton c).intercalate as = (String.singleton c).intercalate bs) : as = bs := by
  have hsplit := String.toList_split_intercalate ha
  rw [h, String.toList_split_intercalate hb, if_neg has, if_neg hbs] at hsplit
  exact hsplit.symm

end BaasConnector.Lib.Separators
