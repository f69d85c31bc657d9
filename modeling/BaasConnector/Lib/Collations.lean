import Mathlib.Data.List.Lex
import Mathlib.Tactic.Common

namespace BaasConnector.Lib.Collations

/-- An order of texts in which no two of them are level. -/
structure Collation where
  Key : Type
  order : LinearOrder Key
  key : String → Key
  injective : Function.Injective key

scoped instance (collation : Collation) : LinearOrder collation.Key := collation.order

/-- The UTF-16 code units of a character. -/
def charUnits (char : Char) : List ℕ :=
  if char.toNat < 0x10000 then [char.toNat]
  else [0xD800 + (char.toNat - 0x10000) / 0x400, 0xDC00 + (char.toNat - 0x10000) % 0x400]

def utf16 (text : String) : List ℕ := text.toList.flatMap charUnits

theorem char_not_surrogate (char : Char) : char.toNat < 0xD800 ∨ 0xDFFF < char.toNat := by
  obtain h | h := char.valid
  · exact Or.inl h
  · exact Or.inr h.1

theorem char_lt (char : Char) : char.toNat < 0x110000 := by
  obtain h | h := char.valid
  · have hlt : char.toNat < 0xD800 := h
    omega
  · exact h.2

theorem charUnits_append {c d : Char} {s t : List ℕ} (h : charUnits c ++ s = charUnits d ++ t) :
    c = d ∧ s = t := by
  have hc := char_not_surrogate c
  have hd := char_not_surrogate d
  have hc' := char_lt c
  have hd' := char_lt d
  unfold charUnits at h
  by_cases hbc : c.toNat < 0x10000 <;> by_cases hbd : d.toNat < 0x10000
  · rw [if_pos hbc, if_pos hbd] at h
    obtain ⟨hunit, hrest⟩ := List.cons.inj h
    exact ⟨Char.toNat_inj.mp hunit, hrest⟩
  · rw [if_pos hbc, if_neg hbd] at h
    have hunit := (List.cons.inj h).1
    omega
  · rw [if_neg hbc, if_pos hbd] at h
    have hunit := (List.cons.inj h).1
    omega
  · rw [if_neg hbc, if_neg hbd] at h
    obtain ⟨hhigh, hrest⟩ := List.cons.inj h
    obtain ⟨hlow, hrest⟩ := List.cons.inj hrest
    refine ⟨Char.toNat_inj.mp ?_, hrest⟩
    omega

theorem charUnits_ne_nil (char : Char) : charUnits char ≠ [] := by
  unfold charUnits
  by_cases h : char.toNat < 0x10000
  · rw [if_pos h]
    exact List.cons_ne_nil _ _
  · rw [if_neg h]
    exact List.cons_ne_nil _ _

theorem flatMap_charUnits_inj {s t : List Char} (h : s.flatMap charUnits = t.flatMap charUnits) : s = t := by
  induction s generalizing t with
  | nil =>
    cases t with
    | nil => rfl
    | cons d t => exact absurd (List.append_eq_nil_iff.mp h.symm).1 (charUnits_ne_nil d)
  | cons c s ih =>
    cases t with
    | nil => exact absurd (List.append_eq_nil_iff.mp h).1 (charUnits_ne_nil c)
    | cons d t =>
      obtain ⟨hchar, hrest⟩ := charUnits_append h
      rw [hchar, ih hrest]

theorem utf16_injective : Function.Injective utf16 := fun _ _ h => String.ext (flatMap_charUnits_inj h)

/-- The order that a text's code units give it. -/
def codeUnits : Collation := ⟨List ℕ, inferInstance, utf16, utf16_injective⟩

example : codeUnits.key "\uFFFD" > codeUnits.key "😀" := by decide

end BaasConnector.Lib.Collations
