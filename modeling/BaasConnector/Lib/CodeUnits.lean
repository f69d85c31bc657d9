import Mathlib.Data.List.DropRight

namespace BaasConnector.Lib.CodeUnits

/-- A text as its UTF-16 code units. -/
abbrev Text := List UInt16

/-- The code units of a text whose characters take one each. -/
def units (text : String) : Text := text.toList.map fun char => char.val.toUInt16

/-- The code units of a character, a pair of surrogates from the first plane on. -/
def charUnits (char : Char) : Text :=
  if char.toNat < 0x10000 then [UInt16.ofNat char.toNat]
  else [UInt16.ofNat (0xD800 + (char.toNat - 0x10000) / 0x400),
    UInt16.ofNat (0xDC00 + (char.toNat - 0x10000) % 0x400)]

def utf16 (text : String) : Text := text.toList.flatMap charUnits

theorem utf16_append (a b : String) : utf16 (a ++ b) = utf16 a ++ utf16 b := by
  rw [utf16, String.toList_append, List.flatMap_append]
  rfl

theorem utf16_ofList (chars : List Char) : utf16 (String.ofList chars) = chars.flatMap charUnits := by
  rw [utf16, String.toList_ofList]

/-- White space and line terminators. -/
def isSpace (unit : UInt16) : Bool :=
  unit ∈ [0x9, 0xA, 0xB, 0xC, 0xD, 0x20, 0xA0, 0x1680, 0x2028, 0x2029, 0x202F, 0x205F, 0x3000, 0xFEFF] ||
    (0x2000 ≤ unit && unit ≤ 0x200A)

def trim (text : Text) : Text := (text.dropWhile isSpace).rdropWhile isSpace

def isDigit (unit : UInt16) : Bool := 0x30 ≤ unit && unit ≤ 0x39

def digitValue (unit : UInt16) : Option Nat :=
  if isDigit unit then some (unit.toNat - 0x30)
  else if 0x61 ≤ unit ∧ unit ≤ 0x66 then some (unit.toNat - 0x57)
  else if 0x41 ≤ unit ∧ unit ≤ 0x46 then some (unit.toNat - 0x37)
  else none

/-- A digit in base sixteen, a letter being a capital or not. -/
def hexDigit (capital : Bool) (value : Nat) : UInt16 :=
  UInt16.ofNat (if value < 10 then 0x30 + value else (if capital then 0x37 else 0x57) + value)

/-- The four digits in base sixteen of a number below 65536. -/
def hexDigits (capital : Bool) (value : Nat) : Text :=
  [value / 4096, value / 256 % 16, value / 16 % 16, value % 16].map (hexDigit capital)

def readDigit (base : Nat) (unit : UInt16) : Option Nat :=
  (digitValue unit).filter fun value => decide (value < base)

/-- A number in a base, of one digit or more. -/
def readDigits (base : Nat) : Text → Option Nat
  | [] => none
  | text => text.foldlM (fun value unit => (readDigit base unit).map (value * base + ·)) 0

/-- The integer that a text is converted to. -/
def readInteger (text : Text) : Option Int :=
  match trim text with
  | [] => some 0
  | [unit] => (readDigits 10 [unit]).map Int.ofNat
  | sign :: mark :: digits =>
    if sign = 0x30 ∧ (mark = 0x78 ∨ mark = 0x58) then (readDigits 16 digits).map Int.ofNat
    else if sign = 0x30 ∧ (mark = 0x6F ∨ mark = 0x4F) then (readDigits 8 digits).map Int.ofNat
    else if sign = 0x30 ∧ (mark = 0x62 ∨ mark = 0x42) then (readDigits 2 digits).map Int.ofNat
    else if sign = 0x2D then (readDigits 10 (mark :: digits)).map fun value => -(value : Int)
    else if sign = 0x2B then (readDigits 10 (mark :: digits)).map Int.ofNat
    else (readDigits 10 (sign :: mark :: digits)).map Int.ofNat

/-- The capitals of the ASCII letters. -/
def upper (unit : UInt16) : UInt16 := if 0x61 ≤ unit ∧ unit ≤ 0x7A then unit - 0x20 else unit

def lower (unit : UInt16) : UInt16 := if 0x41 ≤ unit ∧ unit ≤ 0x5A then unit + 0x20 else unit

theorem digitValue_hexDigit (capital : Bool) {value : Nat} (h : value < 16) :
    digitValue (hexDigit capital value) = some value := by
  have hall : ∀ (capital : Bool) (digit : Fin 16), digitValue (hexDigit capital digit) = some digit.val := by
    decide
  exact hall capital ⟨value, h⟩

theorem hexDigit_injective {capital : Bool} {a b : Nat} (ha : a < 16) (hb : b < 16)
    (h : hexDigit capital a = hexDigit capital b) : a = b := by
  have hvalue := congrArg digitValue h
  rwa [digitValue_hexDigit capital ha, digitValue_hexDigit capital hb, Option.some.injEq] at hvalue

theorem hexDigits_injective {capital : Bool} {a b : Nat} (ha : a < 65536) (hb : b < 65536)
    (h : hexDigits capital a = hexDigits capital b) : a = b := by
  simp only [hexDigits, List.map_cons, List.map_nil, List.cons.injEq, and_true] at h
  have h1 := hexDigit_injective (by omega) (by omega) h.1
  have h2 := hexDigit_injective (Nat.mod_lt _ (by decide)) (Nat.mod_lt _ (by decide)) h.2.1
  have h3 := hexDigit_injective (Nat.mod_lt _ (by decide)) (Nat.mod_lt _ (by decide)) h.2.2.1
  have h4 := hexDigit_injective (Nat.mod_lt _ (by decide)) (Nat.mod_lt _ (by decide)) h.2.2.2
  omega

theorem mem_hexDigits {capital : Bool} {value : Nat} {unit : UInt16} (hvalue : value < 65536)
    (h : unit ∈ hexDigits capital value) : ∃ digit < 16, unit = hexDigit capital digit := by
  obtain ⟨digit, hmem, rfl⟩ := List.mem_map.mp h
  refine ⟨digit, ?_, rfl⟩
  simp only [List.mem_cons, List.not_mem_nil, or_false] at hmem
  omega

/-- The order of texts, which compares them unit by unit. -/
def less : Text → Text → Bool
  | _, [] => false
  | [], _ :: _ => true
  | unit :: text, other :: rest => unit < other || (unit == other && less text rest)

theorem forall_units {p : UInt16 → Prop} [DecidablePred p] {text : Text}
    (h : text.all (fun unit => decide (p unit)) = true) : ∀ unit ∈ text, p unit :=
  fun unit hmem => of_decide_eq_true (List.all_eq_true.mp h unit hmem)

theorem less_cons {unit other : UInt16} {text rest : Text} :
    less (unit :: text) (other :: rest) = true ↔ unit < other ∨ unit = other ∧ less text rest = true := by
  rw [less, Bool.or_eq_true, Bool.and_eq_true, decide_eq_true_eq, beq_iff_eq]

theorem less_append {a b : Text} (hlen : a.length = b.length) (c d : Text) :
    less (a ++ c) (b ++ d) = true ↔ less a b = true ∨ a = b ∧ less c d = true := by
  induction a generalizing b with
  | nil =>
    rw [List.length_eq_zero_iff.mp hlen.symm]
    simp [less]
  | cons unit a ih =>
    cases b with
    | nil => exact absurd hlen (Nat.succ_ne_zero _)
    | cons other b =>
      rw [List.cons_append, List.cons_append, less_cons, less_cons, ih (Nat.succ.inj hlen), List.cons.injEq]
      tauto

theorem trim_eq {text : Text} (hfirst : ∀ unit, text.head? = some unit → isSpace unit = false)
    (hlast : ∀ unit, text.getLast? = some unit → isSpace unit = false) : trim text = text := by
  cases text with
  | nil => rfl
  | cons unit text =>
    rw [trim, List.dropWhile_cons_of_neg (by rw [hfirst unit rfl]; exact Bool.false_ne_true),
      List.rdropWhile_eq_self_iff]
    intro hne
    rw [hlast _ (List.getLast?_eq_getLast_of_ne_nil hne)]
    exact Bool.false_ne_true

def Spaces (text : Text) : Prop := ∀ unit ∈ text, isSpace unit = true

theorem trim_between {before text after : Text} (hbefore : Spaces before) (hafter : Spaces after)
    (hfirst : ∀ unit, text.head? = some unit → isSpace unit = false)
    (hlast : ∀ unit, text.getLast? = some unit → isSpace unit = false) (hne : text ≠ []) :
    trim (before ++ text ++ after) = text := by
  have hdrop : (before ++ text ++ after).dropWhile isSpace = text ++ after := by
    obtain ⟨unit, rest, rfl⟩ := List.exists_cons_of_ne_nil hne
    rw [List.append_assoc, List.dropWhile_append_of_pos hbefore, List.cons_append,
      List.dropWhile_cons_of_neg (by rw [hfirst unit rfl]; exact Bool.false_ne_true)]
  have hreverse : ∀ unit ∈ after.reverse, isSpace unit = true := fun unit hmem =>
    hafter unit (List.mem_reverse.mp hmem)
  have hself : text.rdropWhile isSpace = text := by
    rw [List.rdropWhile_eq_self_iff]
    intro hne
    rw [hlast _ (List.getLast?_eq_getLast_of_ne_nil hne)]
    exact Bool.false_ne_true
  rw [trim, hdrop, List.rdropWhile, List.reverse_append, List.dropWhile_append_of_pos hreverse]
  exact hself

theorem trim_split (text : Text) :
    ∃ before after, text = before ++ trim text ++ after ∧ Spaces before ∧ Spaces after := by
  refine ⟨text.takeWhile isSpace, ((text.dropWhile isSpace).reverse.takeWhile isSpace).reverse, ?_,
    fun unit => List.mem_takeWhile_imp, fun unit hmem =>
      List.mem_takeWhile_imp (List.mem_reverse.mp hmem)⟩
  rw [trim, List.rdropWhile, List.append_assoc, ← List.reverse_append, List.takeWhile_append_dropWhile,
    List.reverse_reverse, List.takeWhile_append_dropWhile]

theorem trim_solid {text : Text} (h : ∀ unit ∈ text, isSpace unit = false) : trim text = text :=
  trim_eq (fun unit hunit => h unit (List.mem_of_head? hunit))
    fun unit hunit => h unit (List.mem_of_getLast? hunit)

/-- A text of a fixed length, each unit of its own class. -/
def fits : List (UInt16 → Bool) → Text → Bool
  | [], [] => true
  | p :: classes, unit :: text => p unit && fits classes text
  | _, _ => false

theorem fits_cons (p : UInt16 → Bool) (classes : List (UInt16 → Bool)) (unit : UInt16) (text : Text) :
    fits (p :: classes) (unit :: text) = (p unit && fits classes text) := rfl

theorem length_of_fits {classes : List (UInt16 → Bool)} {text : Text} (h : fits classes text = true) :
    text.length = classes.length := by
  induction classes generalizing text with
  | nil =>
    cases text with
    | nil => rfl
    | cons unit text => cases h
  | cons p classes ih =>
    cases text with
    | nil => cases h
    | cons unit text =>
      rw [fits_cons, Bool.and_eq_true] at h
      rw [List.length_cons, List.length_cons, ih h.2]

theorem forall_of_fits {classes : List (UInt16 → Bool)} {text : Text} {q : UInt16 → Prop}
    (h : fits classes text = true) (hclasses : ∀ p ∈ classes, ∀ unit, p unit = true → q unit) :
    ∀ unit ∈ text, q unit := by
  induction classes generalizing text with
  | nil =>
    cases text with
    | nil => exact nofun
    | cons unit text => cases h
  | cons p classes ih =>
    cases text with
    | nil => cases h
    | cons unit text =>
      rw [fits_cons, Bool.and_eq_true] at h
      refine List.forall_mem_cons.mpr ⟨hclasses p List.mem_cons_self unit h.1, ?_⟩
      exact ih h.2 fun p hp => hclasses p (List.mem_cons_of_mem _ hp)

theorem fits_append {classes others : List (UInt16 → Bool)} {text : Text} :
    fits (classes ++ others) text = true ↔
      ∃ a b, text = a ++ b ∧ fits classes a = true ∧ fits others b = true := by
  induction classes generalizing text with
  | nil =>
    constructor
    · exact fun h => ⟨[], text, rfl, rfl, h⟩
    · rintro ⟨a, b, rfl, ha, hb⟩
      rw [List.length_eq_zero_iff.mp (length_of_fits ha)]
      exact hb
  | cons p classes ih =>
    constructor
    · intro h
      cases text with
      | nil => cases h
      | cons unit text =>
        rw [List.cons_append, fits_cons, Bool.and_eq_true] at h
        obtain ⟨a, b, rfl, ha, hb⟩ := ih.mp h.2
        exact ⟨unit :: a, b, rfl, by rw [fits_cons, h.1, ha]; rfl, hb⟩
    · rintro ⟨a, b, rfl, ha, hb⟩
      cases a with
      | nil => cases ha
      | cons unit a =>
        rw [fits_cons, Bool.and_eq_true] at ha
        rw [List.cons_append, List.cons_append, fits_cons, ha.1, ih.mpr ⟨a, b, rfl, ha.2, hb⟩]
        rfl

theorem fits_replicate {p : UInt16 → Bool} {length : Nat} {text : Text} :
    fits (List.replicate length p) text = true ↔ text.length = length ∧ ∀ unit ∈ text, p unit = true := by
  induction length generalizing text with
  | zero =>
    cases text with
    | nil => exact ⟨fun _ => ⟨rfl, nofun⟩, fun _ => rfl⟩
    | cons unit text => exact ⟨fun h => (by cases h), fun h => absurd h.1 (Nat.succ_ne_zero _)⟩
  | succ length ih =>
    cases text with
    | nil => exact ⟨fun h => (by cases h), fun h => absurd h.1.symm (Nat.succ_ne_zero _)⟩
    | cons unit text =>
      rw [List.replicate_succ, fits_cons, Bool.and_eq_true, ih, List.length_cons, Nat.add_right_cancel_iff,
        List.forall_mem_cons]
      tauto

/-- A part of a text, from one place up to another. -/
def slice (start stop : Nat) (text : Text) : Text := (text.take stop).drop start

theorem slice_middle {start stop : Nat} {a b : Text} (c : Text) (ha : a.length = start)
    (hb : start + b.length = stop) : slice start stop (a ++ b ++ c) = b := by
  subst ha hb
  rw [slice, ← List.length_append, List.take_left', List.drop_left']
  all_goals rfl

example : readInteger (units " -0150 ") = some (-150) := by decide

end BaasConnector.Lib.CodeUnits
