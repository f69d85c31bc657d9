import BaasConnector.Lib.JsonText
import Mathlib.Data.List.Basic
import Mathlib.Tactic.Common

namespace BaasConnector.Lib.JsonText

open BaasConnector.Lib.CodeUnits

section Strings

def hexValue (digit : UInt16) : Nat := (digitValue digit).getD 0

/-- The unit that a letter after a backslash stands for. -/
def unescapeLetter (letter : UInt16) : UInt16 :=
  if letter = 0x62 then 0x08
  else if letter = 0x66 then 0x0C
  else if letter = 0x6E then 0x0A
  else if letter = 0x72 then 0x0D
  else if letter = 0x74 then 0x09
  else letter

def push (unit : UInt16) (read : Text × Text) : Text × Text := (unit :: read.1, read.2)

/-- What stands before the closing quote, and what comes after it. -/
def unescape : Text → Option (Text × Text)
  | [] => none
  | unit :: text =>
    if unit = 0x22 then some ([], text)
    else if unit = 0x5C then
      match text with
      | [] => none
      | letter :: text =>
        if letter = 0x75 then
          match text with
          | a :: b :: c :: d :: text =>
            (unescape text).map (push (UInt16.ofNat
              (((hexValue a * 16 + hexValue b) * 16 + hexValue c) * 16 + hexValue d)))
          | _ => none
        else (unescape text).map (push (unescapeLetter letter))
    else (unescape text).map (push unit)

theorem hexValue_hexDigit {value : Nat} (h : value < 16) : hexValue (hexDigit false value) = value := by
  rw [hexValue, digitValue_hexDigit false h, Option.getD_some]

/-- How the unit before a text is read. -/
theorem unescape_cons (text : Text) :
    unescape (0x22 :: text) = some ([], text) ∧
    (∀ letter, letter ≠ 0x75 →
      unescape (0x5C :: letter :: text) = (unescape text).map (push (unescapeLetter letter))) ∧
    ∀ unit, unit ≠ 0x22 → unit ≠ 0x5C → unescape (unit :: text) = (unescape text).map (push unit) := by
  refine ⟨?_, fun letter hletter => ?_, fun unit hquote hslash => ?_⟩
  · rw [unescape.eq_def]
    simp only
    rw [if_pos trivial]
  · rw [unescape.eq_def]
    simp only
    rw [if_neg (by decide), if_pos trivial, if_neg hletter]
  · rw [unescape.eq_def]
    simp only
    rw [if_neg hquote, if_neg hslash]

theorem unescape_letter {letter unit : UInt16} (h : letter ≠ 0x75) (hunit : unescapeLetter letter = unit)
    (text : Text) : unescape (0x5C :: letter :: text) = (unescape text).map (push unit) := by
  rw [(unescape_cons text).2.1 letter h, hunit]

theorem unescape_plain {unit : UInt16} (hquote : unit ≠ 0x22) (hslash : unit ≠ 0x5C) (text : Text) :
    unescape (unit :: text) = (unescape text).map (push unit) := (unescape_cons text).2.2 unit hquote hslash

theorem unescape_escapeCode (unit : UInt16) (text : Text) :
    unescape (escapeCode unit ++ text) = (unescape text).map (push unit) := by
  have hlt := unit.toNat_lt
  have hvalue : ((unit.toNat / 4096 * 16 + unit.toNat / 256 % 16) * 16 + unit.toNat / 16 % 16) * 16 +
    unit.toNat % 16 =
      unit.toNat := by omega
  change (unescape text).map (push (UInt16.ofNat (((hexValue (hexDigit false (unit.toNat / 4096)) * 16 +
    hexValue (hexDigit false (unit.toNat / 256 % 16))) * 16 +
    hexValue (hexDigit false (unit.toNat / 16 % 16))) * 16 +
    hexValue (hexDigit false (unit.toNat % 16))))) = _
  rw [hexValue_hexDigit (by omega : unit.toNat / 4096 < 16),
    hexValue_hexDigit (Nat.mod_lt _ (by decide : 0 < 16)),
    hexValue_hexDigit (Nat.mod_lt _ (by decide : 0 < 16)),
    hexValue_hexDigit (Nat.mod_lt _ (by decide : 0 < 16)), hvalue, UInt16.ofNat_toNat]

theorem unescape_escapeUnit (unit : UInt16) (text : Text) :
    unescape (escapeUnit unit ++ text) = (unescape text).map (push unit) := by
  unfold escapeUnit
  by_cases hquote : unit = 0x22
  · rw [if_pos hquote, hquote]
    exact unescape_letter (by decide) (by decide) text
  rw [if_neg hquote]
  by_cases hslash : unit = 0x5C
  · rw [if_pos hslash, hslash]
    exact unescape_letter (by decide) (by decide) text
  rw [if_neg hslash]
  by_cases hb : unit = 0x08
  · rw [if_pos hb, hb]
    exact unescape_letter (by decide) (by decide) text
  rw [if_neg hb]
  by_cases hf : unit = 0x0C
  · rw [if_pos hf, hf]
    exact unescape_letter (by decide) (by decide) text
  rw [if_neg hf]
  by_cases hn : unit = 0x0A
  · rw [if_pos hn, hn]
    exact unescape_letter (by decide) (by decide) text
  rw [if_neg hn]
  by_cases hr : unit = 0x0D
  · rw [if_pos hr, hr]
    exact unescape_letter (by decide) (by decide) text
  rw [if_neg hr]
  by_cases ht : unit = 0x09
  · rw [if_pos ht, ht]
    exact unescape_letter (by decide) (by decide) text
  rw [if_neg ht]
  split
  · exact unescape_escapeCode unit text
  · exact unescape_plain hquote hslash text

theorem isHighSurrogate_plain {unit : UInt16} (h : isHighSurrogate unit = true) :
    unit ≠ 0x22 ∧ unit ≠ 0x5C := by
  constructor
  · rintro rfl
    exact absurd h (by decide)
  · rintro rfl
    exact absurd h (by decide)

theorem isLowSurrogate_plain {unit : UInt16} (h : isLowSurrogate unit = true) :
    unit ≠ 0x22 ∧ unit ≠ 0x5C := by
  constructor
  · rintro rfl
    exact absurd h (by decide)
  · rintro rfl
    exact absurd h (by decide)

/-- A quoted text is read back, whatever follows it. -/
theorem unescape_escape (text rest : Text) : unescape (escape text ++ 0x22 :: rest) = some (text, rest) := by
  fun_induction escape text with
  | case1 high low text hpair ih =>
    obtain ⟨hhigh, hlow⟩ := Bool.and_eq_true_iff.1 hpair
    obtain ⟨hhigh, hhigh'⟩ := isHighSurrogate_plain hhigh
    obtain ⟨hlow, hlow'⟩ := isLowSurrogate_plain hlow
    rw [List.cons_append, List.cons_append, unescape_plain hhigh hhigh', unescape_plain hlow hlow', ih]
    rfl
  | case2 high low text _ ih =>
    rw [List.append_assoc, unescape_escapeUnit, ih]
    rfl
  | case3 unit =>
    rw [unescape_escapeUnit, (unescape_cons rest).1]
    rfl
  | case4 => exact (unescape_cons rest).1

theorem quote_inj {text text' rest rest' : Text} (h : quote text ++ rest = quote text' ++ rest') :
    text = text' ∧ rest = rest' := by
  simp only [quote, List.cons_append, List.append_assoc, List.nil_append, List.cons.injEq, true_and] at h
  have hread := congrArg unescape h
  rw [unescape_escape, unescape_escape] at hread
  simpa using hread

end Strings

def Json.isScalar : Json → Bool
  | .arr _ | .obj _ => false
  | _ => true

/-- A value at a time, its items and its members before it. -/
@[elab_as_elim] theorem Json.induction {P : Json → Prop}
    (scalar : ∀ json : Json, json.isScalar = true → P json)
    (arr : ∀ items, (∀ item ∈ items, P item) → P (.arr items))
    (obj : ∀ members, (∀ member ∈ members, P member.2) → P (.obj members)) (json : Json) : P json :=
  @Json.rec P (fun items => ∀ item ∈ items, P item) (fun members => ∀ member ∈ members, P member.2)
    (fun member => P member.2) (scalar _ rfl) (scalar _ rfl) (fun _ => scalar _ rfl) (fun _ => scalar _ rfl)
    (fun _ => scalar _ rfl) arr obj nofun (fun _ _ hitem hitems => List.forall_mem_cons.2 ⟨hitem, hitems⟩)
      nofun
    (fun _ _ hmember hmembers => List.forall_mem_cons.2 ⟨hmember, hmembers⟩) (fun _ _ hjson => hjson) json

/-- Nothing in the value is undefined. -/
inductive Defined : Json → Prop
  | scalar {json : Json} : json.isScalar = true → json ≠ .undefined → Defined json
  | arr {items : List Json} : (∀ item ∈ items, Defined item) → Defined (.arr items)
  | obj {members : List (Text × Json)} : (∀ member ∈ members, Defined member.2) → Defined (.obj members)

theorem Defined.ne_undefined {json : Json} (h : Defined json) : json ≠ .undefined := by
  cases h with
  | scalar _ hne => exact hne
  | arr _ => exact nofun
  | obj _ => exact nofun

theorem Defined.item {items : List Json} (h : Defined (.arr items)) {item : Json} (hitem : item ∈ items) :
    Defined item := by
  cases h with
  | scalar hscalar _ => cases hscalar
  | arr h => exact h item hitem

theorem Defined.member {members : List (Text × Json)} (h : Defined (.obj members)) {member : Text × Json}
    (hmember : member ∈ members) : Defined member.2 := by
  cases h with
  | scalar hscalar _ => cases hscalar
  | obj h => exact h member hmember

def printMember (member : Text × Json) : Text := quote member.1 ++ 0x3A :: print member.2

theorem printItems_eq (items : List Json) : printItems items = items.map print := by
  induction items with
  | nil => rfl
  | cons item items ih => rw [printItems, ih, List.map_cons]

theorem printMembers_eq {members : List (Text × Json)} (h : ∀ member ∈ members, member.2 ≠ .undefined) :
    printMembers members = members.map printMember := by
  induction members with
  | nil => rfl
  | cons member members ih =>
    obtain ⟨key, json⟩ := member
    obtain ⟨hjson, hmembers⟩ := List.forall_mem_cons.1 h
    have hhead : printMembers ((key, json) :: members) = printMember (key, json) :: printMembers members := by
      rw [printMembers]
      · rfl
      · exact hjson
    rw [hhead, ih hmembers, List.map_cons]

/-- What may come after a value: its container goes on or ends. -/
def Closes (rest : Text) : Prop := ∀ unit ∈ rest.head?, unit = 0x2C ∨ unit = 0x5D ∨ unit = 0x7D

theorem separated_closes {β : Type} {close : UInt16} (hclose : close = 0x5D ∨ close = 0x7D)
    (p : β → Text) (bs : List β)
    (rest : Text) : Closes (bs.flatMap (fun b => 0x2C :: p b) ++ close :: rest) := by
  intro unit hunit
  cases bs with
  | nil =>
    obtain rfl : close = unit := Option.some.inj hunit
    exact .inr hclose
  | cons b bs =>
    obtain rfl : 0x2C = unit := Option.some.inj hunit
    exact .inl rfl

/-- Texts before commas, up to a closing unit, come apart where each of them does. -/
theorem separated_inj {β : Type} {p : β → Text} {close : UInt16}
    (hclose : close = 0x5D ∨ close = 0x7D) {bs bs' : List β}
    {rest rest' : Text} (hread : ∀ b ∈ bs, ∀ b' ∈ bs', ∀ rest rest', Closes rest → Closes rest' →
      p b ++ rest = p b' ++ rest' → b = b' ∧ rest = rest')
    (h : bs.flatMap (fun b => 0x2C :: p b) ++ close :: rest = bs'.flatMap
      (fun b => 0x2C :: p b) ++ close :: rest') :
    bs = bs' ∧ rest = rest' := by
  have hcomma : close ≠ 0x2C := by
    rintro rfl
    revert hclose
    decide
  induction bs generalizing bs' with
  | nil =>
    cases bs' with
    | nil => exact ⟨rfl, (List.cons.inj h).2⟩
    | cons b' bs' => exact absurd (List.cons.inj h).1 hcomma
  | cons b bs ih =>
    cases bs' with
    | nil => exact absurd (List.cons.inj h).1.symm hcomma
    | cons b' bs' =>
      simp only [List.flatMap_cons, List.cons_append, List.append_assoc, List.cons.injEq, true_and] at h
      obtain ⟨rfl, hrest⟩ := hread b (List.mem_cons_self ..) b' (List.mem_cons_self ..) _ _
        (separated_closes hclose p bs rest)
        (separated_closes hclose p bs' rest') h
      obtain ⟨rfl, rfl⟩ := ih (fun c hc c' hc' => hread c (List.mem_cons_of_mem _ hc) c'
        (List.mem_cons_of_mem _ hc')) hrest
      exact ⟨rfl, rfl⟩

theorem commas_cons {β : Type} (p : β → Text) (b : β) (bs : List β) :
    commas ((b :: bs).map p) = p b ++ bs.flatMap (fun b => 0x2C :: p b) := by
  induction bs generalizing b with
  | nil => simp [commas]
  | cons c bs ih =>
    rw [List.map_cons, List.map_cons, commas, ← List.map_cons, ih, List.flatMap_cons]
    · rfl
    · exact nofun

/-- The texts of a container, up to its end, come apart where each of them does. -/
theorem commas_inj {β : Type} {p : β → Text} {close : UInt16}
    (hclose : close = 0x5D ∨ close = 0x7D) {bs bs' : List β}
    {rest rest' : Text} (hstart : ∀ b, ∃ unit text, p b = unit :: text ∧ unit ≠ close)
    (hread : ∀ b ∈ bs, ∀ b' ∈ bs', ∀ rest rest', Closes rest → Closes rest' →
      p b ++ rest = p b' ++ rest' → b = b' ∧ rest = rest')
    (h : commas (bs.map p) ++ close :: rest = commas (bs'.map p) ++ close :: rest') :
    bs = bs' ∧ rest = rest' := by
  have hempty : ∀ (b : β) (cs : List β) (r r' : Text),
    close :: r ≠ commas ((b :: cs).map p) ++ close :: r' := by
    intro b cs r r' heq
    obtain ⟨unit, text, hb, hne⟩ := hstart b
    rw [commas_cons, hb] at heq
    exact hne (List.cons.inj heq).1.symm
  cases bs with
  | nil =>
    cases bs' with
    | nil => exact ⟨rfl, (List.cons.inj h).2⟩
    | cons b' bs' => exact absurd h (hempty b' bs' rest rest')
  | cons b bs =>
    cases bs' with
    | nil => exact absurd h.symm (hempty b bs rest' rest)
    | cons b' bs' =>
      rw [commas_cons, commas_cons, List.append_assoc, List.append_assoc] at h
      obtain ⟨rfl, hrest⟩ := hread b (List.mem_cons_self ..) b' (List.mem_cons_self ..) _ _
        (separated_closes hclose p bs rest) (separated_closes hclose p bs' rest') h
      obtain ⟨rfl, rfl⟩ := separated_inj hclose (fun c hc c' hc' =>
        hread c (List.mem_cons_of_mem _ hc) c' (List.mem_cons_of_mem _ hc')) hrest
      exact ⟨rfl, rfl⟩

/-- A number for what kind of value a value is. -/
def Json.kind : Json → Nat
  | .undefined | .null => 0
  | .bool true => 1
  | .bool false => 2
  | .num _ => 3
  | .str _ => 4
  | .arr _ => 5
  | .obj _ => 6

def kindOf (unit : UInt16) : Nat :=
  if unit = 0x6E then 0
  else if unit = 0x74 then 1
  else if unit = 0x66 then 2
  else if isNumberUnit unit then 3
  else if unit = 0x22 then 4
  else if unit = 0x5B then 5
  else if unit = 0x7B then 6
  else 7

theorem kindOf_number {unit : UInt16} (h : isNumberUnit unit = true) : kindOf unit = 3 := by
  unfold kindOf
  split_ifs with hn ht hf
  · subst hn
    exact absurd h (by decide)
  · subst ht
    exact absurd h (by decide)
  · subst hf
    exact absurd h (by decide)
  · rfl

/-- The first unit of a text tells the kind of its value. -/
theorem print_kind (json : Json) : ∃ unit text, print json = unit :: text ∧ kindOf unit = json.kind := by
  cases json with
  | undefined => exact ⟨_, _, rfl, rfl⟩
  | null => exact ⟨_, _, rfl, rfl⟩
  | bool value =>
    cases value with
    | true => exact ⟨_, _, rfl, rfl⟩
    | false => exact ⟨_, _, rfl, rfl⟩
  | num number =>
    obtain ⟨unit, text, htext⟩ := List.exists_cons_of_ne_nil number.ne
    exact ⟨unit, text, htext, kindOf_number (number.units unit (by rw [htext]; exact List.mem_cons_self ..))⟩
  | str text => exact ⟨_, _, rfl, rfl⟩
  | arr items => exact ⟨_, _, rfl, rfl⟩
  | obj members => exact ⟨_, _, rfl, rfl⟩

theorem kind_eq {json json' : Json} {rest rest' : Text} (h : print json ++ rest = print json' ++ rest') :
    json.kind = json'.kind := by
  obtain ⟨unit, text, hprint, hkind⟩ := print_kind json
  obtain ⟨unit', text', hprint', hkind'⟩ := print_kind json'
  rw [hprint, hprint'] at h
  rw [← hkind, ← hkind', (List.cons.inj h).1]

theorem kind_lt (json : Json) : json.kind < 7 := by
  unfold Json.kind
  split <;> decide

theorem print_not_close {close : UInt16} (hclose : close = 0x5D ∨ close = 0x7D) (json : Json) :
    ∃ unit text, print json = unit :: text ∧ unit ≠ close := by
  obtain ⟨unit, text, hprint, hkind⟩ := print_kind json
  refine ⟨unit, text, hprint, ?_⟩
  rintro rfl
  have hlt := kind_lt json
  rw [← hkind] at hlt
  revert hlt
  obtain rfl | rfl := hclose
  · decide
  · decide

theorem number_inj {number number' : Number} {rest rest' : Text} (hrest : Closes rest) (hrest' : Closes rest')
    (h : number.text ++ rest = number'.text ++ rest') : number = number' ∧ rest = rest' := by
  have htake : ∀ (number : Number) (rest : Text), Closes rest →
    (number.text ++ rest).takeWhile isNumberUnit = number.text := by
    intro number rest hrest
    rw [List.takeWhile_append_of_pos number.units]
    cases rest with
    | nil => exact List.append_nil _
    | cons unit rest =>
      have hunit : isNumberUnit unit = false := by
        obtain rfl | rfl | rfl := hrest unit rfl <;> decide
      rw [List.takeWhile_cons_of_neg (by rw [hunit]; exact Bool.false_ne_true), List.append_nil]
  have htext : number.text = number'.text := by
    rw [← htake number rest hrest, h, htake number' rest' hrest']
  obtain ⟨text, _, _⟩ := number
  obtain ⟨text', _, _⟩ := number'
  obtain rfl : text = text' := htext
  exact ⟨rfl, List.append_cancel_left h⟩

theorem printMember_not_close (member : Text × Json) :
    ∃ unit text, printMember member = unit :: text ∧ unit ≠ 0x7D := ⟨_, _, rfl, by decide⟩

theorem printMember_inj {member member' : Text × Json} {rest rest' : Text}
    (hread : ∀ rest rest', Closes rest → Closes rest' → print member.2 ++ rest = print member'.2 ++ rest' →
      member.2 = member'.2 ∧ rest = rest')
    (hrest : Closes rest) (hrest' : Closes rest')
    (h : printMember member ++ rest = printMember member' ++ rest') :
    member = member' ∧ rest = rest' := by
  simp only [printMember, List.append_assoc, List.cons_append] at h
  obtain ⟨hkey, h⟩ := quote_inj h
  obtain ⟨hvalue, hrest⟩ := hread _ _ hrest hrest' (List.cons.inj h).2
  exact ⟨Prod.ext hkey hvalue, hrest⟩

/-- A value in which nothing is undefined is read off its text, whatever follows it in a container. -/
theorem print_inj (json : Json) : Defined json → ∀ json' rest rest', Defined json' →
    Closes rest → Closes rest' →
    print json ++ rest = print json' ++ rest' → json = json' ∧ rest = rest' := by
  induction json using Json.induction with
  | scalar json hscalar =>
    intro hdefined json' rest rest' hdefined' hrest hrest' h
    have hkind := kind_eq h
    cases json with
    | undefined => exact absurd rfl hdefined.ne_undefined
    | null =>
      cases json' with
      | null => exact ⟨rfl, List.append_cancel_left h⟩
      | undefined => exact absurd rfl hdefined'.ne_undefined
      | bool value => cases value <;> cases hkind
      | _ => cases hkind
    | bool value =>
      cases json' with
      | bool value' =>
        cases value <;> cases value' <;> first | exact ⟨rfl, List.append_cancel_left h⟩ | cases hkind
      | _ => cases value <;> cases hkind
    | num number =>
      cases json' with
      | num number' =>
        obtain ⟨rfl, rfl⟩ := number_inj hrest hrest' h
        exact ⟨rfl, rfl⟩
      | bool value => cases value <;> cases hkind
      | _ => cases hkind
    | str text =>
      cases json' with
      | str text' =>
        obtain ⟨rfl, rfl⟩ := quote_inj h
        exact ⟨rfl, rfl⟩
      | bool value => cases value <;> cases hkind
      | _ => cases hkind
    | arr items => cases hscalar
    | obj members => cases hscalar
  | arr items ih =>
    intro hdefined json' rest rest' hdefined' hrest hrest' h
    have hkind := kind_eq h
    cases json' with
    | arr items' =>
      rw [print, print, printItems_eq, printItems_eq] at h
      simp only [List.cons_append, List.append_assoc, List.nil_append, List.cons.injEq, true_and] at h
      obtain ⟨rfl, rfl⟩ := commas_inj (.inl rfl) (print_not_close (.inl rfl))
        (fun item hitem item' hitem' r r' hr hr' =>
        ih item hitem (hdefined.item hitem) item' r r' (hdefined'.item hitem') hr hr') h
      exact ⟨rfl, rfl⟩
    | bool value => cases value <;> cases hkind
    | _ => cases hkind
  | obj members ih =>
    intro hdefined json' rest rest' hdefined' hrest hrest' h
    have hkind := kind_eq h
    cases json' with
    | obj members' =>
      rw [print, print, printMembers_eq fun member hmember => (hdefined.member hmember).ne_undefined,
        printMembers_eq fun member hmember => (hdefined'.member hmember).ne_undefined] at h
      simp only [List.cons_append, List.append_assoc, List.nil_append, List.cons.injEq, true_and] at h
      obtain ⟨rfl, rfl⟩ := commas_inj (.inr rfl) printMember_not_close
        (fun member hmember member' hmember' r r' hr hr' =>
        printMember_inj (fun r r' => ih member hmember (hdefined.member hmember) member'.2 r r'
          (hdefined'.member hmember'))
          hr hr') h
      exact ⟨rfl, rfl⟩
    | bool value => cases value <;> cases hkind
    | _ => cases hkind

end BaasConnector.Lib.JsonText
