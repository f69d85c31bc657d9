import BaasConnector.Lib.JsonText
import BaasConnector.Lib.Numerals
import BaasConnector.Taxonomy.Errors

namespace BaasConnector.Taxonomy.PixKeys

open BaasConnector.Lib.CodeUnits BaasConnector.Lib.JsonText BaasConnector.Lib.Numerals
open BaasConnector.Taxonomy.Errors

inductive PixKeyType
  | CPF | CNPJ | EMAIL | PHONE | EVP
deriving DecidableEq, Repr

structure Refusal where
  code : BaasErrorCode
  message : Text
deriving DecidableEq

structure Phone where
  countryCode : Text
  areaCode : Text
  number : Text
deriving DecidableEq

def onlyDigits (value : Text) : Text := value.filter isDigit

def mod11 (digits weights : List Nat) : Nat :=
  let remainder := (List.zipWith (· * ·) digits weights).sum % 11
  if remainder < 2 then 0 else 11 - remainder

/-- A tax id of a length, whose last two digits check the others. -/
def checks (length : Nat) (weights : List Nat) (input : Text) : Bool :=
  let digits := (onlyDigits input).map fun unit => unit.toNat - 0x30
  digits.length = length && !digits.all (fun digit => some digit == digits.head?) &&
    digits[length - 2]? = some (mod11 (digits.take (length - 2)) weights.tail) &&
    digits[length - 1]? = some (mod11 (digits.take (length - 1)) weights)

def isValidCpf : Text → Bool := checks 11 [11, 10, 9, 8, 7, 6, 5, 4, 3, 2]

def isValidCnpj : Text → Bool := checks 14 [6, 5, 4, 3, 2, 9, 8, 7, 6, 5, 4, 3, 2]

/-- The digits after the country code, which only a longer number carries. -/
def withoutCountry (countryCode digits : Text) : Text :=
  if countryCode <+: digits ∧ 11 < digits.length then digits.drop countryCode.length else digits

def phoneOf (countryCode digits : Text) : Option Phone :=
  if digits.length ≠ 10 ∧ digits.length ≠ 11 then none
  else
    let areaCode := digits.take 2
    let number := digits.drop 2
    if value areaCode < 11 ∨ 99 < value areaCode then none
    else if number.length = 9 ∧ number.head? ≠ some 0x39 then none
    else if number.length ≠ 9 ∧ number.length ≠ 8 then none
    else some ⟨countryCode, areaCode, number⟩

def brazil : Text := [0x35, 0x35]

def parsePhone (input : Text) : Option Phone := phoneOf brazil (withoutCountry brazil (onlyDigits input))

def phoneToE164 (phone : Phone) : Text := 0x2B :: (phone.countryCode ++ phone.areaCode ++ phone.number)

/-- A unit that is neither a space nor an at sign. -/
def isPlain (unit : UInt16) : Bool := !isSpace unit && unit != 0x40

/-- Plain units, an at sign, and plain units with a point that has one before and two behind it. -/
def isValidEmail (text : Text) : Bool :=
  let name := text.takeWhile (· ≠ 0x40)
  let domain := (text.dropWhile (· ≠ 0x40)).tail
  0x40 ∈ text && name ≠ [] && name.all isPlain && domain.all isPlain &&
    0x2E ∈ (domain.drop 1).dropLast.dropLast && text.length ≤ 77

def isHex (unit : UInt16) : Bool := isDigit unit || (0x61 ≤ lower unit && lower unit ≤ 0x66)

def isVersion (unit : UInt16) : Bool := 0x31 ≤ unit && unit ≤ 0x38

def isVariant (unit : UInt16) : Bool :=
  unit == 0x38 || unit == 0x39 || lower unit == 0x61 || lower unit == 0x62

def isDash (unit : UInt16) : Bool := unit == 0x2D

/-- The classes of a UUID of versions one to eight, in either case. -/
def evpClasses : List (UInt16 → Bool) :=
  List.replicate 8 isHex ++ [isDash] ++ List.replicate 4 isHex ++ [isDash] ++
    [isVersion] ++ List.replicate 3 isHex ++ [isDash] ++
    [isVariant] ++ List.replicate 3 isHex ++ [isDash] ++ List.replicate 12 isHex

def isEvp (text : Text) : Bool := fits evpClasses text

section Normalize

variable (toLowerCase : Text → Text)

def normalizeEmail (value : Text) : Text := toLowerCase (trim value)

def normalizePixKey (type : PixKeyType) (value : Text) : Except Refusal Text :=
  match type with
  | .CPF | .CNPJ => .ok (onlyDigits value)
  | .EMAIL => .ok (normalizeEmail toLowerCase value)
  | .PHONE =>
    match parsePhone value with
    | none => .error ⟨.INVALID_PIX_KEY, units "Telefone invalido para chave Pix: " ++ quote value⟩
    | some phone => .ok (phoneToE164 phone)
  | .EVP => .ok (toLowerCase (trim value))

def isE164 (text : Text) : Bool :=
  units "+55" <+: text && (text.drop 3).all isDigit && (text.length = 13 || text.length = 14)

def isValidPixKey (type : PixKeyType) (value : Text) : Bool :=
  match normalizePixKey toLowerCase type value with
  | .error _ => false
  | .ok normalized =>
    match type with
    | .CPF => isValidCpf normalized
    | .CNPJ => isValidCnpj normalized
    | .EMAIL => isValidEmail normalized
    | .PHONE => isE164 normalized
    | .EVP => isEvp normalized

end Normalize

def inferPixKeyType (value : Text) : Option PixKeyType :=
  let trimmed := trim value
  let digits := onlyDigits trimmed
  if isEvp trimmed then some .EVP
  else if 0x40 ∈ trimmed then if isValidEmail trimmed then some .EMAIL else none
  else if trimmed.head? = some 0x2B then if (parsePhone trimmed).isSome then some .PHONE else none
  else if digits.length = 11 ∧ isValidCpf digits then some .CPF
  else if digits.length = 14 ∧ isValidCnpj digits then some .CNPJ
  else if digits.length = 10 ∨ digits.length = 11 then
    if (parsePhone digits).isSome then some .PHONE else none
  else none

example : isValidPixKey id .CPF (units "529.982.247-25") = true := by decide

example : normalizePixKey id .PHONE (units "(11) 98765-4321") = .ok (units "+5511987654321") := by
  decide

theorem digits_onlyDigits (value : Text) : Digits (onlyDigits value) := fun _ hunit =>
  (List.mem_filter.mp hunit).2

theorem onlyDigits_of_digits {text : Text} (h : Digits text) : onlyDigits text = text :=
  List.filter_eq_self.mpr h

theorem notMem_digits {text : Text} (h : Digits text) {unit : UInt16} (hunit : isDigit unit = false) :
    unit ∉ text := by
  intro hmem
  rw [h unit hmem] at hunit
  cases hunit

theorem head_ne_of_notMem {text : Text} {unit : UInt16} (h : unit ∉ text) : text.head? ≠ some unit :=
  fun hhead => h (List.mem_of_head? hhead)

theorem not_evp_of_length {text : Text} (h : text.length ≠ 36) : isEvp text = false :=
  Bool.eq_false_iff.mpr fun hfits => h (length_of_fits hfits)

theorem length_of_checks {length : Nat} {weights : List Nat} {text : Text} (htext : Digits text)
    (h : checks length weights text = true) : text.length = length := by
  simp only [checks, Bool.and_eq_true, decide_eq_true_eq, List.length_map] at h
  rw [← h.1.1.1, onlyDigits_of_digits htext]

theorem phoneOf_eq_some {countryCode digits : Text} {phone : Phone}
    (h : phoneOf countryCode digits = some phone) :
    phone.countryCode = countryCode ∧ phone.areaCode ++ phone.number = digits ∧
      (digits.length = 10 ∨ digits.length = 11) := by
  simp only [phoneOf] at h
  split_ifs at h with hlen harea hmobile hnumber
  injection h with h
  subst h
  exact ⟨rfl, List.take_append_drop 2 digits, by omega⟩

theorem withoutCountry_brazil {digits : Text} (h : 10 ≤ digits.length) :
    withoutCountry brazil (brazil ++ digits) = digits := by
  have hlong : 11 < (brazil ++ digits).length := by
    rw [List.length_append]
    simp only [brazil, List.length_cons, List.length_nil]
    omega
  rw [withoutCountry, if_pos ⟨List.prefix_append _ _, hlong⟩]
  exact List.drop_left

theorem digits_withoutCountry {countryCode digits : Text} (h : Digits digits) :
    Digits (withoutCountry countryCode digits) := by
  rw [withoutCountry]
  split_ifs with hcountry
  · exact fun unit hunit => h unit (List.mem_of_mem_drop hunit)
  · exact h

/-- The digits of a phone number that is accepted. -/
theorem parsePhone_eq_some {input : Text} {phone : Phone} (h : parsePhone input = some phone) :
    ∃ digits, Digits digits ∧ (digits.length = 10 ∨ digits.length = 11) ∧
      phoneToE164 phone = 0x2B :: (brazil ++ digits) ∧ phoneOf brazil digits = some phone := by
  obtain ⟨hcountry, hdigits, hlen⟩ := phoneOf_eq_some h
  refine ⟨_, digits_withoutCountry (digits_onlyDigits input), hlen, ?_, h⟩
  rw [phoneToE164, hcountry, List.append_assoc, hdigits]

theorem onlyDigits_e164 {digits : Text} (h : Digits digits) :
    onlyDigits (0x2B :: (brazil ++ digits)) = brazil ++ digits := by
  have hbrazil : Digits (brazil ++ digits) := digits_append.mpr ⟨by decide, h⟩
  rw [onlyDigits, List.filter_cons_of_neg (by decide)]
  exact onlyDigits_of_digits hbrazil

theorem parsePhone_e164 {digits : Text} {phone : Phone} (hdigits : Digits digits)
    (hlen : digits.length = 10 ∨ digits.length = 11) (h : phoneOf brazil digits = some phone) :
    parsePhone (0x2B :: (brazil ++ digits)) = some phone := by
  rw [parsePhone, onlyDigits_e164 hdigits, withoutCountry_brazil (by omega), h]

theorem solid_e164 {digits : Text} (h : Digits digits) :
    ∀ unit ∈ (0x2B :: (brazil ++ digits) : Text), isSpace unit = false ∧ unit ≠ 0x40 := by
  have hbrazil : Digits (brazil ++ digits) := digits_append.mpr ⟨by decide, h⟩
  refine List.forall_mem_cons.mpr
    ⟨by decide, fun unit hunit => ⟨not_space_of_isDigit (hbrazil unit hunit), ?_⟩⟩
  rintro rfl
  exact notMem_digits hbrazil (by decide) hunit

theorem isHex_lt {unit : UInt16} (h : isHex unit = true) : unit.toNat < 0x80 := by
  simp only [isHex, isDigit, lower, Bool.or_eq_true, Bool.and_eq_true, decide_eq_true_eq,
    UInt16.le_iff_toNat_le] at h
  obtain h | h := h
  · exact Nat.lt_of_le_of_lt h.2 (by decide)
  · split_ifs at h with hupper
    · exact Nat.lt_of_le_of_lt hupper.2 (by decide)
    · exact Nat.lt_of_le_of_lt h.2 (by decide)

theorem isHex_solid {unit : UInt16} (h : isHex unit = true) : isSpace unit = false ∧ unit ≠ 0x40 := by
  have hall : ∀ n < 0x80, isHex (UInt16.ofNat n) = true →
      isSpace (UInt16.ofNat n) = false ∧ UInt16.ofNat n ≠ 0x40 := by decide
  have hunit := hall unit.toNat (isHex_lt h)
  rw [UInt16.ofNat_toNat] at hunit
  exact hunit h

theorem isDash_solid {unit : UInt16} (h : isDash unit = true) : isSpace unit = false ∧ unit ≠ 0x40 := by
  rw [isDash, beq_iff_eq] at h
  subst h
  decide

theorem isVersion_isHex {unit : UInt16} (h : isVersion unit = true) : isHex unit = true := by
  rw [isVersion, Bool.and_eq_true, decide_eq_true_eq, decide_eq_true_eq] at h
  have hdigit : isDigit unit = true := by
    rw [isDigit, Bool.and_eq_true, decide_eq_true_eq, decide_eq_true_eq]
    exact ⟨UInt16.le_trans (by decide) h.1, UInt16.le_trans h.2 (by decide)⟩
  rw [isHex, hdigit, Bool.true_or]

theorem isVariant_isHex {unit : UInt16} (h : isVariant unit = true) : isHex unit = true := by
  simp only [isVariant, Bool.or_eq_true, beq_iff_eq] at h
  obtain ((rfl | rfl) | h) | h := h
  · decide
  · decide
  all_goals
    rw [isHex, h]
    exact Bool.or_true _

theorem evp_solid {text : Text} (h : isEvp text = true) :
    ∀ unit ∈ text, isSpace unit = false ∧ unit ≠ 0x40 := by
  refine forall_of_fits h fun p hp unit hunit => ?_
  have hclass : p = isHex ∨ p = isDash ∨ p = isVersion ∨ p = isVariant := by
    simp only [evpClasses, List.mem_append, List.mem_replicate, List.mem_singleton] at hp
    tauto
  obtain rfl | rfl | rfl | rfl := hclass
  · exact isHex_solid hunit
  · exact isDash_solid hunit
  · exact isHex_solid (isVersion_isHex hunit)
  · exact isHex_solid (isVariant_isHex hunit)

theorem isPlain_not_space {unit : UInt16} (h : isPlain unit = true) : isSpace unit = false := by
  rw [isPlain, Bool.and_eq_true, Bool.not_eq_true'] at h
  exact h.1

theorem email_solid {text : Text} (h : isValidEmail text = true) :
    0x40 ∈ text ∧ ∀ unit ∈ text, isSpace unit = false := by
  simp only [isValidEmail, Bool.and_eq_true, decide_eq_true_eq, List.all_eq_true] at h
  obtain ⟨⟨⟨⟨⟨hat, -⟩, hname⟩, hdomain⟩, -⟩, -⟩ := h
  refine ⟨hat, fun unit hunit => ?_⟩
  rw [← List.takeWhile_append_dropWhile (p := (· ≠ 0x40)) (l := text), List.mem_append] at hunit
  obtain hunit | hunit := hunit
  · exact isPlain_not_space (hname unit hunit)
  · have hne := List.ne_nil_of_mem hunit
    have hhead := List.head_dropWhile_not (fun unit : UInt16 => decide (unit ≠ 0x40)) hne
    rw [← List.cons_head_tail hne, List.mem_cons] at hunit
    obtain rfl | hunit := hunit
    · rw [of_not_not (of_decide_eq_false hhead)]
      decide
    · exact isPlain_not_space (hdomain unit hunit)

/-- A type's canonical keys, which are valid, stay as they are and tell the type. -/
structure Canonical (toLowerCase : Text → Text) (type : PixKeyType) (key : Text) : Prop where
  normalized : normalizePixKey toLowerCase type key = .ok key
  valid : isValidPixKey toLowerCase type key = true
  inferred : inferPixKeyType key = some type

theorem normalizePixKey_phone {toLowerCase : Text → Text} {value : Text} {phone : Phone}
    (h : parsePhone value = some phone) :
    normalizePixKey toLowerCase .PHONE value = .ok (phoneToE164 phone) := by
  rw [normalizePixKey, h]

theorem not_valid_phone {toLowerCase : Text → Text} {value : Text} (h : parsePhone value = none) :
    isValidPixKey toLowerCase .PHONE value = false := by
  rw [isValidPixKey, normalizePixKey, h]

theorem canonical_cpf {toLowerCase : Text → Text} {key : Text} (hdigits : Digits key)
    (h : isValidCpf key = true) : Canonical toLowerCase .CPF key := by
  have hlen := length_of_checks hdigits h
  have hself := onlyDigits_of_digits hdigits
  refine ⟨congrArg _ hself, ?_, ?_⟩
  · change isValidCpf (onlyDigits key) = true
    rw [hself]
    exact h
  · rw [inferPixKeyType, trim_digits hdigits, hself,
      if_neg (by rw [not_evp_of_length (by omega)]; exact Bool.false_ne_true),
      if_neg (notMem_digits hdigits (by decide)),
      if_neg (head_ne_of_notMem (notMem_digits hdigits (by decide))), if_pos ⟨hlen, h⟩]

theorem canonical_cnpj {toLowerCase : Text → Text} {key : Text} (hdigits : Digits key)
    (h : isValidCnpj key = true) : Canonical toLowerCase .CNPJ key := by
  have hlen := length_of_checks hdigits h
  have hself := onlyDigits_of_digits hdigits
  refine ⟨congrArg _ hself, ?_, ?_⟩
  · change isValidCnpj (onlyDigits key) = true
    rw [hself]
    exact h
  · rw [inferPixKeyType, trim_digits hdigits, hself,
      if_neg (by rw [not_evp_of_length (by omega)]; exact Bool.false_ne_true),
      if_neg (notMem_digits hdigits (by decide)),
      if_neg (head_ne_of_notMem (notMem_digits hdigits (by decide))), if_neg (by omega),
      if_pos ⟨hlen, h⟩]

theorem canonical_email {toLowerCase : Text → Text} {key : Text} (hself : toLowerCase key = key)
    (h : isValidEmail key = true) : Canonical toLowerCase .EMAIL key := by
  obtain ⟨hat, hsolid⟩ := email_solid h
  have htrim := trim_solid hsolid
  have hevp : ¬isEvp key = true := fun hevp => (evp_solid hevp _ hat).2 rfl
  refine ⟨?_, ?_, ?_⟩
  · change Except.ok (toLowerCase (trim key)) = _
    rw [htrim, hself]
  · change isValidEmail (toLowerCase (trim key)) = true
    rw [htrim, hself]
    exact h
  · rw [inferPixKeyType, htrim, if_neg hevp, if_pos hat, if_pos h]

theorem canonical_phone {toLowerCase : Text → Text} {digits : Text} {phone : Phone}
    (hdigits : Digits digits) (hlen : digits.length = 10 ∨ digits.length = 11)
    (h : phoneOf brazil digits = some phone) :
    Canonical toLowerCase .PHONE (0x2B :: (brazil ++ digits)) := by
  have hparse := parsePhone_e164 hdigits hlen h
  have hsolid := solid_e164 hdigits
  have hkey : normalizePixKey toLowerCase .PHONE (0x2B :: (brazil ++ digits)) =
      .ok (0x2B :: (brazil ++ digits)) := by
    obtain ⟨hcountry, happend, -⟩ := phoneOf_eq_some h
    rw [normalizePixKey_phone hparse]
    simp only [phoneToE164, hcountry, List.append_assoc, happend]
  have hlength : (0x2B :: (brazil ++ digits)).length = digits.length + 3 := by
    rw [List.length_cons, List.length_append, Nat.add_comm brazil.length]
    rfl
  refine ⟨hkey, ?_, ?_⟩
  · rw [isValidPixKey, hkey]
    simp only [isE164, Bool.and_eq_true, decide_eq_true_eq, Bool.or_eq_true, List.all_eq_true]
    exact ⟨⟨⟨digits, rfl⟩, hdigits⟩, by omega⟩
  · rw [inferPixKeyType, trim_solid fun unit hunit => (hsolid unit hunit).1,
      if_neg (by rw [not_evp_of_length (by omega)]; exact Bool.false_ne_true),
      if_neg fun hat => (hsolid _ hat).2 rfl, if_pos List.head?_cons, hparse,
      Option.isSome_some, if_pos rfl]

theorem canonical_evp {toLowerCase : Text → Text} {key : Text} (hself : toLowerCase key = key)
    (h : isEvp key = true) : Canonical toLowerCase .EVP key := by
  have htrim := trim_solid fun unit hunit => (evp_solid h unit hunit).1
  refine ⟨?_, ?_, ?_⟩
  · change Except.ok (toLowerCase (trim key)) = _
    rw [htrim, hself]
  · change isEvp (toLowerCase (trim key)) = true
    rw [htrim, hself]
    exact h
  · rw [inferPixKeyType, htrim, if_pos h]

/-- An accepted key is normalized to a canonical one. -/
theorem normalization_stable (toLowerCase : Text → Text)
    (hlower : ∀ text, toLowerCase (toLowerCase text) = toLowerCase text) {type : PixKeyType} {value : Text}
    (h : isValidPixKey toLowerCase type value = true) :
    ∃ key, normalizePixKey toLowerCase type value = .ok key ∧
      normalizePixKey toLowerCase type key = .ok key ∧ isValidPixKey toLowerCase type key = true ∧
      inferPixKeyType key = some type := by
  have hcanonical : ∃ key, normalizePixKey toLowerCase type value = .ok key ∧
      Canonical toLowerCase type key := by
    cases type with
    | CPF => exact ⟨_, rfl, canonical_cpf (digits_onlyDigits value) h⟩
    | CNPJ => exact ⟨_, rfl, canonical_cnpj (digits_onlyDigits value) h⟩
    | EMAIL => exact ⟨_, rfl, canonical_email (hlower _) h⟩
    | EVP => exact ⟨_, rfl, canonical_evp (hlower _) h⟩
    | PHONE =>
      cases hparse : parsePhone value with
      | none =>
        rw [not_valid_phone hparse] at h
        cases h
      | some phone =>
        obtain ⟨digits, hdigits, hlen, hkey, hphone⟩ := parsePhone_eq_some hparse
        refine ⟨_, ?_, canonical_phone hdigits hlen hphone⟩
        rw [normalizePixKey_phone hparse, hkey]
  obtain ⟨key, hkey, hcanonical⟩ := hcanonical
  exact ⟨key, hkey, hcanonical.normalized, hcanonical.valid, hcanonical.inferred⟩

theorem lower_lower (unit : UInt16) : lower (lower unit) = lower unit := by
  unfold lower
  split_ifs with hupper htwice
  · have hfirst : 0x41 ≤ unit.toNat ∧ unit.toNat ≤ 0x5A := hupper
    have hsum : (unit + 0x20).toNat = unit.toNat + 0x20 := by
      rw [UInt16.toNat_add]
      exact Nat.mod_eq_of_lt (show unit.toNat + 32 < 65536 by omega)
    have hsecond : (unit + 0x20).toNat ≤ 0x5A := htwice.2
    rw [hsum] at hsecond
    have hlong : unit.toNat + 32 ≤ 90 := hsecond
    omega
  · rfl
  · rfl

theorem lowered_lowered (text : Text) : (text.map lower).map lower = text.map lower := by
  rw [List.map_map]
  exact List.map_congr_left fun unit _ => lower_lower unit

theorem normalization_stable_cpf :
    isValidPixKey (List.map lower) .CPF (units "529.982.247-25") = true ∧
      ∃ key, normalizePixKey (List.map lower) .CPF (units "529.982.247-25") = .ok key ∧
        normalizePixKey (List.map lower) .CPF key = .ok key ∧
        isValidPixKey (List.map lower) .CPF key = true ∧ inferPixKeyType key = some .CPF :=
  have hvalid : isValidPixKey (List.map lower) .CPF (units "529.982.247-25") = true := by decide
  ⟨hvalid, normalization_stable (List.map lower) lowered_lowered hvalid⟩

end BaasConnector.Taxonomy.PixKeys
