import BaasConnector.Lib.BitStreams
import BaasConnector.Taxonomy.Emv
import Mathlib.Data.Nat.Bitwise
import Mathlib.Tactic.IntervalCases

namespace BaasConnector.Taxonomy.EmvCrc

open BaasConnector.Lib.CodeUnits BaasConnector.Lib.Registers BaasConnector.Lib.Results
      BaasConnector.Taxonomy.Emv

def Register (crc : Nat) : Prop := crc < 0x10000

theorem mask (value : Nat) : value &&& 0xffff = value % 0x10000 := Nat.and_two_pow_sub_one_eq_mod value 16

theorem top_bit {crc : Nat} (h : Register crc) : crc &&& 0x8000 ≠ 0 ↔ 0x8000 ≤ crc := by
  have hbit : crc &&& 0x8000 = (crc.testBit 15).toNat * 2 ^ 15 := Nat.and_two_pow crc 15
  have htest : crc.testBit 15 = decide (crc / 0x8000 % 2 = 1) := Nat.testBit_eq_decide_div_mod_eq
  have hlt : crc < 0x10000 := h
  rw [hbit, htest]
  by_cases hle : 0x8000 ≤ crc
  · have hone : crc / 0x8000 % 2 = 1 := by omega
    simp [hone, hle]
  · have hzero : crc / 0x8000 % 2 = 0 := by omega
    simp [hzero, hle]

theorem crcBit_mod (value : Nat) : crcBit value = crcBit (value % 0x10000) := by
  have htest : value % 0x10000 &&& 0x8000 = value &&& 0x8000 := by
    rw [← mask, Nat.and_assoc]
    rfl
  have hshift : (value % 0x10000) <<< 1 % 0x10000 = value <<< 1 % 0x10000 := by
    rw [Nat.shiftLeft_eq, Nat.shiftLeft_eq]
    omega
  have hxor : (((value % 0x10000) <<< 1) ^^^ 0x1021) % 0x10000 = ((value <<< 1) ^^^ 0x1021) % 0x10000 := by
    have hsplit : ∀ a : Nat, (a ^^^ 0x1021) % 0x10000 = a % 0x10000 ^^^ 0x1021 % 0x10000 :=
      fun a => Nat.xor_mod_two_pow (n := 16)
    rw [hsplit, hsplit, hshift]
  rw [crcBit, crcBit, htest, mask, mask, mask, mask, hshift, hxor]

theorem crcBit_low {crc : Nat} (h : crc < 0x8000) : crcBit crc = 2 * crc := by
  have hregister : Register crc := lt_trans h (by decide)
  rw [crcBit, if_neg (mt (top_bit hregister).mp (by omega)), mask, Nat.shiftLeft_eq]
  omega

theorem crcBit_high {crc : Nat} (hle : 0x8000 ≤ crc) (h : Register crc) :
    crcBit crc = (2 * crc - 0x10000) ^^^ 0x1021 := by
  have hlt : crc < 0x10000 := h
  have hsplit : ((crc <<< 1) ^^^ 0x1021) % 0x10000 = crc <<< 1 % 0x10000 ^^^ 0x1021 % 0x10000 :=
    Nat.xor_mod_two_pow (n := 16)
  have hshift : crc <<< 1 % 0x10000 = 2 * crc - 0x10000 := by
    rw [Nat.shiftLeft_eq]
    omega
  rw [crcBit, if_pos ((top_bit h).mpr hle), mask, hsplit, hshift]

theorem crcBit_register (value : Nat) : Register (crcBit value) := by
  rw [crcBit, mask, mask]
  split <;> exact Nat.mod_lt _ (by decide)

/-- Only a register whose top bit is set becomes odd. -/
theorem crcBit_injective {s t : Nat} (hs : Register s) (ht : Register t) (h : crcBit s = crcBit t) :
    s = t := by
  have hodd : ∀ a : Nat, ((2 * a - 0x10000) ^^^ 0x1021) % 2 = 1 := by
    intro a
    rw [Nat.xor_mod_two_eq]
    omega
  have hlow := congrArg (· % 2) h
  by_cases hsle : 0x8000 ≤ s
  · by_cases htle : 0x8000 ≤ t
    · rw [crcBit_high hsle hs, crcBit_high htle ht] at h
      have hsame := Nat.xor_left_inj.mp h
      omega
    · rw [crcBit_high hsle hs, crcBit_low (by omega)] at hlow
      simp only [hodd] at hlow
      omega
  · by_cases htle : 0x8000 ≤ t
    · rw [crcBit_low (by omega), crcBit_high htle ht] at hlow
      simp only [hodd] at hlow
      omega
    · rw [crcBit_low (by omega), crcBit_low (by omega)] at h
      omega

theorem iterate_register {n : Nat} {value : Nat} (h : Register value) : Register (crcBit^[n] value) := by
  induction n generalizing value with
  | zero => exact h
  | succ n ih => exact ih (crcBit_register value)

theorem iterate_injective {n : Nat} {s t : Nat} (hs : Register s) (ht : Register t)
    (h : crcBit^[n] s = crcBit^[n] t) : s = t := by
  induction n generalizing s t with
  | zero => exact h
  | succ n ih => exact crcBit_injective hs ht (ih (crcBit_register s) (crcBit_register t) h)

/-- The high byte of a code unit is shifted out unread. -/
theorem crcUnit_eq {crc : Nat} (h : Register crc) (unit : UInt16) :
    crcUnit crc unit = crcBit^[8] (crc ^^^ (unit.toNat % 0x100 * 0x100)) := by
  have hlt : crc < 0x10000 := h
  have hsplit : (crc ^^^ (unit.toNat <<< 8)) % 0x10000 = crc % 0x10000 ^^^ unit.toNat <<< 8 % 0x10000 :=
    Nat.xor_mod_two_pow (n := 16)
  have hshift : unit.toNat <<< 8 % 0x10000 = unit.toNat % 0x100 * 0x100 := by
    rw [Nat.shiftLeft_eq]
    omega
  rw [crcUnit, Function.iterate_succ_apply, crcBit_mod, hsplit, hshift, Nat.mod_eq_of_lt hlt,
    ← Function.iterate_succ_apply]

theorem xor_register {crc low : Nat} (h : Register crc) (hlow : low < 0x100) :
    Register (crc ^^^ (low * 0x100)) :=
  Nat.xor_lt_two_pow (n := 16) h (by omega)

theorem crcUnit_register (crc : Nat) (unit : UInt16) (h : Register crc) : Register (crcUnit crc unit) := by
  rw [crcUnit_eq h]
  exact iterate_register (xor_register h (Nat.mod_lt _ (by decide)))

theorem crcUnit_injective (s t : Nat) (unit : UInt16) (hs : Register s) (ht : Register t)
    (h : crcUnit s unit = crcUnit t unit) : s = t := by
  have hlow : unit.toNat % 0x100 < 0x100 := Nat.mod_lt _ (by decide)
  rw [crcUnit_eq hs, crcUnit_eq ht] at h
  exact Nat.xor_left_inj.mp (iterate_injective (xor_register hs hlow) (xor_register ht hlow) h)

theorem crcUnit_same_iff {crc : Nat} (h : Register crc) (u v : UInt16) :
    crcUnit crc u = crcUnit crc v ↔ u.toNat % 0x100 = v.toNat % 0x100 := by
  have hlow : ∀ unit : UInt16, unit.toNat % 0x100 < 0x100 := fun unit => Nat.mod_lt _ (by decide)
  rw [crcUnit_eq h, crcUnit_eq h]
  constructor
  · intro hsame
    have hxor := iterate_injective (xor_register h (hlow u)) (xor_register h (hlow v)) hsame
    have hbyte := Nat.xor_right_inj.mp hxor
    omega
  · intro hsame
    rw [hsame]

theorem fold_register (text : Text) : Register (text.foldl crcUnit 0xffff) :=
  foldl_held crcUnit_register text (show (0xffff : Nat) < 0x10000 by decide)

theorem upper_hexDigit {digit : Nat} (h : digit < 16) : upper (hexDigit true digit) = hexDigit true digit := by
  have hall : ∀ digit : Fin 16, upper (hexDigit true digit) = hexDigit true digit := by decide
  exact hall ⟨digit, h⟩

theorem crc16_upper (text : Text) : (crc16 text).map upper = crc16 text := by
  refine (List.map_congr_left fun unit hunit => ?_).trans (List.map_id _)
  obtain ⟨digit, hlt, rfl⟩ := mem_hexDigits (fold_register text) hunit
  exact upper_hexDigit hlt

/-- Two texts that differ in one unit have one CRC when the units share their low
byte, and only then. -/
theorem crc16_single_iff (before after : Text) (u v : UInt16) :
    crc16 (before ++ u :: after) = crc16 (before ++ v :: after) ↔ u.toNat % 0x100 = v.toNat % 0x100 := by
  have hstart : Register 0xffff := show (0xffff : Nat) < 0x10000 by decide
  have hsingle := foldl_single_iff crcUnit_register crcUnit_injective before after u v hstart
  rw [crcUnit_same_iff (fold_register before)] at hsingle
  rw [← hsingle]
  constructor
  · intro h
    exact hexDigits_injective (fold_register _) (fold_register _) h
  · intro h
    rw [crc16, crc16, h]

def crcTag : Text := EmvId.CRC ++ units "04"

theorem crcTag_eq : crcTag = [0x36, 0x33, 0x30, 0x34] := by decide

theorem find_last {p : Nat → Bool} {n index : Nat} :
    (List.range n).reverse.find? p = some index ↔
      index < n ∧ p index = true ∧ ∀ later, index < later → later < n → p later = false := by
  induction n with
  | zero => simp
  | succ n ih =>
    rw [List.range_succ, List.reverse_append, List.reverse_singleton, List.singleton_append, List.find?_cons]
    cases hp : p n with
    | true =>
      constructor
      · intro h
        have hindex := Option.some.inj h
        subst hindex
        exact ⟨Nat.lt_succ_self n, hp, fun later hlt hle => by omega⟩
      · rintro ⟨hlt, -, hlater⟩
        by_cases hindex : index = n
        · rw [hindex]
        · have hfalse := hlater n (by omega) (Nat.lt_succ_self n)
          exact absurd (hp.symm.trans hfalse) Bool.true_eq_false.mp
    | false =>
      refine ih.trans ⟨fun ⟨hlt, hindex, hlater⟩ => ⟨by omega, hindex, fun later hl hn => ?_⟩,
        fun ⟨hlt, hindex, hlater⟩ => ⟨?_, hindex, fun later hl hn => hlater later hl (by omega)⟩⟩
      · by_cases hlast : later = n
        · rw [hlast, hp]
        · exact hlater later hl (by omega)
      · by_contra hle
        have hlast : index = n := by omega
        rw [hlast, hp] at hindex
        exact absurd hindex Bool.false_ne_true

theorem lastIndexOf_eq_some {mark text : Text} {index : Nat} :
    lastIndexOf mark text = some index ↔ index < text.length + 1 ∧ mark.isPrefixOf (text.drop index) = true ∧
      ∀ later, index < later → later < text.length + 1 → mark.isPrefixOf (text.drop later) = false :=
  find_last

/-- After the tag of the CRC the tag can only occur again as the CRC itself. -/
theorem tag_again {digits : Text} (hdigits : digits.length = 4) {later : Nat} (hlater : 0 < later)
    (hle : later ≤ 8) (h : crcTag.isPrefixOf ((crcTag ++ digits).drop later) = true) :
    later = 4 ∧ digits = crcTag := by
  obtain ⟨a, b, c, d, rfl⟩ : ∃ a b c d, digits = [a, b, c, d] := by
    match digits, hdigits with
    | [a, b, c, d], _ => exact ⟨a, b, c, d, rfl⟩
  rw [crcTag_eq] at h ⊢
  interval_cases later <;> simp_all [List.isPrefixOf]

theorem lastIndexOf_tag {digits : Text} (body : Text) (hdigits : digits.length = 4) :
    lastIndexOf crcTag (body ++ crcTag ++ digits) =
      some (if digits = crcTag then body.length + 4 else body.length) := by
  have hlength : (body ++ crcTag ++ digits).length = body.length + 8 := by
    rw [List.length_append, List.length_append, hdigits]
    rfl
  have hdrop : ∀ later, (body ++ crcTag ++ digits).drop (body.length + later) =
    (crcTag ++ digits).drop later := by
    intro later
    rw [List.append_assoc, List.drop_append, List.drop_eq_nil_of_le (by omega), List.nil_append,
      Nat.add_sub_cancel_left]
  rw [lastIndexOf_eq_some, hlength]
  by_cases hsame : digits = crcTag
  · rw [if_pos hsame, hdrop]
    refine ⟨by omega, by rw [hsame]; decide, fun later hlater hle => ?_⟩
    rw [show later = body.length + (later - body.length) by omega, hdrop]
    by_contra hfound
    have hagain := tag_again hdigits (by omega) (by omega) (Bool.not_eq_false _ ▸ hfound)
    omega
  · rw [if_neg hsame]
    have hfirst := hdrop 0
    rw [Nat.add_zero, List.drop_zero] at hfirst
    rw [hfirst]
    refine ⟨by omega, List.isPrefixOf_iff_prefix.mpr (List.prefix_append crcTag digits),
      fun later hlater hle => ?_⟩
    rw [show later = body.length + (later - body.length) by omega, hdrop]
    by_contra hfound
    exact hsame (tag_again hdigits (by omega) (by omega) (Bool.not_eq_false _ ▸ hfound)).2

/-- A text that ends in a tag and four digits. -/
theorem verify_split {digits : Text} (body : Text) (hdigits : digits.length = 4) :
    verifyEmvCrc (body ++ crcTag ++ digits) = true ↔ digits ≠ crcTag ∧ crc16 (body ++ crcTag) =
      digits.map upper := by
  have hlength : (body ++ crcTag ++ digits).length = body.length + 8 := by
    rw [List.length_append, List.length_append, hdigits]
    rfl
  have hmark : lastIndexOf (EmvId.CRC ++ units "04") (body ++ crcTag ++ digits) = _ :=
    lastIndexOf_tag body hdigits
  have htag : (body ++ crcTag).length = body.length + 4 := List.length_append
  rw [verifyEmvCrc, hmark, hlength]
  by_cases hsame : digits = crcTag
  · rw [if_pos hsame]
    simp only [Bool.and_eq_true, decide_eq_true_eq]
    exact ⟨fun h => by omega, fun h => absurd hsame h.1⟩
  · rw [if_neg hsame]
    simp only [Bool.and_eq_true, decide_eq_true_eq]
    rw [← htag, List.take_left, List.drop_left]
    exact ⟨fun h => ⟨hsame, h.2⟩, fun h => ⟨trivial, h.2⟩⟩

theorem verify_shape {text : Text} (h : verifyEmvCrc text = true) :
    ∃ body digits, text = body ++ crcTag ++ digits ∧ digits.length = 4 := by
  rw [verifyEmvCrc] at h
  cases hmarker : lastIndexOf (EmvId.CRC ++ units "04") text with
  | none =>
    rw [hmarker] at h
    exact absurd h Bool.false_ne_true
  | some marker =>
    rw [hmarker] at h
    simp only [Bool.and_eq_true, decide_eq_true_eq] at h
    obtain ⟨rest, hrest⟩ := List.isPrefixOf_iff_prefix.mp (lastIndexOf_eq_some.mp hmarker).2.1
    have htext : text = text.take marker ++ crcTag ++ rest := by
      rw [List.append_assoc, crcTag, hrest, List.take_append_drop]
    have hlength := congrArg List.length hrest
    have hfour : (EmvId.CRC ++ units "04").length = 4 := by decide
    rw [List.length_append, List.length_drop, hfour] at hlength
    exact ⟨text.take marker, rest, htext, by omega⟩

/-- What is encoded ends in its own CRC. -/
theorem encodeEmv_ok {nodes : List EmvNode} {payload : Text} (h : encodeEmv nodes = .ok payload) :
    ∃ body, encodeNodes (nodes.filter fun node => decide (node.id ≠ EmvId.CRC)) = .ok body ∧
      payload = body ++ crcTag ++ crc16 (body ++ crcTag) := by
  obtain ⟨body, hbody, h⟩ := bind_eq_ok.mp h
  refine ⟨body, hbody, ?_⟩
  rw [crcTag, ← List.append_assoc]
  exact (Except.ok.inj h).symm

theorem generated_crc_verifies_iff (nodes : List EmvNode) (body payload : Text)
    (hbody : encodeNodes (nodes.filter fun node => decide (node.id ≠ EmvId.CRC)) = .ok body)
    (h : encodeEmv nodes = .ok payload) :
    verifyEmvCrc payload = true ↔ crc16 (body ++ EmvId.CRC ++ units "04") ≠ units "6304" := by
  obtain ⟨other, hother, rfl⟩ := encodeEmv_ok h
  have hsame := Except.ok.inj (hbody.symm.trans hother)
  subst hsame
  have htag : crcTag = units "6304" := by decide
  rw [verify_split body rfl, crc16_upper, List.append_assoc, ← htag]
  exact ⟨fun h => h.1, fun h => ⟨h, rfl⟩⟩

def shopNodes : List EmvNode :=
  [.node (units "00") (units "01") none,
    .node (units "26") (units "0014br.gov.bcb.pix0107a@ab.cd")
      (some [.node (units "00") (units "br.gov.bcb.pix") none, .node (units "01") (units "a@ab.cd") none]),
    .node (units "52") (units "0000") none, .node (units "53") (units "986") none,
    .node (units "58") (units "BR") none, .node (units "59") (units "LOJA") none,
    .node (units "60") (units "SAO PAULO") none]

def shopBody : Text := units "00020126290014br.gov.bcb.pix0107a@ab.cd5204000053039865802BR5904LOJA6009SAO PAULO"

theorem generated_crc_verifies_iff_shop : ∃ payload, encodeEmv shopNodes = .ok payload ∧
    (verifyEmvCrc payload = true ↔ crc16 (shopBody ++ EmvId.CRC ++ units "04") ≠ units "6304") :=
  ⟨shopBody ++ crcTag ++ crc16 (shopBody ++ crcTag), by decide +kernel,
    generated_crc_verifies_iff shopNodes shopBody _ (by decide +kernel) (by decide +kernel)⟩

theorem generated_crc_refused : encodeEmv [.node (units "00") (units "43094") none] =
      .ok (units "00054309463046304") ∧
    verifyEmvCrc (units "00054309463046304") = false := by
  decide +kernel

/-- The change is one of letter case in the digits of the CRC. -/
def OnlyCase (text : Text) (index : Nat) (unit : UInt16) : Prop :=
  text.length ≤ index + 4 ∧ (text[index]?.map upper) = some (upper unit)

theorem body_error {body digits : Text} (hdigits : digits.length = 4)
    (h : verifyEmvCrc (body ++ crcTag ++ digits) = true) {index : Nat}
    (hindex : index < body.length) (unit : UInt16) :
    verifyEmvCrc ((body ++ crcTag ++ digits).set index unit) = true ↔
      body[index].toNat % 0x100 = unit.toNat % 0x100 := by
  obtain ⟨hother, hcrc⟩ := (verify_split body hdigits).mp h
  have hset : (body ++ crcTag ++ digits).set index unit = body.set index unit ++ crcTag ++ digits := by
    rw [List.set_append_left _ _ (by rw [List.length_append]; omega), List.set_append_left _ _ hindex]
  have hbody : body ++ crcTag = body.take index ++ body[index] :: (body.drop (index + 1) ++ crcTag) := by
    rw [← List.cons_append, ← List.drop_eq_getElem_cons hindex, ← List.append_assoc, List.take_append_drop]
  have hchanged : body.set index unit ++ crcTag = body.take index ++
    unit :: (body.drop (index + 1) ++ crcTag) := by
    rw [List.set_eq_take_append_cons_drop, if_pos hindex, List.append_assoc, List.cons_append]
  rw [hset, verify_split _ hdigits, ← hcrc, hbody, hchanged, eq_comm (b := crc16 _), crc16_single_iff]
  exact ⟨fun h => h.2, fun h => ⟨hother, h⟩⟩

theorem tag_error {body digits : Text} (hdigits : digits.length = 4) {index : Nat} (hle : body.length ≤ index)
    (hlt : index < body.length + 4) {unit : UInt16} (hunit : crcTag[index - body.length]? ≠ some unit) :
    verifyEmvCrc ((body ++ crcTag ++ digits).set index unit) = false := by
  by_contra hverified
  obtain ⟨body', digits', htext, hdigits'⟩ := verify_shape (Bool.not_eq_false _ ▸ hverified)
  have htag : crcTag.length = 4 := rfl
  have hlength := congrArg List.length htext
  simp only [List.length_set, List.length_append, hdigits, hdigits', htag] at hlength
  have hread := congrArg (fun text : Text => text[index]?) htext
  have hset : ((body ++ crcTag ++ digits).set index unit)[index]? = some unit := by
    rw [List.getElem?_set_self]
    simp only [List.length_append, htag]
    omega
  have hkept : (body' ++ crcTag ++ digits')[index]? = crcTag[index - body.length]? := by
    rw [List.append_assoc, List.getElem?_append_right (by omega), List.getElem?_append_left (by omega)]
    congr 1
    omega
  exact hunit ((hset.symm.trans hread).trans hkept).symm

theorem digit_error {body digits : Text} (hdigits : digits.length = 4)
    (h : verifyEmvCrc (body ++ crcTag ++ digits) = true) {index : Nat} (hle : body.length + 4 ≤ index)
    (hlt : index < body.length + 8) (unit : UInt16)
    (hverified : verifyEmvCrc ((body ++ crcTag ++ digits).set index unit) = true) :
    (digits[index - (body.length + 4)]?).map upper = some (upper unit) := by
  have htag : (body ++ crcTag).length = body.length + 4 := List.length_append
  have hset : (body ++ crcTag ++ digits).set index unit =
      body ++ crcTag ++ digits.set (index - (body.length + 4)) unit := by
    rw [List.set_append_right _ _ (by omega), htag]
  rw [hset, verify_split _ (by rw [List.length_set, hdigits])] at hverified
  have hsame := hverified.2.symm.trans ((verify_split body hdigits).mp h).2
  have hread := congrArg (fun text : Text => text[index - (body.length + 4)]?) hsame
  simp only [List.getElem?_map] at hread
  rw [← hread, List.getElem?_set_self (by omega)]
  rfl

/-- A changed character goes unnoticed in the body when its low byte is the same. -/
theorem single_error_caught_iff (text : Text) (index : Nat) (unit : UInt16) (h : verifyEmvCrc text = true)
    (hindex : index < text.length) (hunit : text[index] ≠ unit) :
    verifyEmvCrc (text.set index unit) = false ∨ OnlyCase text index unit ↔
      (index + 8 < text.length → text[index].toNat % 0x100 ≠ unit.toNat % 0x100) := by
  obtain ⟨body, digits, rfl, hdigits⟩ := verify_shape h
  have htag : crcTag.length = 4 := rfl
  have hlength : (body ++ crcTag ++ digits).length = body.length + 8 := by
    rw [List.length_append, List.length_append, hdigits, htag]
  by_cases hbody : index < body.length
  · have hread : (body ++ crcTag ++ digits)[index] = body[index] := by
      rw [List.getElem_append_left (by rw [List.length_append]; omega), List.getElem_append_left hbody]
    have hcaught := body_error hdigits h hbody unit
    rw [hread]
    constructor
    · rintro (hfalse | ⟨hlast, -⟩) - hlow
      · exact absurd (hfalse.symm.trans (hcaught.mpr hlow)) Bool.false_ne_true
      · omega
    · intro hdiffer
      have hne := hdiffer (by omega)
      exact .inl (Bool.eq_false_iff.mpr fun hverified => hne (hcaught.mp hverified))
  · refine ⟨fun _ hlt => by omega, fun _ => ?_⟩
    by_cases hmark : index < body.length + 4
    · refine .inl (tag_error hdigits (by omega) hmark fun hsame => hunit ?_)
      have hread : (body ++ crcTag ++ digits)[index]? = crcTag[index - body.length]? := by
        rw [List.append_assoc, List.getElem?_append_right (by omega), List.getElem?_append_left (by omega)]
      rw [hsame, List.getElem?_eq_getElem hindex] at hread
      exact Option.some.inj hread
    · by_cases hverified : verifyEmvCrc ((body ++ crcTag ++ digits).set index unit) = true
      · refine .inr ⟨by omega, ?_⟩
        have hbodytag : (body ++ crcTag).length = body.length + 4 := List.length_append
        rw [List.getElem?_append_right (by omega), hbodytag]
        exact digit_error hdigits h (by omega) (by omega) unit hverified
      · exact .inl (Bool.eq_false_iff.mpr hverified)

theorem single_error_caught_iff_shop :
    verifyEmvCrc ((units "0001A6304" ++ crc16 (units "0001A6304")).set 4 0x42) = false ∨
        OnlyCase (units "0001A6304" ++ crc16 (units "0001A6304")) 4 0x42 ↔
      (4 + 8 < (units "0001A6304" ++ crc16 (units "0001A6304")).length → 0x41 % 0x100 ≠ 0x42 % 0x100) :=
  single_error_caught_iff (units "0001A6304" ++ crc16 (units "0001A6304")) 4 0x42 (by decide +kernel)
    (by decide) (by decide)

/-- The code unit 0x141 in the place of the letter A. -/
theorem single_error_missed : ∃ (text : Text) (index : Nat) (unit : UInt16), verifyEmvCrc text = true ∧
    (∃ hindex : index < text.length, text[index] ≠ unit) ∧ verifyEmvCrc (text.set index unit) = true ∧
      ¬ OnlyCase text index unit :=
  ⟨units "0001A6304" ++ crc16 (units "0001A6304"), 4,
    0x141, by decide +kernel, ⟨by decide, by decide⟩,
    by decide +kernel, fun h => absurd h.1 (by decide)⟩

end BaasConnector.Taxonomy.EmvCrc
