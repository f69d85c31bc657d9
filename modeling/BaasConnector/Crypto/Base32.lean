import BaasConnector.Lib.BitStreams
import BaasConnector.Lib.CodeUnits
import BaasConnector.Lib.Results

namespace BaasConnector.Crypto.Base32

open BaasConnector.Lib.BitStreams BaasConnector.Lib.CodeUnits BaasConnector.Lib.Results

def alphabet : Text := units "ABCDEFGHIJKLMNOPQRSTUVWXYZ234567"

/-- The letter of an index below 32. -/
def letter (index : BitVec 32) : UInt16 := alphabet.getD index.toNat 0

structure Encoder where
  bits : Nat
  accumulator : BitVec 32
  out : Text

/-- The inner loop: a letter for every five pending bits. -/
def drain (s : Encoder) : Encoder :=
  if 5 ≤ s.bits then
    drain { s with
      bits := s.bits - 5
      out := s.out ++ [letter (s.accumulator.sshiftRight (s.bits - 5) &&& 0x1f)] }
  else s
termination_by s.bits

def encodeByte (s : Encoder) (byte : UInt8) : Encoder :=
  drain { s with bits := s.bits + 8, accumulator := s.accumulator <<< 8 ||| byte.toBitVec.setWidth 32 }

def encodeBase32 (buffer : List UInt8) : Text :=
  let s := buffer.foldl encodeByte { bits := 0, accumulator := 0, out := [] }
  if 0 < s.bits then s.out ++ [letter (s.accumulator <<< (5 - s.bits) &&& 0x1f)] else s.out

/-- The characters that a loop over a text takes: a surrogate pair is one. -/
def characters : Text → List Text
  | high :: low :: text =>
    if (0xD800 ≤ high ∧ high < 0xDC00) ∧ 0xDC00 ≤ low ∧ low < 0xE000 then [high, low] :: characters text
    else [high] :: characters (low :: text)
  | [unit] => [[unit]]
  | [] => []

def indexOf : Text → Option (BitVec 32)
  | [unit] => if unit ∈ alphabet then some (BitVec.ofNat 32 (alphabet.idxOf unit)) else none
  | _ => none

structure Decoder where
  bits : Nat
  accumulator : BitVec 32
  out : List UInt8

def decodeCharacter (s : Decoder) (character : Text) : Except Text Decoder :=
  match indexOf character with
  | none => .error (units "Caractere invalido em base32: " ++ character)
  | some index =>
    let accumulator := s.accumulator <<< 5 ||| index
    if 8 ≤ s.bits + 5 then
      .ok { bits := s.bits + 5 - 8, accumulator
            out := s.out ++ [⟨(accumulator.sshiftRight (s.bits + 5 - 8) &&& 0xff).setWidth 8⟩] }
    else .ok { s with bits := s.bits + 5, accumulator }

variable (toUpperCase : Text → Text)

/-- The capitals, without the padding at the end and without white space. -/
def clean (value : Text) : Text :=
  ((toUpperCase value).rdropWhile (· = 0x3D)).filter fun unit => !isSpace unit

def decodeBase32 (value : Text) : Except Text (List UInt8) :=
  ((characters (clean toUpperCase value)).foldlM decodeCharacter
    { bits := 0, accumulator := 0, out := [] }).map
    Decoder.out

example : encodeBase32 [102, 111, 111, 98] = units "MZXW6YQ" := by decide +kernel

def valueOf (unit : UInt16) : BitVec 32 := BitVec.ofNat 32 (alphabet.idxOf unit)

def letterBits (text : Text) : List Bool := stream 5 (text.map valueOf)

def byteBits (bytes : List UInt8) : List Bool := stream 8 (bytes.map UInt8.toBitVec)

def Letters (text : Text) : Prop := ∀ unit ∈ text, unit ∈ alphabet

theorem idxOf_letter : ∀ index < 32, alphabet.idxOf (alphabet.getD index 0) = index := by decide

theorem letter_mem {index : BitVec 32} (h : index.toNat < 32) : letter index ∈ alphabet := by
  have hall : ∀ i < 32, alphabet.getD i 0 ∈ alphabet := by decide
  exact hall index.toNat h

theorem valueOf_letter {index : BitVec 32} (h : index.toNat < 32) : valueOf (letter index) = index := by
  rw [valueOf, letter, idxOf_letter _ h, BitVec.ofNat_toNat, BitVec.setWidth_eq]

theorem masked_lt (word : BitVec 32) : (word &&& 0x1f).toNat < 32 := by
  rw [BitVec.toNat_and]
  exact Nat.lt_of_le_of_lt Nat.and_le_right (by decide)

theorem letterBits_append (text more : Text) :
    letterBits (text ++ more) = letterBits text ++ letterBits more := by
  rw [letterBits, List.map_append, stream_append]
  rfl

theorem letterBits_masked (word : BitVec 32) : letterBits [letter (word &&& 0x1f)] = bits 5 word := by
  rw [letterBits, List.map_singleton, valueOf_letter (masked_lt word), stream_singleton]
  apply bits_congr
  intro i hi
  have hmask : ∀ j < 5, (0x1f : BitVec 32).getLsbD j = true := by decide
  rw [BitVec.getLsbD_and, hmask i hi, Bool.and_true]

theorem bits_sshiftRight {count shift : Nat} (h : count + shift ≤ 32) (word : BitVec 32) :
    bits count (word.sshiftRight shift) = bits count (word >>> shift) := by
  apply bits_congr
  intro i hi
  rw [BitVec.getLsbD_sshiftRight, BitVec.getLsbD_ushiftRight, if_pos (by omega)]
  simp
  omega

/-- The text so far and the pending bits are the bytes so far; what was shifted
out of the accumulator is in neither. -/
structure Encoding (bytes : List UInt8) (s : Encoder) : Prop where
  letters : Letters s.out
  pending : letterBits s.out ++ bits s.bits s.accumulator = byteBits bytes

theorem Letters.append {text : Text} (h : Letters text) {index : BitVec 32} (hindex : index.toNat < 32) :
    Letters (text ++ [letter index]) := by
  intro unit hmem
  obtain hmem | hmem := List.mem_append.mp hmem
  · exact h unit hmem
  · rw [List.mem_singleton.mp hmem]
    exact letter_mem hindex

theorem Encoding.drain {bytes : List UInt8} {s : Encoder} (h : Encoding bytes s) (hbits : s.bits ≤ 32) :
    Encoding bytes (drain s) ∧ (drain s).bits < 5 := by
  induction hcount : s.bits using Nat.strong_induction_on generalizing s with
  | _ count ih =>
    subst hcount
    rw [Base32.drain]
    split_ifs with hfive
    · refine ih (s.bits - 5) (by omega) ⟨h.letters.append (masked_lt _), ?_⟩ ?_ rfl
      · have hsplit := bits_add 5 (s.bits - 5) s.accumulator
        rw [← bits_sshiftRight (by omega), show 5 + (s.bits - 5) = s.bits by omega] at hsplit
        rw [letterBits_append, letterBits_masked, List.append_assoc, ← hsplit]
        exact h.pending
      · exact Nat.le_trans (Nat.sub_le _ _) hbits
    · exact ⟨h, by omega⟩

theorem byteBits_append (bytes : List UInt8) (byte : UInt8) :
    byteBits (bytes ++ [byte]) = byteBits bytes ++ bits 8 byte.toBitVec := by
  rw [byteBits, List.map_append, stream_append, List.map_singleton, stream_singleton]
  rfl

/-- A byte behind the pending bits. -/
theorem bits_push {count width : Nat} (h : count + width ≤ 32) (accumulator word : BitVec 32)
    (hword : ∀ i, width ≤ i → word.getLsbD i = false) :
    bits (count + width) (accumulator <<< width ||| word) = bits count accumulator ++ bits width word := by
  rw [bits_add]
  congr 1
  · apply bits_congr
    intro i hi
    have hlt : width + i < 32 := by omega
    have hge : ¬ width + i < width := by omega
    rw [BitVec.getLsbD_ushiftRight, BitVec.getLsbD_or, BitVec.getLsbD_shiftLeft, hword (width + i) (by omega),
      Nat.add_sub_cancel_left, decide_eq_true hlt, decide_eq_false hge]
    simp only [Bool.not_false, Bool.true_and, Bool.or_false]
  · apply bits_congr
    intro i hi
    simp [hi]

theorem Encoding.byte {bytes : List UInt8} {s : Encoder} (h : Encoding bytes s)
    (hbits : s.bits < 5) (byte : UInt8) :
    Encoding (bytes ++ [byte]) (encodeByte s byte) ∧ (encodeByte s byte).bits < 5 := by
  refine Encoding.drain (Encoding.mk h.letters ?_) (show s.bits + 8 ≤ 32 by omega)
  have hhigh : ∀ i, 8 ≤ i → (byte.toBitVec.setWidth 32).getLsbD i = false := by
    intro i hi
    rw [BitVec.getLsbD_setWidth, BitVec.getLsbD_of_ge _ _ hi, Bool.and_false]
  have hlow : bits 8 (byte.toBitVec.setWidth 32) = bits 8 byte.toBitVec := by
    apply bits_congr
    intro i hi
    rw [BitVec.getLsbD_setWidth, decide_eq_true (show i < 32 by omega), Bool.true_and]
  have hpush := @bits_push s.bits 8 (by omega) s.accumulator _ hhigh
  show letterBits s.out ++ bits (s.bits + 8) (s.accumulator <<< 8 ||| byte.toBitVec.setWidth 32) = _
  rw [hpush, byteBits_append, ← List.append_assoc, h.pending, hlow]

theorem encoding_foldl (bytes : List UInt8) :
    Encoding bytes (bytes.foldl encodeByte { bits := 0, accumulator := 0, out := [] }) ∧
      (bytes.foldl encodeByte { bits := 0, accumulator := 0, out := [] }).bits < 5 := by
  induction bytes using List.reverseRecOn with
  | nil => exact ⟨⟨fun _ h => absurd h List.not_mem_nil, rfl⟩, Nat.succ_pos 4⟩
  | append_singleton bytes byte ih =>
    rw [List.foldl_append]
    exact ih.1.byte ih.2 byte

/-- The letters of some bytes are their bits, and zeros up to the last letter. -/
theorem encodeBase32_bits (bytes : List UInt8) : Letters (encodeBase32 bytes) ∧
    ∃ zeros < 5, letterBits (encodeBase32 bytes) = byteBits bytes ++ List.replicate zeros false := by
  obtain ⟨h, hbits⟩ := encoding_foldl bytes
  rw [encodeBase32]
  generalize bytes.foldl encodeByte { bits := 0, accumulator := 0, out := [] } = s at h hbits
  by_cases hpending : 0 < s.bits
  · simp only [if_pos hpending]
    refine ⟨h.letters.append (masked_lt _), 5 - s.bits, by omega, ?_⟩
    have hzeros : ∀ i, 5 - s.bits ≤ i → (0 : BitVec 32).getLsbD i = false := fun i _ => BitVec.getLsbD_zero
    have hpush := @bits_push s.bits (5 - s.bits) (by omega) s.accumulator 0 hzeros
    rw [show s.accumulator <<< (5 - s.bits) ||| (0 : BitVec 32) = s.accumulator <<<
      (5 - s.bits) from BitVec.or_zero, show s.bits + (5 - s.bits) = 5 by omega,
      @bits_zero 32 (5 - s.bits) 0 fun i _ => BitVec.getLsbD_zero] at hpush
    rw [letterBits_append, letterBits_masked, hpush, ← List.append_assoc, h.pending]
  · simp only [if_neg hpending]
    refine ⟨h.letters, 0, by omega, ?_⟩
    have hbits := h.pending
    rw [show s.bits = 0 by omega] at hbits
    rw [← hbits, List.replicate_zero, List.append_nil]
    exact (List.append_nil _).symm

theorem characters_flatten (text : Text) : (characters text).flatten = text := by
  induction text using characters.induct with
  | case1 high low text hpair ih =>
    rw [characters, if_pos hpair, List.flatten_cons, ih]
    rfl
  | case2 high low text hpair ih =>
    rw [characters, if_neg hpair, List.flatten_cons, ih]
    rfl
  | case3 unit => rfl
  | case4 => rfl

theorem letter_below : ∀ unit ∈ alphabet, ¬ 0xD800 ≤ unit := forall_units (by decide)

theorem characters_letters {text : Text} (h : Letters text) :
    characters text = text.map fun unit => [unit] := by
  induction text using characters.induct with
  | case1 high low text hpair ih => exact absurd hpair.1.1 (letter_below high (h high List.mem_cons_self))
  | case2 high low text hpair ih =>
    rw [characters, if_neg hpair, ih fun unit hmem => h unit (List.mem_cons_of_mem _ hmem)]
    rfl
  | case3 unit => rfl
  | case4 => rfl

theorem indexOf_eq_some {character : Text} {index : BitVec 32} (h : indexOf character = some index) :
    ∃ unit ∈ alphabet, character = [unit] ∧ index = valueOf unit := by
  match character, h with
  | [unit], h =>
    rw [indexOf] at h
    split_ifs at h with hmem
    exact ⟨unit, hmem, rfl, (Option.some.inj h).symm⟩

theorem valueOf_high {unit : UInt16} (h : unit ∈ alphabet) (i : Nat) (hi : 5 ≤ i) :
    (valueOf unit).getLsbD i = false := by
  have hall : ∀ unit ∈ alphabet, alphabet.idxOf unit < 32 := forall_units (by decide)
  rw [valueOf, BitVec.getLsbD_ofNat]
  have hlt : alphabet.idxOf unit < 2 ^ i := Nat.lt_of_lt_of_le (hall unit h)
    (show 2 ^ 5 ≤ 2 ^ i from Nat.pow_le_pow_right (by decide) hi)
  rw [Nat.testBit_lt_two_pow hlt, Bool.and_false]

theorem letterBits_singleton (unit : UInt16) : letterBits [unit] = bits 5 (valueOf unit) := by
  rw [letterBits, List.map_singleton, stream_singleton]

theorem bits_byte (word : BitVec 32) : bits 8 ((word &&& 0xff).setWidth 8) = bits 8 word := by
  apply bits_congr
  intro i hi
  have hmask : ∀ j < 8, (0xff : BitVec 32).getLsbD j = true := by decide
  rw [BitVec.getLsbD_setWidth, BitVec.getLsbD_and, hmask i hi, Bool.and_true,
    decide_eq_true hi, Bool.true_and]

/-- The bytes so far and the pending bits are the letters so far. -/
structure Decoding (text : Text) (s : Decoder) : Prop where
  letters : Letters text
  pending : byteBits s.out ++ bits s.bits s.accumulator = letterBits text

theorem Decoding.character {text : Text} {s s' : Decoder} {character : Text}
    (h : Decoding text s) (hbits : s.bits < 8)
    (hstep : decodeCharacter s character = .ok s') :
    ∃ unit, character = [unit] ∧ Decoding (text ++ [unit]) s' ∧ s'.bits < 8 := by
  rw [decodeCharacter] at hstep
  cases hindex : indexOf character with
  | none =>
    rw [hindex] at hstep
    exact nomatch hstep
  | some index =>
    obtain ⟨unit, hunit, rfl, rfl⟩ := indexOf_eq_some hindex
    rw [hindex] at hstep
    have hpush := @bits_push s.bits 5 (by omega) s.accumulator (valueOf unit) (valueOf_high hunit)
    have hletters : Letters (text ++ [unit]) := by
      intro other hmem
      obtain hmem | hmem := List.mem_append.mp hmem
      · exact h.letters other hmem
      · rw [List.mem_singleton.mp hmem]
        exact hunit
    have htext : letterBits (text ++ [unit]) = letterBits text ++ bits 5 (valueOf unit) := by
      rw [letterBits_append, letterBits_singleton]
    refine ⟨unit, rfl, ?_⟩
    simp only at hstep
    split_ifs at hstep with height
    · rw [← Except.ok.inj hstep]
      refine ⟨⟨hletters, ?_⟩, show s.bits + 5 - 8 < 8 by omega⟩
      have hsplit := bits_add 8 (s.bits + 5 - 8) (s.accumulator <<< 5 ||| valueOf unit)
      rw [← bits_sshiftRight (by omega), show 8 + (s.bits + 5 - 8) = s.bits + 5 by omega, hpush] at hsplit
      show byteBits (s.out ++ [_]) ++ bits (s.bits + 5 - 8) (s.accumulator <<< 5 ||| valueOf unit) = _
      rw [byteBits_append, bits_byte, List.append_assoc, ← hsplit, htext, ← List.append_assoc, h.pending]
    · rw [← Except.ok.inj hstep]
      refine ⟨⟨hletters, ?_⟩, show s.bits + 5 < 8 by omega⟩
      show byteBits s.out ++ bits (s.bits + 5) (s.accumulator <<< 5 ||| valueOf unit) = _
      rw [hpush, htext, ← List.append_assoc, h.pending]

theorem decoding_foldlM {chars : List Text} {before : Text} {s s' : Decoder}
    (h : Decoding before s) (hbits : s.bits < 8)
    (hrun : chars.foldlM decodeCharacter s = .ok s') :
    Decoding (before ++ chars.flatten) s' ∧ s'.bits < 8 := by
  induction chars generalizing before s with
  | nil =>
    rw [← Except.ok.inj hrun, List.flatten_nil, List.append_nil]
    exact ⟨h, hbits⟩
  | cons character chars ih =>
    rw [List.foldlM_cons] at hrun
    obtain ⟨middle, hmiddle, hafter⟩ := bind_eq_ok.mp hrun
    obtain ⟨unit, rfl, hnext, hnextbits⟩ := h.character hbits hmiddle
    rw [List.flatten_cons, ← List.append_assoc]
    exact ih hnext hnextbits hafter

variable {toUpperCase : Text → Text}

/-- The bits of the letters are those of the bytes, and fewer than eight more. -/
theorem decodeBase32_bits {value : Text} {bytes : List UInt8}
    (h : decodeBase32 toUpperCase value = .ok bytes) :
    Letters (clean toUpperCase value) ∧
      ∃ rest, rest.length < 8 ∧ byteBits bytes ++ rest = letterBits (clean toUpperCase value) := by
  obtain ⟨s, hrun, rfl⟩ := map_eq_ok.mp h
  have hstart : Decoding [] { bits := 0, accumulator := 0, out := [] } :=
    ⟨fun _ hmem => absurd hmem List.not_mem_nil, rfl⟩
  obtain ⟨hdecoding, hbits⟩ := decoding_foldlM hstart (show 0 < 8 by decide) hrun
  rw [List.nil_append, characters_flatten] at hdecoding
  exact ⟨hdecoding.letters, _, by rw [bits_length]; exact hbits, hdecoding.pending⟩

theorem foldlM_letters {text : Text} (h : Letters text) (s : Decoder) :
    ∃ s', (text.map fun unit => [unit]).foldlM decodeCharacter s = .ok s' := by
  induction text generalizing s with
  | nil => exact ⟨s, rfl⟩
  | cons unit text ih =>
    have hindex : indexOf [unit] = some (valueOf unit) := if_pos (h unit List.mem_cons_self)
    obtain ⟨next, hnext⟩ : ∃ next, decodeCharacter s [unit] = .ok next := by
      rw [decodeCharacter, hindex]
      simp only
      split_ifs
      · exact ⟨_, rfl⟩
      · exact ⟨_, rfl⟩
    rw [List.map_cons, List.foldlM_cons, hnext, ok_bind]
    exact ih (fun other hmem => h other (List.mem_cons_of_mem _ hmem)) next

/-- Letters are all that the decoder asks for. -/
theorem decodeBase32_letters {value : Text} (h : Letters (clean toUpperCase value)) :
    ∃ bytes, decodeBase32 toUpperCase value = .ok bytes := by
  obtain ⟨s, hrun⟩ := foldlM_letters h { bits := 0, accumulator := 0, out := [] }
  rw [decodeBase32, characters_letters h, hrun]
  exact ⟨s.out, rfl⟩

theorem clean_letters {text : Text} (h : Letters text) (hupper : toUpperCase text = text) :
    clean toUpperCase text = text := by
  have hspace : ∀ unit ∈ alphabet, isSpace unit = false := forall_units (by decide)
  have hpadding : ∀ unit ∈ alphabet, unit ≠ 0x3D := forall_units (by decide)
  have hdrop : text.rdropWhile (· = 0x3D) = text := by
    refine List.rdropWhile_eq_self_iff.mpr fun hne hlast => ?_
    exact hpadding _ (h _ (List.getLast_mem hne)) (of_decide_eq_true hlast)
  rw [clean, hupper, hdrop]
  refine List.filter_eq_self.mpr fun unit hmem => ?_
  rw [hspace unit (h unit hmem)]
  rfl

theorem byteBits_length (bytes : List UInt8) : (byteBits bytes).length = 8 * bytes.length := by
  rw [byteBits, stream_length, List.length_map]

theorem letterBits_length (text : Text) : (letterBits text).length = 5 * text.length := by
  rw [letterBits, stream_length, List.length_map]

theorem byteBits_injective {bytes others : List UInt8} (h : byteBits bytes = byteBits others) :
    bytes = others := by
  have hhigh : ∀ bytes : List UInt8, ∀ word ∈ bytes.map UInt8.toBitVec, ∀ i, 8 ≤ i → word.getLsbD i = false :=
    fun _ word _ i hi => BitVec.getLsbD_of_ge word i hi
  have hwords := stream_injective (by decide) (hhigh bytes) (hhigh others) h
  exact List.map_injective_iff.mpr (fun _ _ => UInt8.toBitVec_inj.mp) hwords

theorem letterBits_injective {text other : Text} (htext : Letters text) (hother : Letters other)
    (h : letterBits text = letterBits other) : text = other := by
  have hhigh : ∀ text, Letters text → ∀ word ∈ text.map valueOf, ∀ i, 5 ≤ i → word.getLsbD i = false := by
    intro text hletters word hmem i hi
    obtain ⟨unit, hunit, rfl⟩ := List.mem_map.mp hmem
    exact valueOf_high (hletters unit hunit) i hi
  have hwords := stream_injective (by decide) (hhigh text htext) (hhigh other hother) h
  have hback : ∀ unit ∈ alphabet, letter (valueOf unit) = unit := forall_units (by decide)
  have hread : ∀ text, Letters text → (text.map valueOf).map letter = text := by
    intro text hletters
    rw [List.map_map]
    exact (List.map_congr_left fun unit hmem => hback unit (hletters unit hmem)).trans (List.map_id text)
  rw [← hread text htext, hwords, hread other hother]

theorem decode_encode (hupper : ∀ text, Letters text → toUpperCase text = text) (bytes : List UInt8) :
    decodeBase32 toUpperCase (encodeBase32 bytes) = .ok bytes := by
  obtain ⟨hletters, zeros, hzeros, hencoded⟩ := encodeBase32_bits bytes
  have hclean := clean_letters hletters (hupper _ hletters)
  obtain ⟨other, hother⟩ := decodeBase32_letters (hclean.symm ▸ hletters)
  obtain ⟨-, rest, hrest, hdecoded⟩ := decodeBase32_bits hother
  rw [hclean, hencoded] at hdecoded
  have hlength := congrArg List.length hdecoded
  rw [List.length_append, List.length_append, byteBits_length, byteBits_length,
    List.length_replicate] at hlength
  have hsame := (List.append_inj hdecoded (by rw [byteBits_length, byteBits_length]; omega)).1
  rw [hother, byteBits_injective hsame]

/-- The letters that carry a bit of a byte. One, three or six letters after the
last full eight end in a letter that carries none. -/
def carrying (text : Text) : Text := if 5 ≤ 5 * text.length % 8 then text.dropLast else text

/-- The text with its bits after the last byte set to zero. -/
def zeroTrailing (text : Text) : Text :=
  text.dropLast ++ text.getLast?.toList.map fun unit =>
    letter (valueOf unit >>> (5 * text.length % 8) <<< (5 * text.length % 8))

theorem bits_cleared {word : BitVec 32} {zeros : Nat} (h : zeros < 5) :
    bits 5 (word >>> zeros <<< zeros) = (bits 5 word).take (5 - zeros) ++ List.replicate zeros false := by
  have hsplit := bits_add (5 - zeros) zeros word
  have hcleared := bits_add (5 - zeros) zeros (word >>> zeros <<< zeros)
  rw [show 5 - zeros + zeros = 5 by omega] at hsplit hcleared
  have hlow : bits zeros (word >>> zeros <<< zeros) = List.replicate zeros false := by
    apply bits_zero
    intro i hi
    rw [BitVec.getLsbD_shiftLeft, decide_eq_true hi, Bool.not_true, Bool.and_false, Bool.false_and]
  have hhigh : bits (5 - zeros) (word >>> zeros <<< zeros >>> zeros) = bits (5 - zeros) (word >>> zeros) := by
    apply bits_congr
    intro i hi
    rw [BitVec.getLsbD_ushiftRight, BitVec.getLsbD_shiftLeft, decide_eq_true (show zeros + i < 32 by omega),
      decide_eq_false (show ¬ zeros + i < zeros by omega), Nat.add_sub_cancel_left,
        Bool.not_false, Bool.true_and,
      Bool.true_and]
  have htake : (bits 5 word).take (5 - zeros) = bits (5 - zeros) (word >>> zeros) := by
    rw [hsplit, List.take_left' (bits_length _ _)]
  rw [hcleared, hlow, hhigh, htake]

theorem letterBits_zeroTrailing {text : Text} (h : Letters text) (hzeros : 5 * text.length % 8 < 5) :
    letterBits (zeroTrailing text) =
        (letterBits text).take (5 * text.length - 5 * text.length % 8) ++
          List.replicate (5 * text.length % 8) false ∧
      Letters (zeroTrailing text) := by
  induction text using List.reverseRecOn with
  | nil => exact ⟨rfl, h⟩
  | append_singleton text unit _ =>
    have hunit := h unit (List.mem_append_right text (List.mem_singleton_self unit))
    generalize hcount : 5 * (text ++ [unit]).length % 8 = zeros at hzeros
    have hlength : 5 * (text ++ [unit]).length - zeros = (letterBits text).length + (5 - zeros) := by
      rw [letterBits_length, List.length_append, List.length_singleton]
      omega
    have hlast : zeroTrailing (text ++ [unit]) = text ++ [letter (valueOf unit >>> zeros <<< zeros)] := by
      rw [zeroTrailing, hcount, List.dropLast_concat, List.getLast?_concat]
      rfl
    have hbelow : (valueOf unit >>> zeros <<< zeros).toNat < 32 := by
      have hall : ∀ unit ∈ alphabet, (valueOf unit).toNat < 32 := forall_units (by decide)
      rw [BitVec.toNat_shiftLeft, BitVec.toNat_ushiftRight, Nat.shiftLeft_eq, Nat.shiftRight_eq_div_pow]
      exact Nat.lt_of_le_of_lt ((Nat.mod_le _ _).trans (Nat.div_mul_le_self _ _)) (hall unit hunit)
    rw [hlast, hlength, letterBits_append, letterBits_append, letterBits_singleton, letterBits_singleton,
      valueOf_letter hbelow, bits_cleared hzeros, List.take_length_add_append, List.append_assoc]
    refine ⟨rfl, Letters.append (fun other hmem => h other (List.mem_append_left _ hmem)) hbelow⟩

theorem carrying_begins (text : Text) : carrying text <+: text := by
  rw [carrying]
  split_ifs
  · exact List.dropLast_prefix text
  · exact List.prefix_rfl

theorem carrying_length (text : Text) :
    (carrying text).length = text.length - if 5 ≤ 5 * text.length % 8 then 1 else 0 := by
  rw [carrying]
  split_ifs
  · exact List.length_dropLast
  · rfl

/-- Letters that are read are written back as those that carry a byte. -/
theorem encode_decode {value : Text} {bytes : List UInt8} (h : decodeBase32 toUpperCase value = .ok bytes) :
    encodeBase32 bytes = zeroTrailing (carrying (clean toUpperCase value)) := by
  obtain ⟨hclean, rest, hrest, hdecoded⟩ := decodeBase32_bits h
  obtain ⟨hletters, zeros, hzeros, hencoded⟩ := encodeBase32_bits bytes
  generalize clean toUpperCase value = text at hclean hdecoded
  have hread := congrArg List.length hdecoded
  have hwritten := congrArg List.length hencoded
  rw [List.length_append, byteBits_length, letterBits_length] at hread
  rw [List.length_append, byteBits_length, letterBits_length, List.length_replicate] at hwritten
  obtain ⟨dropped, htext⟩ := carrying_begins text
  have hlength : (carrying text).length = (encodeBase32 bytes).length := by
    have hbytes : bytes.length = 5 * text.length / 8 := by omega
    rw [carrying_length]
    split_ifs <;> omega
  have hcarrying : Letters (carrying text) :=
    fun unit hmem => hclean unit ((carrying_begins text).subset hmem)
  have htrailing : 5 * (carrying text).length % 8 = zeros := by omega
  obtain ⟨hcleared, hclearedletters⟩ := letterBits_zeroTrailing hcarrying (by omega)
  apply letterBits_injective hletters hclearedletters
  have hbytes : (letterBits (carrying text)).take (8 * bytes.length) = byteBits bytes := by
    have hsame := congrArg (List.take (8 * bytes.length)) hdecoded
    have hfits : 8 * bytes.length ≤ (letterBits (carrying text)).length := by
      rw [letterBits_length]
      omega
    rw [List.take_left' (byteBits_length bytes), ← htext, letterBits_append,
      List.take_append_of_le_length hfits] at hsame
    exact hsame.symm
  rw [hencoded, hcleared, htrailing, show 5 * (carrying text).length - zeros =
    8 * bytes.length by omega, hbytes]

theorem base32_round_trip (hupper : ∀ text, Letters text → toUpperCase text = text) :
    (∀ bytes, decodeBase32 toUpperCase (encodeBase32 bytes) = .ok bytes) ∧
      ∀ value bytes, decodeBase32 toUpperCase value = .ok bytes →
        encodeBase32 bytes = zeroTrailing (carrying (clean toUpperCase value)) :=
  ⟨decode_encode hupper, fun _ _ h => encode_decode h⟩

theorem upper_letters {text : Text} (h : Letters text) : text.map upper = text := by
  have hall : ∀ unit ∈ alphabet, upper unit = unit := forall_units (by decide)
  exact (List.map_congr_left fun unit hmem => hall unit (h unit hmem)).trans (List.map_id text)

theorem base32_round_trip_ascii :
    decodeBase32 (·.map upper) (units "mzxw 6yq=") = .ok [102, 111, 111, 98] ∧
      decodeBase32 (·.map upper) (encodeBase32 [102, 111, 111, 98]) = .ok [102, 111, 111, 98] :=
  ⟨by decide, (base32_round_trip fun _ h => upper_letters h).1 [102, 111, 111, 98]⟩

/-- A single letter is read as no byte, which is written as no letter. -/
theorem single_letter_not_given_back : decodeBase32 (·.map upper) (units "A") = .ok [] ∧
    encodeBase32 [] = [] ∧
    encodeBase32 [] ≠ zeroTrailing (clean (·.map upper) (units "A")) := by
  decide

end BaasConnector.Crypto.Base32
