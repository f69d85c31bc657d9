import BaasConnector.Taxonomy.EmvCrc
import Mathlib.Algebra.Order.Field.Rat

namespace BaasConnector.Crypto.WebhookSignature

open BaasConnector.Lib.CodeUnits BaasConnector.Taxonomy.Emv BaasConnector.Taxonomy.EmvCrc

/-- The finite numbers, zero with either sign being one of them. -/
structure Numbers where
  Value : Type
  /-- The number that a text is converted to, when it is finite. -/
  parse : Text → Option Value
  print : Value → Text
  /-- Whether two numbers are farther apart than a third. -/
  apart : Value → Value → Value → Bool
  zero : Value

/-- A text that the grammar of the header leaves alone. -/
def Token (text : Text) : Prop := text ≠ [] ∧ ∀ unit ∈ text, unit ≠ 0x2C ∧ unit ≠ 0x3D ∧ isSpace unit = false

structure Numbers.Lawful (numbers : Numbers) : Prop where
  parse_print : ∀ value, numbers.parse (numbers.print value) = some value
  print_token : ∀ value, Token (numbers.print value)
  apart_self : ∀ value, numbers.apart value value numbers.zero = false

/-- Digests as hexadecimal texts, of messages that none share. -/
structure InjectiveHmac (hmac : Text → Text → Text) : Prop where
  message : ∀ secret other message message', hmac secret message = hmac other message' → message = message'
  token : ∀ secret message, Token (hmac secret message)

inductive SignatureFailure
  | malformed | timestamp_out_of_window | no_matching_signature
deriving DecidableEq, Repr

def SCHEME : Text := units "v1"

variable (numbers : Numbers) (hmac : Text → Text → Text)

structure SignatureInput (numbers : Numbers) where
  payload : Text
  timestampSeconds : numbers.Value
  secrets : List Text

def signaturePayload (timestampSeconds : numbers.Value) (payload : Text) : Text :=
  numbers.print timestampSeconds ++ 0x2E :: payload

def buildWebhookSignature (input : SignatureInput numbers) : Except String Text :=
  if input.secrets = [] then .error "Assinatura de webhook exige ao menos um segredo."
  else
    let signed := signaturePayload numbers input.timestampSeconds input.payload
    let elements := input.secrets.map fun secret => SCHEME ++ 0x3D :: hmac secret signed
    .ok ([0x2C].intercalate ((units "t=" ++ numbers.print input.timestampSeconds) :: elements))

/-- The key and the value of an element, when it has both. -/
def elementOf (part : Text) : Option (Text × Text) :=
  match ((trim part).splitOn 0x3D).take 2 with
  | [key, value] => if key = [] ∨ value = [] then none else some (key, value)
  | _ => none

structure SignatureHeader (numbers : Numbers) where
  timestamp : Option numbers.Value
  signatures : List Text

def readElement (header : SignatureHeader numbers) (part : Text) : SignatureHeader numbers :=
  match elementOf part with
  | none => header
  | some (key, value) =>
    if key = units "t" then { header with timestamp := (numbers.parse value).or header.timestamp }
    else if key = SCHEME then { header with signatures := header.signatures ++ [value] }
    else header

def parseSignatureHeader (header : Text) : Option (numbers.Value × List Text) :=
  let parsed := (header.splitOn 0x2C).foldl (readElement numbers) { timestamp := none, signatures := [] }
  match parsed.timestamp with
  | none => none
  | some timestamp => if parsed.signatures = [] then none else some (timestamp, parsed.signatures)

structure VerifyInput (numbers : Numbers) where
  header : Text
  payload : Text
  secrets : List Text
  nowSeconds : numbers.Value
  toleranceSeconds : numbers.Value

def verifyWebhookSignature (input : VerifyInput numbers) : Except SignatureFailure Unit :=
  match parseSignatureHeader numbers input.header with
  | none => .error .malformed
  | some (timestamp, signatures) =>
    if numbers.apart input.nowSeconds timestamp input.toleranceSeconds then .error .timestamp_out_of_window
    else
      let expected := input.secrets.map fun secret =>
        hmac secret (signaturePayload numbers timestamp input.payload)
      if signatures.any fun received => expected.any fun expected => decide (expected = received) then .ok ()
      else .error .no_matching_signature

/-- Every signature in the header was built for the timestamp and the payload. -/
def OnlyBuiltFor (timestamp : numbers.Value) (payload header : Text) : Prop :=
  ∀ read signatures, parseSignatureHeader numbers header = some (read, signatures) →
    ∀ signature ∈ signatures, ∃ secret, signature = hmac secret (signaturePayload numbers timestamp payload)

/-- A signature holds for its timestamp and its payload, and for no other payload. -/
structure Binds (timestamp : numbers.Value) (payload : Text) : Prop where
  verifies : ∀ built (input : VerifyInput numbers) secrets, input.payload = payload →
    buildWebhookSignature numbers hmac { payload, timestampSeconds := timestamp, secrets } = .ok built →
    input.header = built → (∃ secret ∈ secrets, secret ∈ input.secrets) →
    numbers.apart input.nowSeconds timestamp input.toleranceSeconds = false →
    verifyWebhookSignature numbers hmac input = .ok ()
  binds : ∀ input : VerifyInput numbers, OnlyBuiltFor numbers hmac timestamp payload input.header →
    verifyWebhookSignature numbers hmac input = .ok () → input.payload = payload

/-- In the signed text no other number than the timestamp ends at a dot. -/
def Unambiguous (timestamp : numbers.Value) (payload : Text) : Prop :=
  ∀ other rest, signaturePayload numbers timestamp payload = numbers.print other ++ 0x2E :: rest →
    numbers.print other = numbers.print timestamp

variable {numbers} {hmac} {timestamp : numbers.Value} {payload : Text}

theorem Token.not_mem {text : Text} (h : Token text) : (0x2C : UInt16) ∉ text ∧ (0x3D : UInt16) ∉ text :=
  ⟨fun hmem => (h.2 _ hmem).1 rfl, fun hmem => (h.2 _ hmem).2.1 rfl⟩

/-- An element with a key and a value is read as it was written. -/
theorem elementOf_token {key value : Text} (hkey : Token key) (hvalue : Token value) :
    elementOf (key ++ 0x3D :: value) = some (key, value) := by
  have htrim : trim (key ++ 0x3D :: value) = key ++ 0x3D :: value := by
    apply trim_eq
    · intro unit hunit
      obtain ⟨first, rest, rfl⟩ := List.exists_cons_of_ne_nil hkey.1
      rw [← Option.some.inj hunit]
      exact (hkey.2 first List.mem_cons_self).2.2
    · intro unit hunit
      obtain ⟨init, last, rfl⟩ := (List.eq_nil_or_concat value).resolve_left hvalue.1
      rw [List.concat_eq_append, ← List.cons_append, ← List.append_assoc, List.getLast?_concat] at hunit
      rw [← Option.some.inj hunit]
      exact (hvalue.2 last (by rw [List.concat_eq_append]; exact List.mem_concat_self)).2.2
  have hsplit : (key ++ 0x3D :: value).splitOn 0x3D = [key, value] := by
    have hfree : ∀ part ∈ [key, value], (0x3D : UInt16) ∉ part := by
      intro part hmem
      obtain rfl | hmem := List.mem_cons.mp hmem
      · exact hkey.not_mem.2
      · rw [List.mem_singleton.mp hmem]
        exact hvalue.not_mem.2
    have hjoined := List.splitOn_intercalate (0x3D : UInt16) hfree (List.cons_ne_nil _ _)
    rwa [List.intercalate_cons_cons, List.intercalate_singleton, List.append_assoc,
      List.singleton_append] at hjoined
  rw [elementOf, htrim, hsplit]
  exact if_neg (not_or.mpr ⟨hkey.1, hvalue.1⟩)

theorem t_token : Token (units "t") := by
  refine ⟨by decide, forall_units (by decide)⟩

theorem scheme_token : Token SCHEME := by
  refine ⟨by decide, forall_units (by decide)⟩

theorem readElement_timestamp (hlawful : numbers.Lawful) (header : SignatureHeader numbers)
    (value : numbers.Value) :
    readElement numbers header (units "t=" ++ numbers.print value) =
      { header with timestamp := some value } := by
  have hshape : units "t=" ++ numbers.print value = units "t" ++ 0x3D :: numbers.print value := rfl
  rw [readElement, hshape, elementOf_token t_token (hlawful.print_token value)]
  simp only [if_true, hlawful.parse_print, Option.some_or]

theorem readElement_signature {value : Text} (hvalue : Token value) (header : SignatureHeader numbers) :
    readElement numbers header (SCHEME ++ 0x3D :: value) =
      { header with signatures := header.signatures ++ [value] } := by
  have hne : SCHEME ≠ units "t" := by decide
  rw [readElement, elementOf_token scheme_token hvalue]
  simp only [if_neg hne, if_true]

theorem foldl_signatures {values : List Text} (hvalues : ∀ value ∈ values, Token value)
    (header : SignatureHeader numbers) :
    (values.map fun value => SCHEME ++ 0x3D :: value).foldl (readElement numbers) header =
      { header with signatures := header.signatures ++ values } := by
  induction values generalizing header with
  | nil => rw [List.append_nil]; rfl
  | cons value values ih =>
    rw [List.map_cons, List.foldl_cons, readElement_signature (hvalues value List.mem_cons_self),
      ih fun other hmem => hvalues other (List.mem_cons_of_mem _ hmem), List.append_assoc,
        List.singleton_append]

/-- The header of a timestamp and some signatures. -/
def headerOf (timestamp : numbers.Value) (values : List Text) : Text :=
  [0x2C].intercalate ((units "t=" ++ numbers.print timestamp) :: values.map
    fun value => SCHEME ++ 0x3D :: value)

theorem parse_headerOf (hlawful : numbers.Lawful) (timestamp : numbers.Value) {values : List Text}
    (hvalues : ∀ value ∈ values, Token value)
    (hne : values ≠ []) : parseSignatureHeader numbers (headerOf timestamp values) =
      some (timestamp, values) := by
  have hfree : ∀ part ∈ (units "t=" ++ numbers.print timestamp) :: values.map
    (fun value => SCHEME ++ 0x3D :: value),
      (0x2C : UInt16) ∉ part := by
    intro part hmem hcomma
    obtain rfl | hmem := List.mem_cons.mp hmem
    · obtain hcomma | hcomma := List.mem_append.mp hcomma
      · exact absurd hcomma (by decide)
      · exact (hlawful.print_token timestamp).not_mem.1 hcomma
    · obtain ⟨value, hvalue, rfl⟩ := List.mem_map.mp hmem
      obtain hcomma | hcomma := List.mem_append.mp hcomma
      · exact absurd hcomma (by decide)
      · obtain hcomma | hcomma := List.mem_cons.mp hcomma
        · exact absurd hcomma (by decide)
        · exact (hvalues value hvalue).not_mem.1 hcomma
  rw [parseSignatureHeader, headerOf, List.splitOn_intercalate _ hfree (List.cons_ne_nil _ _),
    List.foldl_cons,
    readElement_timestamp hlawful, foldl_signatures hvalues]
  simp only [List.nil_append, if_neg hne]

theorem buildWebhookSignature_ok {input : SignatureInput numbers} {built : Text}
    (h : buildWebhookSignature numbers hmac input = .ok built) :
    input.secrets ≠ [] ∧ built = headerOf input.timestampSeconds (input.secrets.map fun secret =>
      hmac secret (signaturePayload numbers input.timestampSeconds input.payload)) := by
  rw [buildWebhookSignature] at h
  split_ifs at h with hempty
  refine ⟨hempty, ?_⟩
  rw [headerOf, List.map_map]
  exact (Except.ok.inj h).symm

theorem verify_ok_iff {input : VerifyInput numbers} :
    verifyWebhookSignature numbers hmac input = .ok () ↔
      ∃ read signatures, parseSignatureHeader numbers input.header = some (read, signatures) ∧
        numbers.apart input.nowSeconds read input.toleranceSeconds = false ∧
        ∃ signature ∈ signatures, ∃ secret ∈ input.secrets,
          hmac secret (signaturePayload numbers read input.payload) = signature := by
  rw [verifyWebhookSignature]
  cases hparsed : parseSignatureHeader numbers input.header with
  | none => exact ⟨fun h => (nomatch h), fun ⟨_, _, h, _⟩ => (nomatch h)⟩
  | some parsed =>
    obtain ⟨read, signatures⟩ := parsed
    simp only [Option.some.injEq, Prod.mk.injEq]
    constructor
    · intro h
      split_ifs at h with hapart hfound
      rw [List.any_eq_true] at hfound
      obtain ⟨signature, hmem, hany⟩ := hfound
      rw [List.any_map, List.any_eq_true] at hany
      obtain ⟨secret, hsecret, hsame⟩ := hany
      exact ⟨read, signatures, ⟨rfl, rfl⟩, Bool.eq_false_iff.mpr hapart, signature, hmem, secret, hsecret,
        of_decide_eq_true hsame⟩
    · rintro ⟨_, _, ⟨rfl, rfl⟩, hnear, signature, hmem, secret, hsecret, hsame⟩
      have hfound : signatures.any (fun received => (input.secrets.map fun secret =>
          hmac secret (signaturePayload numbers read input.payload)).any fun expected =>
            decide (expected = received)) = true := by
        refine List.any_eq_true.mpr ⟨signature, hmem,
          List.any_eq_true.mpr ⟨_, List.mem_map_of_mem hsecret, ?_⟩⟩
        exact decide_eq_true hsame
      rw [if_neg (by rw [hnear]; exact Bool.false_ne_true), if_pos hfound]

/-- Another number at the start of the signed text is another reading of it. -/
theorem Binds.unambiguous (hlawful : numbers.Lawful) (hhmac : InjectiveHmac hmac)
    (h : Binds numbers hmac timestamp payload) : Unambiguous numbers timestamp payload := by
  intro other rest hsigned
  have htoken : ∀ value ∈ [hmac [] (signaturePayload numbers timestamp payload)], Token value := by
    intro value hmem
    rw [List.mem_singleton.mp hmem]
    exact hhmac.token _ _
  have hparsed := parse_headerOf hlawful other htoken (List.cons_ne_nil _ _)
  have hsame := h.binds
    { header := headerOf other [hmac [] (signaturePayload numbers timestamp payload)],
      payload := rest, secrets := [[]]
      nowSeconds := other, toleranceSeconds := numbers.zero } ?_ ?_
  · rw [← hsame, signaturePayload] at hsigned
    exact (List.append_cancel_right hsigned).symm
  · intro read signatures hread signature hmem
    rw [hparsed] at hread
    rw [← (Prod.mk.inj (Option.some.inj hread)).2, List.mem_singleton] at hmem
    exact ⟨[], hmem⟩
  · refine verify_ok_iff.mpr ⟨other, _, hparsed, hlawful.apart_self other, _, List.mem_singleton_self _, [],
      List.mem_singleton_self _, ?_⟩
    rw [hsigned, signaturePayload]

theorem built_verifies (hlawful : numbers.Lawful) (hhmac : InjectiveHmac hmac) {built : Text}
    {input : VerifyInput numbers} {secrets : List Text}
    (hbuilt : buildWebhookSignature numbers hmac
      { payload := input.payload, timestampSeconds := timestamp, secrets } = .ok built)
    (hheader : input.header = built) (hsecret : ∃ secret ∈ secrets, secret ∈ input.secrets)
    (hnear : numbers.apart input.nowSeconds timestamp input.toleranceSeconds = false) :
    verifyWebhookSignature numbers hmac input = .ok () := by
  obtain ⟨secret, hsigning, hverifying⟩ := hsecret
  obtain ⟨hne, rfl⟩ := buildWebhookSignature_ok hbuilt
  have htoken : ∀ value ∈ secrets.map fun secret =>
    hmac secret (signaturePayload numbers timestamp input.payload),
      Token value := by
    intro value hmem
    obtain ⟨secret, -, rfl⟩ := List.mem_map.mp hmem
    exact hhmac.token _ _
  have hparsed := parse_headerOf hlawful timestamp htoken fun hnil => hne (List.map_eq_nil_iff.mp hnil)
  rw [← hheader] at hparsed
  exact verify_ok_iff.mpr ⟨timestamp, _, hparsed, hnear, _, List.mem_map_of_mem hsigning,
    secret, hverifying, rfl⟩

theorem Unambiguous.payload_eq (h : Unambiguous numbers timestamp payload) (hhmac : InjectiveHmac hmac)
    {input : VerifyInput numbers} (honly : OnlyBuiltFor numbers hmac timestamp payload input.header)
    (hverified : verifyWebhookSignature numbers hmac input = .ok ()) : input.payload = payload := by
  obtain ⟨read, signatures, hparsed, -, signature, hmem, secret, -, hsame⟩ := verify_ok_iff.mp hverified
  obtain ⟨other, hother⟩ := honly read signatures hparsed signature hmem
  have hsigned := hhmac.message _ _ _ _ (hsame.trans hother)
  have hprint := h read input.payload hsigned.symm
  rw [signaturePayload, signaturePayload, hprint] at hsigned
  exact (List.cons.inj (List.append_cancel_left hsigned)).2

/-- A signature binds its payload when its signed text can be read in one way. -/
theorem binds_iff (hlawful : numbers.Lawful) (hhmac : InjectiveHmac hmac) :
    Binds numbers hmac timestamp payload ↔ Unambiguous numbers timestamp payload := by
  refine ⟨fun h => h.unambiguous hlawful hhmac, fun h => ⟨?_, fun input => h.payload_eq hhmac⟩⟩
  rintro built input secrets rfl hbuilt hheader hsecret hnear
  exact built_verifies hlawful hhmac hbuilt hheader hsecret hnear

def digitsOf (text : Text) : Nat := (readDigits 10 text).getD 0

/-- How a number that is not negative and neither very small nor very large prints. -/
def canonical (text : Text) : Bool :=
  let whole := text.takeWhile isDigit
  let frac := text.dropWhile isDigit
  text ≠ [] && text.all (fun unit => isDigit unit || unit == 0x2E) &&
    (whole.length = 1 || whole.head? ≠ some 0x30) &&
    whole ≠ [] && (frac = [] || (frac.tail ≠ [] && frac.tail.all isDigit && frac.getLast? ≠ some 0x30))

def valueOf (text : Text) : Rat :=
  let frac := (text.dropWhile isDigit).tail
  digitsOf (text.takeWhile isDigit) + (digitsOf frac : Rat) / 10 ^ frac.length

def decimals : Numbers where
  Value := { text : Text // canonical text = true }
  parse text := if h : canonical (trim text) = true then some ⟨trim text, h⟩ else none
  print value := value.1
  apart a b bound := decide (valueOf bound.1 < valueOf a.1 - valueOf b.1 ∨
    valueOf bound.1 < valueOf b.1 - valueOf a.1)
  zero := ⟨units "0", by decide⟩

theorem canonical_token {text : Text} (h : canonical text = true) : Token text := by
  rw [canonical] at h
  simp only [Bool.and_eq_true, decide_eq_true_eq, List.all_eq_true] at h
  refine ⟨h.1.1.1.1, fun unit hmem => ?_⟩
  have hunit := h.1.1.1.2 unit hmem
  rw [isDigit, Bool.or_eq_true, Bool.and_eq_true, decide_eq_true_eq, decide_eq_true_eq, beq_iff_eq,
    UInt16.le_iff_toNat_le, UInt16.le_iff_toNat_le, ← UInt16.toNat_inj] at hunit
  have hall : ∀ n < 58, (48 ≤ n ∧ n ≤ 57 ∨ n = 46) →
      UInt16.ofNat n ≠ 0x2C ∧ UInt16.ofNat n ≠ 0x3D ∧ isSpace (UInt16.ofNat n) = false := by decide
  have hsmall : unit.toNat < 58 := by
    obtain hdigit | hdot := hunit
    · exact Nat.lt_succ_of_le hdigit.2
    · rw [hdot]
      decide
  have hread := hall unit.toNat hsmall hunit
  rwa [UInt16.ofNat_toNat] at hread

theorem valueOf_zero : valueOf (units "0") = 0 := by
  have hwhole : digitsOf ((units "0").takeWhile isDigit) = 0 := by decide
  have hfrac : ((units "0").dropWhile isDigit).tail = [] := by decide
  rw [valueOf, hwhole, hfrac]
  have hnone : digitsOf [] = 0 := rfl
  simp [hnone]

theorem decimals_lawful : decimals.Lawful where
  parse_print value := by
    have htoken := canonical_token value.2
    have htrim : trim value.1 = value.1 := by
      refine trim_eq (fun unit hunit => ?_) (fun unit hunit => ?_)
      · exact (htoken.2 unit (List.mem_of_head? hunit)).2.2
      · exact (htoken.2 unit (List.mem_of_getLast? hunit)).2.2
    show (if h : canonical (trim value.1) = true then some ⟨trim value.1, h⟩ else none) = some value
    rw [dif_pos (by rw [htrim]; exact value.2)]
    exact congrArg some (Subtype.ext htrim)
  print_token value := canonical_token value.2
  apart_self value := by
    show decide (valueOf (units "0") < valueOf value.1 - valueOf value.1 ∨
      valueOf (units "0") < valueOf value.1 - valueOf value.1) = false
    rw [valueOf_zero, sub_self]
    decide

/-- A stand-in for digests: the message itself, in hexadecimal digits. -/
def hexHmac (_ message : Text) : Text := 0x76 :: message.flatMap fun unit => hexDigits true unit.toNat

theorem hex_row_injective {message other : Text}
    (h : (message.flatMap fun unit => hexDigits true unit.toNat) =
      other.flatMap fun unit => hexDigits true unit.toNat) :
    message = other := by
  induction message generalizing other with
  | nil =>
    cases other with
    | nil => rfl
    | cons unit other => exact absurd h (List.cons_ne_nil _ _).symm
  | cons unit message ih =>
    cases other with
    | nil => exact absurd h (List.cons_ne_nil _ _)
    | cons unit' other =>
      rw [List.flatMap_cons, List.flatMap_cons] at h
      obtain ⟨hhead, htail⟩ := List.append_inj h rfl
      rw [UInt16.toNat_inj.mp (hexDigits_injective unit.toNat_lt unit'.toNat_lt hhead), ih htail]

theorem hexHmac_injective : InjectiveHmac hexHmac where
  message _ _ _ _ h := hex_row_injective (List.cons.inj h).2
  token _ message := by
    refine ⟨List.cons_ne_nil _ _, fun unit hmem => ?_⟩
    obtain rfl | hmem := List.mem_cons.mp hmem
    · decide
    · obtain ⟨source, -, hdigit⟩ := List.mem_flatMap.mp hmem
      obtain ⟨digit, hlt, rfl⟩ := mem_hexDigits source.toNat_lt hdigit
      have hall : ∀ digit < 16, hexDigit true digit ≠ 0x2C ∧ hexDigit true digit ≠ 0x3D ∧
          isSpace (hexDigit true digit) = false := by
        decide
      exact hall digit hlt

def one : decimals.Value := ⟨units "1", by decide⟩

def oneAndAHalf : decimals.Value := ⟨units "1.5", by decide⟩

theorem binds_iff_one : Binds decimals hexHmac one (units "\x7b\x7d") ↔
    Unambiguous decimals one (units "\x7b\x7d") :=
  binds_iff decimals_lawful hexHmac_injective

/-- What is signed for 1 and the payload 5.x is what is signed for 1.5 and x. -/
theorem signature_moves_the_dot : ¬ Binds decimals hexHmac one (units "5.x") := by
  intro h
  have hprint := h.unambiguous decimals_lawful hexHmac_injective oneAndAHalf (units "x") (by decide)
  exact absurd hprint (by decide)

end BaasConnector.Crypto.WebhookSignature
