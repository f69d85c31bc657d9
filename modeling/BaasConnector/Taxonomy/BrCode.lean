import BaasConnector.Taxonomy.EmvRoundTrip

namespace BaasConnector.Taxonomy.BrCode

open BaasConnector.Lib.CodeUnits BaasConnector.Lib.Results BaasConnector.Taxonomy.Emv
      BaasConnector.Taxonomy.EmvCrc
open BaasConnector.Taxonomy.EmvRoundTrip

structure BrCodeInput where
  pixKey : Text
  merchantName : Text
  merchantCity : Text
  amount : Option Text
  referenceLabel : Option Text
  description : Option Text
  postalCode : Option Text
  merchantCategoryCode : Option Text
  url : Option Text
  singleUse : Bool

/-- A given text that is not empty. -/
def given (text : Option Text) : Option Text := text.filter (· ≠ [])

def isCombining (unit : UInt16) : Bool := 0x300 ≤ unit && unit ≤ 0x36F

def isPrintable (unit : UInt16) : Bool := 0x20 ≤ unit && unit ≤ 0x7E

/-- The units before an end, counted from the other end when it is negative. -/
def sliceTo (text : Text) (last : Int) : Text :=
  if last < 0 then text.take (text.length - (-last).toNat) else text.take last.toNat

variable (normalize : Text → Text)

/-- The printable capitals of a text. -/
def plainText (value : Text) : Text :=
  (trim (((normalize value).filter fun unit => !isCombining unit).filter isPrintable)).map upper

def sanitizeText (value : Text) (maxLength : Int) : Text := sliceTo (plainText normalize value) maxLength

/-- A URL without its scheme. -/
def stripScheme (url : Text) : Text :=
  if (units "https://").isPrefixOf url then url.drop 8
  else if (units "http://").isPrefixOf url then url.drop 7
  else url

def leaf (id value : Text) : EmvNode := .node id value none

def template (id : Text) (children : List EmvNode) : EmvNode := .node id [] (some children)

def leafGiven (id : Text) (value : Option Text) : List EmvNode := (given value).toList.map (leaf id)

def merchantChildren (input : BrCodeInput) : List EmvNode :=
  leaf EmvPixId.GUI pixGui ::
    match given input.url with
    | some url => [leaf EmvPixId.URL (stripScheme url)]
    | none =>
      leaf EmvPixId.KEY input.pixKey ::
        (given input.description).toList.map fun description =>
          leaf EmvPixId.DESCRIPTION (sanitizeText normalize description (72 - input.pixKey.length))

def additionalChildren (input : BrCodeInput) : List EmvNode :=
  [leaf REFERENCE_LABEL (input.referenceLabel.getD (units "***"))]

/-- The fields around the two templates. -/
def outline (merchant additional : EmvNode) (input : BrCodeInput) : List EmvNode :=
  leaf EmvId.PAYLOAD_FORMAT_INDICATOR (units "01") ::
    ((if input.singleUse then [leaf EmvId.POINT_OF_INITIATION_METHOD (units "12")] else []) ++
      merchant ::
        leaf EmvId.MERCHANT_CATEGORY_CODE (input.merchantCategoryCode.getD (units "0000")) ::
        leaf EmvId.TRANSACTION_CURRENCY (units "986") ::
        (leafGiven EmvId.TRANSACTION_AMOUNT input.amount ++
          leaf EmvId.COUNTRY_CODE (units "BR") ::
          leaf EmvId.MERCHANT_NAME (sanitizeText normalize input.merchantName 25) ::
          leaf EmvId.MERCHANT_CITY (sanitizeText normalize input.merchantCity 15) ::
          (leafGiven EmvId.POSTAL_CODE input.postalCode ++ [additional])))

def brNodes (input : BrCodeInput) : List EmvNode :=
  outline normalize (template EmvId.MERCHANT_ACCOUNT_INFORMATION_PIX (merchantChildren normalize input))
    (template EmvId.ADDITIONAL_DATA_FIELD (additionalChildren input)) input

def buildBrCode (input : BrCodeInput) : Except EmvError Text :=
  if given input.url = none ∧ input.pixKey = [] then .error .keyless else encodeEmv (brNodes normalize input)

/-- What the callers' checks leave of the inputs, and more. -/
structure Admitted (input : BrCodeInput) : Prop where
  key : given input.url = none → input.pixKey ≠ []
  amount : ∀ amount, input.amount = some amount → amount ≠ [] ∧ amount.length ≤ 99
  txid : ∀ txid, input.referenceLabel = some txid → txid ≠ [] ∧ txid.length ≤ 95
  postalCode : ∀ code, input.postalCode = some code → code.length ≤ 99
  category : ∀ code, input.merchantCategoryCode = some code → code.length ≤ 99

/-- A text that is given back, possibly cut short. -/
def Kept (normalize : Text → Text) (value : Text) (parsed : Option Text) : Prop :=
  ∃ text, parsed = some text ∧ text <+: plainText normalize value

/-- The key of a static code, the URL of a dynamic one, which replaces the key
and the description. -/
def KeptAccount (input : BrCodeInput) (parsed : ParsedBrCode) : Prop :=
  match given input.url with
  | some url => parsed.url = some url ∧ parsed.pixKey = none
  | none => parsed.pixKey = some input.pixKey ∧ parsed.url = none ∧
      ∀ description, given input.description = some description →
        Kept normalize description parsed.description

structure GivenBack (input : BrCodeInput) (parsed : ParsedBrCode) : Prop where
  account : KeptAccount normalize input parsed
  amount : parsed.amount = input.amount
  txid : parsed.txid = input.referenceLabel.filter (· ≠ units "***")
  singleUse : parsed.singleUse = input.singleUse
  name : Kept normalize input.merchantName parsed.merchantName
  city : Kept normalize input.merchantCity parsed.merchantCity

def RoundTrips (input : BrCodeInput) : Prop :=
  ∃ payload parsed, buildBrCode normalize input = .ok payload ∧ parseBrCode payload = .ok parsed ∧
    GivenBack normalize input parsed

/-- A URL is a scheme and 1 to 77 characters; a key has at most 77 characters, 72
with a description, or 73 with one of a single character. -/
def AccountFits (input : BrCodeInput) : Prop :=
  match given input.url with
  | some url => ∃ path, url = units "https://" ++ path ∧ path ≠ [] ∧ path.length ≤ 77
  | none => input.pixKey.length ≤ 77 ∧ ∀ description, given input.description = some description →
      input.pixKey.length ≤ 72 ∨ input.pixKey.length = 73 ∧ (plainText normalize description).length ≤ 1

/-- The CRC of the code is not the text of its own tag. -/
def CrcFits (input : BrCodeInput) : Prop :=
  ∀ body, encodeNodes (brNodes normalize input) = .ok body →
    crc16 (body ++ EmvId.CRC ++ units "04") ≠ units "6304"

variable {normalize : Text → Text} {input : BrCodeInput}

theorem encodeNodes_congr {nodes others : List EmvNode} (h : nodes.map encodeNode = others.map encodeNode) :
    encodeNodes nodes = encodeNodes others := by
  induction nodes generalizing others with
  | nil =>
    rw [List.map_nil, eq_comm, List.map_eq_nil_iff] at h
    rw [h]
  | cons node nodes ih =>
    cases others with
    | nil => exact absurd h (List.cons_ne_nil _ _)
    | cons other others =>
      obtain ⟨hnode, hnodes⟩ := List.cons.inj h
      rw [encodeNodes, encodeNodes, hnode, ih hnodes]

theorem encodeNodes_mem {nodes : List EmvNode} {text : Text}
    (h : encodeNodes nodes = .ok text) {node : EmvNode}
    (hnode : node ∈ nodes) : ∃ field, encodeNode node = .ok field := by
  induction nodes generalizing text with
  | nil => exact absurd hnode List.not_mem_nil
  | cons first nodes ih =>
    obtain ⟨field, fields, hfield, hfields, -⟩ := encodeNodes_cons.mp h
    obtain rfl | hnode := List.mem_cons.mp hnode
    · exact ⟨field, hfield⟩
    · exact ih hfields hnode

theorem encode_leaf {id value field : Text} :
    encodeNode (leaf id value) = .ok field ↔
      value.length ≤ 99 ∧ field = id ++ twoDigits value.length ++ value := by
  have hencode : encodeNode (leaf id value) = encodeField id value := rfl
  rw [hencode, encodeField]
  split_ifs with hlong
  · exact ⟨fun h => (by cases h), fun h => by omega⟩
  · exact ⟨fun h => ⟨by omega, (Except.ok.inj h).symm⟩, fun h => by rw [h.2]⟩

/-- The length of the encoding of fields without children. -/
def size (nodes : List EmvNode) : Nat := (nodes.map fun node => 4 + node.value.length).sum

/-- A field without children. -/
def Simple (node : EmvNode) : Prop := ∃ id value, node = leaf id value ∧ TwoDigits id ∧ id ∉ nestedIds

theorem encode_leaves {nodes : List EmvNode} (hnodes : ∀ node ∈ nodes, Simple node) :
    (∃ text, encodeNodes nodes = .ok text ∧ text.length ≤ 99) ↔ size nodes ≤ 99 := by
  suffices h : (∀ text, encodeNodes nodes = .ok text → text.length = size nodes) ∧
      (size nodes ≤ 99 → ∃ text, encodeNodes nodes = .ok text) by
    constructor
    · rintro ⟨text, htext, hlength⟩
      rwa [h.1 text htext] at hlength
    · intro hsize
      obtain ⟨text, htext⟩ := h.2 hsize
      exact ⟨text, htext, by rw [h.1 text htext]; exact hsize⟩
  induction nodes with
  | nil =>
    rw [encodeNodes]
    exact ⟨fun text h => by rw [← Except.ok.inj h]; rfl, fun _ => ⟨[], rfl⟩⟩
  | cons node nodes ih =>
    obtain ⟨id, value, rfl, hid, -⟩ := hnodes node List.mem_cons_self
    obtain ⟨hlength, htotal⟩ := ih fun other hmem => hnodes other (List.mem_cons_of_mem _ hmem)
    have hsize : size (leaf id value :: nodes) = 4 + value.length + size nodes := by
      rw [size, List.map_cons, List.sum_cons]
      rfl
    have hfour : ∀ text : Text, (id ++ twoDigits value.length ++ text).length = 4 + text.length := by
      intro text
      rw [List.length_append, List.length_append, hid.1]
      rfl
    rw [hsize]
    constructor
    · intro text h
      obtain ⟨field, fields, hfield, hfields, rfl⟩ := encodeNodes_cons.mp h
      obtain ⟨-, rfl⟩ := encode_leaf.mp hfield
      rw [List.length_append, hfour, hlength fields hfields]
    · intro hle
      obtain ⟨fields, hfields⟩ := htotal (by omega)
      exact ⟨_, encodeNodes_cons.mpr ⟨_, fields, encode_leaf.mpr ⟨by omega, rfl⟩, hfields, rfl⟩⟩

theorem encode_template {id field : Text} {child : EmvNode} {children : List EmvNode} :
    encodeNode (template id (child :: children)) = .ok field ↔
      ∃ value, encodeNodes (child :: children) = .ok value ∧ value.length ≤ 99 ∧
        field = id ++ twoDigits value.length ++ value := by
  rw [template, encodeNode]
  constructor
  · intro h
    obtain ⟨value, hvalue, h⟩ := bind_eq_ok.mp h
    rw [encodeField] at h
    split_ifs at h with hlong
    exact ⟨value, hvalue, by omega, (Except.ok.inj h).symm⟩
  · rintro ⟨value, hvalue, hlength, rfl⟩
    rw [hvalue, ok_bind, encodeField, if_neg (by omega)]

theorem sliceTo_prefix (text : Text) (last : Int) : sliceTo text last <+: text := by
  rw [sliceTo]
  split <;> exact List.take_prefix _ _

theorem stripScheme_https (path : Text) : stripScheme (units "https://" ++ path) = path := by
  rw [stripScheme, if_pos (List.isPrefixOf_iff_prefix.mpr (List.prefix_append _ _))]
  exact List.drop_left' (by decide)

/-- What is found in the fields around the templates. -/
structure Found (normalize : Text → Text) (input : BrCodeInput) (merchant additional : EmvNode)
    (nodes : List EmvNode) : Prop where
  merchant : findNode nodes EmvId.MERCHANT_ACCOUNT_INFORMATION_PIX = some merchant
  additional : findNode nodes EmvId.ADDITIONAL_DATA_FIELD = some additional
  amount : valueOf nodes EmvId.TRANSACTION_AMOUNT = given input.amount
  method : valueOf nodes EmvId.POINT_OF_INITIATION_METHOD = if input.singleUse then
    some (units "12") else none
  name : valueOf nodes EmvId.MERCHANT_NAME = some (sanitizeText normalize input.merchantName 25)
  city : valueOf nodes EmvId.MERCHANT_CITY = some (sanitizeText normalize input.merchantCity 15)

theorem found_outline (mtext atext : Text) (mchildren achildren : Option (List EmvNode)) (body : Text) :
    Found normalize input (.node EmvId.MERCHANT_ACCOUNT_INFORMATION_PIX mtext mchildren)
      (.node EmvId.ADDITIONAL_DATA_FIELD atext achildren)
      (outline normalize (.node EmvId.MERCHANT_ACCOUNT_INFORMATION_PIX mtext mchildren)
        (.node EmvId.ADDITIONAL_DATA_FIELD atext achildren) input ++ [crcNode body]) := by
  rw [outline, leafGiven, leafGiven]
  constructor
  all_goals cases input.singleUse <;> cases given input.amount <;> cases given input.postalCode <;> rfl

theorem size_dynamic {url : Text} (hurl : given input.url = some url) :
    size (merchantChildren normalize input) = 22 + (stripScheme url).length := by
  have hgui : pixGui.length = 14 := by decide
  rw [merchantChildren, hurl]
  simp only [size, leaf, EmvNode.value, List.map_cons, List.map_nil, List.sum_cons, List.sum_nil, hgui]
  omega

theorem size_static (hurl : given input.url = none) :
    size (merchantChildren normalize input) =
      18 + (4 + input.pixKey.length + ((given input.description).map fun description =>
        4 + (sanitizeText normalize description (72 - input.pixKey.length)).length).getD 0) := by
  have hgui : pixGui.length = 14 := by decide
  rw [merchantChildren, hurl]
  cases given input.description with
  | none => simp [size, leaf, EmvNode.value, hgui]
  | some description => simp [size, leaf, EmvNode.value, hgui]

/-- A description after a key. -/
theorem description_fits (key description : Text) :
    18 + (4 + key.length + (4 + (sanitizeText normalize description (72 - key.length)).length)) ≤ 99 ↔
      key.length ≤ 72 ∨ key.length = 73 ∧ (plainText normalize description).length ≤ 1 := by
  rw [sanitizeText, sliceTo]
  split_ifs with hneg
  · rw [List.length_take]
    omega
  · rw [List.length_take]
    omega

theorem static_fits (hurl : given input.url = none) :
    size (merchantChildren normalize input) ≤ 99 ↔ AccountFits normalize input := by
  rw [size_static hurl, AccountFits, hurl]
  cases hdescription : given input.description with
  | none =>
    simp only [Option.map_none, Option.getD_none]
    exact ⟨fun h => ⟨by omega, fun _ h => nomatch h⟩, fun h => by omega⟩
  | some description =>
    simp only [Option.map_some, Option.getD_some]
    rw [description_fits]
    refine ⟨fun h => ⟨by omega, fun other hother => ?_⟩, fun h => h.2 description rfl⟩
    rw [← Option.some.inj hother]
    exact h

theorem simple_leaf {id : Text} (hid : TwoDigits id) (hnested : id ∉ nestedIds) (value : Text) :
    Simple (leaf id value) :=
  ⟨id, value, rfl, hid, hnested⟩

theorem simple_merchant : ∀ node ∈ merchantChildren normalize input, Simple node := by
  intro node hmem
  rw [merchantChildren] at hmem
  obtain rfl | hmem := List.mem_cons.mp hmem
  · exact simple_leaf ⟨by decide, by decide⟩ (by decide) _
  · cases hurl : given input.url with
    | some url =>
      rw [hurl] at hmem
      rw [List.mem_singleton.mp hmem]
      exact simple_leaf ⟨by decide, by decide⟩ (by decide) _
    | none =>
      rw [hurl] at hmem
      obtain rfl | hmem := List.mem_cons.mp hmem
      · exact simple_leaf ⟨by decide, by decide⟩ (by decide) _
      · obtain ⟨description, -, rfl⟩ := List.mem_map.mp hmem
        exact simple_leaf ⟨by decide, by decide⟩ (by decide) _

theorem simple_additional : ∀ node ∈ additionalChildren input, Simple node := by
  intro node hmem
  rw [List.mem_singleton.mp hmem]
  exact simple_leaf ⟨by decide, by decide⟩ (by decide) _

/-- A field that is read back as it was written. -/
def Plain (node : EmvNode) : Prop :=
  ∃ id value, node = leaf id value ∧ TwoDigits id ∧ id ∉ nestedIds ∧ id ≠ EmvId.CRC ∧ value.length ≤ 99

theorem Plain.wellFormed {node : EmvNode} (h : Plain node) : WellFormed node ∧ node.id ≠ EmvId.CRC := by
  obtain ⟨id, value, rfl, hid, hnested, hcrc, hlength⟩ := h
  exact ⟨.leaf hid hnested hlength, hcrc⟩

theorem sanitizeText_length (value : Text) (bound : Nat) :
    (sanitizeText normalize value bound).length ≤ bound := by
  rw [sanitizeText, sliceTo, if_neg (by omega), List.length_take, Int.toNat_natCast]
  exact Nat.min_le_left _ _

theorem given_eq_some {text : Option Text} {value : Text} (h : given text = some value) : text = some value :=
  (Option.filter_eq_some_iff.mp h).1

theorem mem_leafGiven {id : Text} {value : Option Text} {node : EmvNode} (h : node ∈ leafGiven id value) :
    ∃ text, value = some text ∧ node = leaf id text := by
  rw [leafGiven] at h
  obtain ⟨text, htext, rfl⟩ := List.mem_map.mp h
  exact ⟨text, given_eq_some (Option.mem_toList.mp htext), rfl⟩

theorem mem_outline (hadmitted : Admitted input) {merchant additional node : EmvNode}
    (h : node ∈ outline normalize merchant additional input) :
    node = merchant ∨ node = additional ∨ Plain node := by
  have hplain : ∀ id value, TwoDigits id → id ∉ nestedIds → id ≠ EmvId.CRC → value.length ≤ 99 →
    Plain (leaf id value) :=
    fun id value hid hnested hcrc hlength => ⟨id, value, rfl, hid, hnested, hcrc, hlength⟩
  simp only [outline, List.mem_cons, List.mem_append, List.not_mem_nil, or_false] at h
  obtain rfl | hmethod | rfl | rfl | rfl | hamount | rfl | rfl | rfl | hpostal | rfl := h
  · exact .inr (.inr (hplain _ _ ⟨by decide, by decide⟩ (by decide) (by decide) (by decide)))
  · split_ifs at hmethod with hsingle
    · rw [List.mem_singleton.mp hmethod]
      exact .inr (.inr (hplain _ _ ⟨by decide, by decide⟩ (by decide) (by decide) (by decide)))
    · exact absurd hmethod List.not_mem_nil
  · exact .inl rfl
  · refine .inr (.inr (hplain _ _ ⟨by decide, by decide⟩ (by decide) (by decide) ?_))
    cases hcode : input.merchantCategoryCode with
    | none => decide
    | some code => exact hadmitted.category code hcode
  · exact .inr (.inr (hplain _ _ ⟨by decide, by decide⟩ (by decide) (by decide) (by decide)))
  · obtain ⟨amount, hgiven, rfl⟩ := mem_leafGiven hamount
    exact .inr (.inr (hplain _ _ ⟨by decide, by decide⟩ (by decide) (by decide)
      (hadmitted.amount amount hgiven).2))
  · exact .inr (.inr (hplain _ _ ⟨by decide, by decide⟩ (by decide) (by decide) (by decide)))
  · refine .inr (.inr (hplain _ _ ⟨by decide, by decide⟩ (by decide) (by decide) ?_))
    exact le_trans (sanitizeText_length input.merchantName 25) (by decide)
  · refine .inr (.inr (hplain _ _ ⟨by decide, by decide⟩ (by decide) (by decide) ?_))
    exact le_trans (sanitizeText_length input.merchantCity 15) (by decide)
  · obtain ⟨code, hcode, rfl⟩ := mem_leafGiven hpostal
    exact .inr (.inr (hplain _ _ ⟨by decide, by decide⟩ (by decide) (by decide)
      (hadmitted.postalCode code hcode)))
  · exact .inr (.inl rfl)

/-- The two templates as they are read back. -/
structure Filled (normalize : Text → Text) (input : BrCodeInput) (mtext atext : Text) : Prop where
  merchant : encodeNodes (merchantChildren normalize input) = .ok mtext
  merchantLength : mtext.length ≤ 99
  additional : encodeNodes (additionalChildren input) = .ok atext
  additionalLength : atext.length ≤ 99

def filledNodes (normalize : Text → Text) (input : BrCodeInput) (mtext atext : Text) : List EmvNode :=
  outline normalize (.node EmvId.MERCHANT_ACCOUNT_INFORMATION_PIX mtext
    (some (merchantChildren normalize input)))
    (.node EmvId.ADDITIONAL_DATA_FIELD atext (some (additionalChildren input))) input

theorem encode_filled (mtext atext : Text) :
    encodeNodes (filledNodes normalize input mtext atext) = encodeNodes (brNodes normalize input) := by
  apply encodeNodes_congr
  rw [filledNodes, brNodes, outline, outline]
  simp only [List.map_cons, List.map_append, List.map_nil]
  rfl

theorem simple_wellFormed {nodes : List EmvNode} {text : Text} (htext : encodeNodes nodes = .ok text)
    (hnodes : ∀ node ∈ nodes, Simple node) : ∀ node ∈ nodes, WellFormed node := by
  intro node hmem
  obtain ⟨id, value, rfl, hid, hnested⟩ := hnodes node hmem
  obtain ⟨field, hfield⟩ := encodeNodes_mem htext hmem
  exact .leaf hid hnested (encode_leaf.mp hfield).1

theorem filled_of_size (hadmitted : Admitted input) (hsize : size (merchantChildren normalize input) ≤ 99) :
    ∃ mtext atext, Filled normalize input mtext atext := by
  obtain ⟨mtext, hmtext, hmlength⟩ := (encode_leaves simple_merchant).mpr hsize
  have hadditional : size (additionalChildren input) ≤ 99 := by
    have hlabel : size (additionalChildren input) = 4 + (input.referenceLabel.getD (units "***")).length := by
      simp [size, additionalChildren, leaf, EmvNode.value]
    rw [hlabel]
    cases htxid : input.referenceLabel with
    | none => decide
    | some txid =>
      have hlong := (hadmitted.txid txid htxid).2
      rw [Option.getD_some]
      omega
  obtain ⟨atext, hatext, halength⟩ := (encode_leaves simple_additional).mpr hadditional
  exact ⟨mtext, atext, hmtext, hmlength, hatext, halength⟩

theorem filled_wellFormed (hadmitted : Admitted input) {mtext atext : Text}
    (h : Filled normalize input mtext atext) :
    ∀ node ∈ filledNodes normalize input mtext atext, WellFormed node ∧ node.id ≠ EmvId.CRC := by
  intro node hmem
  obtain rfl | rfl | hplain := mem_outline hadmitted hmem
  · refine ⟨.template ⟨by decide, by decide⟩ (by decide) ?_ h.merchant h.merchantLength,
      show EmvId.MERCHANT_ACCOUNT_INFORMATION_PIX ≠ EmvId.CRC by decide⟩
    exact simple_wellFormed h.merchant simple_merchant
  · refine ⟨.template ⟨by decide, by decide⟩ (by decide) ?_ h.additional h.additionalLength,
      show EmvId.ADDITIONAL_DATA_FIELD ≠ EmvId.CRC by decide⟩
    exact simple_wellFormed h.additional simple_additional
  · exact hplain.wellFormed

theorem brNodes_crc (hadmitted : Admitted input) : ∀ node ∈ brNodes normalize input, node.id ≠ EmvId.CRC := by
  intro node hmem
  obtain rfl | rfl | hplain := mem_outline hadmitted hmem
  · exact show EmvId.MERCHANT_ACCOUNT_INFORMATION_PIX ≠ EmvId.CRC by decide
  · exact show EmvId.ADDITIONAL_DATA_FIELD ≠ EmvId.CRC by decide
  · exact hplain.wellFormed.2

/-- What is built, and how it is decoded. -/
theorem decode_built (hadmitted : Admitted input) {mtext atext : Text}
    (h : Filled normalize input mtext atext) :
    ∃ body, encodeNodes (brNodes normalize input) = .ok body ∧
      buildBrCode normalize input = .ok (body ++ crcTag ++ crc16 (body ++ crcTag)) ∧
      decodeEmv (body ++ crcTag ++ crc16 (body ++ crcTag)) =
        .ok (filledNodes normalize input mtext atext ++ [crcNode body]) := by
  have hfilled := filled_wellFormed hadmitted h
  obtain ⟨body, hbody⟩ := encodeNodes_total fun node hmem => (hfilled node hmem).1
  have hdecoded := decodeEmv_encodeEmv hfilled hbody
  rw [encode_filled] at hbody
  refine ⟨body, hbody, ?_, hdecoded⟩
  have hkey : ¬ (given input.url = none ∧ input.pixKey = []) := fun h => hadmitted.key h.1 h.2
  rw [buildBrCode, if_neg hkey]
  exact encodeEmv_body (brNodes_crc hadmitted) hbody

theorem filled_of_built (hadmitted : Admitted input) {payload : Text}
    (h : buildBrCode normalize input = .ok payload) :
    ∃ mtext atext, Filled normalize input mtext atext := by
  rw [buildBrCode] at h
  split_ifs at h with hkeyless
  obtain ⟨body, hbody, -⟩ := encodeEmv_ok h
  rw [filter_crc (brNodes_crc hadmitted)] at hbody
  have hmerchant : template EmvId.MERCHANT_ACCOUNT_INFORMATION_PIX (merchantChildren normalize input) ∈
      brNodes normalize input := by simp [brNodes, outline]
  obtain ⟨field, hfield⟩ := encodeNodes_mem hbody hmerchant
  obtain ⟨mtext, hmtext, hlength, -⟩ := encode_template.mp hfield
  exact filled_of_size hadmitted ((encode_leaves simple_merchant).mp ⟨mtext, hmtext, hlength⟩)

theorem trim_built {body : Text} (h : encodeNodes (brNodes normalize input) = .ok body) :
    trim (body ++ crcTag ++ crc16 (body ++ crcTag)) = body ++ crcTag ++ crc16 (body ++ crcTag) := by
  obtain ⟨field, fields, hfield, -, rfl⟩ := encodeNodes_cons.mp h
  obtain ⟨-, rfl⟩ := encode_leaf.mp hfield
  apply trim_eq
  · intro unit hunit
    have hzero : unit = 0x30 := (Option.some.inj hunit).symm
    rw [hzero]
    decide
  · intro unit hunit
    have hdigit : ∀ a < 16, isSpace (hexDigit true a) = false := by decide
    rw [crc16, hexDigits, List.map_cons, List.map_cons, List.map_cons, List.map_cons, List.map_nil,
      List.getLast?_append] at hunit
    rw [← Option.some.inj hunit]
    exact hdigit _ (Nat.mod_lt _ (by decide))

theorem valueOf_gui : valueOf (merchantChildren normalize input) EmvPixId.GUI = some pixGui := rfl

theorem valueOf_static (hurl : given input.url = none) :
    valueOf (merchantChildren normalize input) EmvPixId.KEY = some input.pixKey ∧
      valueOf (merchantChildren normalize input) EmvPixId.URL = none ∧
      valueOf (merchantChildren normalize input) EmvPixId.DESCRIPTION =
        (given input.description).map fun description =>
        sanitizeText normalize description (72 - input.pixKey.length) := by
  rw [merchantChildren, hurl]
  cases given input.description <;> exact ⟨rfl, rfl, rfl⟩

theorem valueOf_dynamic {url : Text} (hurl : given input.url = some url) :
    valueOf (merchantChildren normalize input) EmvPixId.KEY = none ∧
      valueOf (merchantChildren normalize input) EmvPixId.URL = some (stripScheme url) := by
  rw [merchantChildren, hurl]
  exact ⟨rfl, rfl⟩

/-- The fields that a built code is decoded to. -/
def builtNodes (normalize : Text → Text) (input : BrCodeInput) (mtext atext body : Text) : List EmvNode :=
  filledNodes normalize input mtext atext ++ [crcNode body]

theorem children_built (mtext atext body : Text) :
    childrenOf (builtNodes normalize input mtext atext body) EmvId.MERCHANT_ACCOUNT_INFORMATION_PIX =
        merchantChildren normalize input ∧
      childrenOf (builtNodes normalize input mtext atext body) EmvId.ADDITIONAL_DATA_FIELD =
        additionalChildren input := by
  have hfound : Found normalize input _ _ (builtNodes normalize input mtext atext body) :=
    found_outline mtext atext (some (merchantChildren normalize input)) (some (additionalChildren input)) body
  rw [childrenOf, childrenOf, hfound.merchant, hfound.additional]
  exact ⟨rfl, rfl⟩

theorem parse_built {body mtext atext : Text} (hbody : encodeNodes (brNodes normalize input) = .ok body)
    (hdecoded : decodeEmv (body ++ crcTag ++ crc16 (body ++ crcTag)) =
      .ok (builtNodes normalize input mtext atext body))
    (parsed : ParsedBrCode) :
    parseBrCode (body ++ crcTag ++ crc16 (body ++ crcTag)) = .ok parsed ↔
      crc16 (body ++ crcTag) ≠ crcTag ∧ parsed =
        readBrCode (builtNodes normalize input mtext atext body) := by
  have hverify := verify_split body (show (crc16 (body ++ crcTag)).length = 4 from rfl)
  rw [crc16_upper] at hverify
  have hgui : (guiOf (builtNodes normalize input mtext atext body)).map (·.map lower) = some pixGui := by
    rw [guiOf, (children_built mtext atext body).1, valueOf_gui]
    decide
  rw [parseBrCode, trim_built hbody]
  by_cases htag : crc16 (body ++ crcTag) = crcTag
  · have hrefused := Bool.eq_false_iff.mpr fun h => (hverify.mp h).1 htag
    rw [if_pos hrefused]
    exact ⟨fun h => (by cases h), fun h => absurd htag h.1⟩
  · have haccepted := hverify.mpr ⟨htag, rfl⟩
    rw [if_neg (by rw [haccepted]; exact Bool.true_eq_false.mp), hdecoded, ok_bind, if_neg (not_not.mpr hgui)]
    exact ⟨fun h => ⟨htag, (Except.ok.inj h).symm⟩, fun h => by rw [h.2]⟩

theorem kept_sanitized (value : Text) (last : Int) :
    Kept normalize value (some (sanitizeText normalize value last)) :=
  ⟨_, rfl, sliceTo_prefix _ _⟩

theorem given_amount (hadmitted : Admitted input) : given input.amount = input.amount := by
  rw [given]
  cases hamount : input.amount with
  | none => rfl
  | some amount =>
    exact Option.filter_eq_some_iff.mpr ⟨rfl, decide_eq_true (hadmitted.amount amount hamount).1⟩

theorem txid_built (hadmitted : Admitted input) :
    (valueOf (additionalChildren input) REFERENCE_LABEL).filter
      (fun txid => decide (txid ≠ [] ∧ txid ≠ units "***")) =
      input.referenceLabel.filter (· ≠ units "***") := by
  have hread : valueOf (additionalChildren input) REFERENCE_LABEL =
    some (input.referenceLabel.getD (units "***")) := rfl
  rw [hread]
  cases htxid : input.referenceLabel with
  | none => rfl
  | some txid =>
    have hne := (hadmitted.txid txid htxid).1
    rw [Option.getD_some]
    by_cases hstars : txid = units "***"
    · rw [hstars]
      rfl
    · simp [Option.filter, hne, hstars]

theorem method_built (mtext atext body : Text) :
    (readBrCode (builtNodes normalize input mtext atext body)).singleUse = input.singleUse := by
  have hfound : Found normalize input _ _ (builtNodes normalize input mtext atext body) :=
    found_outline mtext atext (some (merchantChildren normalize input)) (some (additionalChildren input)) body
  rw [readBrCode]
  simp only [hfound.method]
  cases input.singleUse <;> decide

/-- All but the account is given back by every code that is parsed. -/
theorem givenBack_iff (hadmitted : Admitted input) (mtext atext body : Text) :
    GivenBack normalize input (readBrCode (builtNodes normalize input mtext atext body)) ↔
      KeptAccount normalize input (readBrCode (builtNodes normalize input mtext atext body)) := by
  have hfound : Found normalize input _ _ (builtNodes normalize input mtext atext body) :=
    found_outline mtext atext (some (merchantChildren normalize input)) (some (additionalChildren input)) body
  refine ⟨fun h => h.account, fun h => ⟨h, ?_, ?_, method_built mtext atext body, ?_, ?_⟩⟩
  · exact hfound.amount.trans (given_amount hadmitted)
  · rw [readBrCode]
    simp only [(children_built mtext atext body).2]
    exact txid_built hadmitted
  · rw [readBrCode]
    simp only [hfound.name]
    exact kept_sanitized input.merchantName 25
  · rw [readBrCode]
    simp only [hfound.city]
    exact kept_sanitized input.merchantCity 15

theorem url_built {url : Text} (hurl : given input.url = some url) (mtext atext body : Text) :
    (readBrCode (builtNodes normalize input mtext atext body)).url =
        (given (some (stripScheme url))).map (units "https://" ++ ·) ∧
      (readBrCode (builtNodes normalize input mtext atext body)).pixKey = none := by
  have hchildren : childrenOf (builtNodes normalize input mtext atext body)
    EmvId.MERCHANT_ACCOUNT_INFORMATION_PIX =
      merchantChildren normalize input := (children_built mtext atext body).1
  obtain ⟨hkey, hread⟩ := @valueOf_dynamic normalize input url hurl
  rw [readBrCode]
  simp only [hchildren, hkey, hread]
  exact ⟨rfl, trivial⟩

theorem key_built (hurl : given input.url = none) (mtext atext body : Text) :
    (readBrCode (builtNodes normalize input mtext atext body)).url = none ∧
      (readBrCode (builtNodes normalize input mtext atext body)).pixKey = some input.pixKey ∧
      (readBrCode (builtNodes normalize input mtext atext body)).description =
        (given input.description).map fun description =>
          sanitizeText normalize description (72 - input.pixKey.length) := by
  have hchildren : childrenOf (builtNodes normalize input mtext atext body)
    EmvId.MERCHANT_ACCOUNT_INFORMATION_PIX =
      merchantChildren normalize input := (children_built mtext atext body).1
  obtain ⟨hkey, hnone, hdescription⟩ := @valueOf_static normalize input hurl
  rw [readBrCode]
  simp only [hchildren, hkey, hnone, hdescription]
  exact ⟨rfl, trivial, trivial⟩

theorem keptAccount_dynamic {url : Text} (hurl : given input.url = some url) {parsed : ParsedBrCode} :
    KeptAccount normalize input parsed ↔ parsed.url = some url ∧ parsed.pixKey = none := by
  rw [KeptAccount, hurl]

theorem accountFits_dynamic {url : Text} (hurl : given input.url = some url) :
    AccountFits normalize input ↔ ∃ path, url = units "https://" ++ path ∧ path ≠ [] ∧ path.length ≤ 77 := by
  rw [AccountFits, hurl]

theorem account_built (mtext atext body : Text) (hsize : size (merchantChildren normalize input) ≤ 99) :
    KeptAccount normalize input (readBrCode (builtNodes normalize input mtext atext body)) ↔
      AccountFits normalize input := by
  cases hurl : given input.url with
  | none =>
    obtain ⟨hnone, hkey, hdescription⟩ := @key_built normalize input hurl mtext atext body
    refine ⟨fun _ => (static_fits hurl).mp hsize, fun _ => ?_⟩
    rw [KeptAccount, hurl, hkey, hnone, hdescription]
    refine ⟨rfl, rfl, fun description hgiven => ?_⟩
    rw [hgiven]
    exact kept_sanitized description _
  | some url =>
    obtain ⟨hread, hkey⟩ := @url_built normalize input url hurl mtext atext body
    rw [size_dynamic hurl] at hsize
    rw [keptAccount_dynamic hurl, accountFits_dynamic hurl, hread, hkey]
    by_cases hnil : stripScheme url = []
    · rw [hnil]
      refine ⟨fun h => (nomatch h.1), ?_⟩
      rintro ⟨path, rfl, hpath, -⟩
      rw [stripScheme_https] at hnil
      exact absurd hnil hpath
    · have hgiven : given (some (stripScheme url)) = some (stripScheme url) :=
        Option.filter_eq_some_iff.mpr ⟨rfl, decide_eq_true hnil⟩
      rw [hgiven, Option.map_some]
      constructor
      · intro h
        exact ⟨stripScheme url, (Option.some.inj h.1).symm, hnil, by omega⟩
      · rintro ⟨path, rfl, -, -⟩
        rw [stripScheme_https]
        exact ⟨rfl, rfl⟩

theorem size_of_fits (h : AccountFits normalize input) : size (merchantChildren normalize input) ≤ 99 := by
  cases hurl : given input.url with
  | none => exact (static_fits hurl).mpr h
  | some url =>
    obtain ⟨path, rfl, -, hlength⟩ := (accountFits_dynamic hurl).mp h
    rw [size_dynamic hurl, stripScheme_https]
    omega

theorem round_trips_iff (hadmitted : Admitted input) :
    RoundTrips normalize input ↔ AccountFits normalize input ∧ CrcFits normalize input := by
  have htag : EmvId.CRC ++ units "04" = units "6304" := by decide
  constructor
  · rintro ⟨payload, parsed, hbuilt, hparsed, hback⟩
    obtain ⟨mtext, atext, hfilled⟩ := filled_of_built hadmitted hbuilt
    obtain ⟨body, hbody, hpayload, hdecoded⟩ := decode_built hadmitted hfilled
    rw [← Except.ok.inj (hpayload.symm.trans hbuilt), parse_built hbody hdecoded] at hparsed
    obtain ⟨hcrc, rfl⟩ := hparsed
    have hsize := (encode_leaves simple_merchant).mp ⟨mtext, hfilled.merchant, hfilled.merchantLength⟩
    refine ⟨(account_built mtext atext body hsize).mp hback.account, fun other hother => ?_⟩
    rw [← Except.ok.inj (hbody.symm.trans hother), List.append_assoc, ← htag]
    exact hcrc
  · rintro ⟨hfits, hcrc⟩
    have hsize := size_of_fits hfits
    obtain ⟨mtext, atext, hfilled⟩ := filled_of_size hadmitted hsize
    obtain ⟨body, hbody, hpayload, hdecoded⟩ := decode_built hadmitted hfilled
    have hother := hcrc body hbody
    rw [List.append_assoc, ← htag] at hother
    refine ⟨_, _, hpayload, (parse_built hbody hdecoded _).mpr ⟨hother, rfl⟩, ?_⟩
    exact (givenBack_iff hadmitted mtext atext body).mpr ((account_built mtext atext body hsize).mpr hfits)

def shop : BrCodeInput :=
  { pixKey := units "52998224725", merchantName := units "Loja Exemplo", merchantCity := units "Sao Paulo"
    amount := some (units "150.75"), referenceLabel := some (units "PEDIDO123"), description := none
    postalCode := none, merchantCategoryCode := none, url := none, singleUse := true }

theorem round_trips_iff_shop : Admitted shop ∧
    (RoundTrips id shop ↔ AccountFits id shop ∧ CrcFits id shop) := by
  have hadmitted : Admitted shop := by
    refine ⟨fun _ => by decide, fun amount h => ?_, fun txid h => ?_,
      fun _ h => (nomatch h), fun _ h => (nomatch h)⟩
    · rw [← Option.some.inj h]
      decide
    · rw [← Option.some.inj h]
      decide
  exact ⟨hadmitted, round_trips_iff hadmitted⟩

/-- A key of 74 characters, as an address may have, and a description. -/
def longKey : BrCodeInput :=
  { shop with pixKey := List.replicate 62 0x61 ++ units "@loja.com.br", description := some (units "Mesa") }

theorem long_key_not_built : longKey.pixKey.length = 74 ∧
    buildBrCode id longKey = .error (.long EmvId.MERCHANT_ACCOUNT_INFORMATION_PIX) ∧
    ¬ RoundTrips id longKey := by
  have hbuilt : buildBrCode id longKey = .error (.long EmvId.MERCHANT_ACCOUNT_INFORMATION_PIX) := by
    decide +kernel
  refine ⟨by decide, hbuilt, ?_⟩
  rintro ⟨payload, parsed, hpayload, -⟩
  exact nomatch hbuilt.symm.trans hpayload

end BaasConnector.Taxonomy.BrCode
