import BaasConnector.Taxonomy.EmvCrc

namespace BaasConnector.Taxonomy.EmvRoundTrip

open BaasConnector.Lib.CodeUnits BaasConnector.Lib.Results BaasConnector.Taxonomy.Emv
      BaasConnector.Taxonomy.EmvCrc

def TwoDigits (id : Text) : Prop := id.length = 2 ∧ id.all isDigit = true

/-- A node has children exactly when its id is a template's, and its value is
their encoding. -/
inductive WellFormed : EmvNode → Prop
  | leaf {id value : Text} (hid : TwoDigits id) (hnested : id ∉ nestedIds) (hlength : value.length ≤ 99) :
      WellFormed (.node id value none)
  | template {id value : Text} {children : List EmvNode} (hid : TwoDigits id) (hnested : id ∈ nestedIds)
      (hchildren : ∀ child ∈ children, WellFormed child) (hvalue : encodeNodes children = .ok value)
      (hlength : value.length ≤ 99) : WellFormed (.node id value (some children))

theorem readDigits_twoDigits {length : Nat} (h : length ≤ 99) :
    readDigits 10 (twoDigits length) = some length := by
  have hall : ∀ n < 100, readDigits 10 (twoDigits n) = some n := by decide
  exact hall length (by omega)

theorem readDigit_ten {unit : UInt16} {value : Nat} (h : readDigit 10 unit = some value) :
    value < 10 ∧ unit = UInt16.ofNat (0x30 + value) := by
  obtain ⟨hvalue, hlt⟩ := Option.filter_eq_some_iff.mp h
  have hten : value < 10 := of_decide_eq_true hlt
  refine ⟨hten, ?_⟩
  rw [digitValue] at hvalue
  split_ifs at hvalue with hdigit hlower hupper
  · rw [isDigit, Bool.and_eq_true, decide_eq_true_eq, decide_eq_true_eq] at hdigit
    have hle : 0x30 ≤ unit.toNat := UInt16.le_iff_toNat_le.mp hdigit.1
    have hunit := Option.some.inj hvalue
    rw [show 0x30 + value = unit.toNat by omega, UInt16.ofNat_toNat]
  · have hle : 0x61 ≤ unit.toNat := UInt16.le_iff_toNat_le.mp hlower.1
    have hunit := Option.some.inj hvalue
    omega
  · have hle : 0x41 ≤ unit.toNat := UInt16.le_iff_toNat_le.mp hupper.1
    have hunit := Option.some.inj hvalue
    omega

theorem twoDigits_readDigits {text : Text} {length : Nat} (htext : text.length = 2)
    (h : readDigits 10 text = some length) : length ≤ 99 ∧ twoDigits length = text := by
  obtain ⟨a, b, rfl⟩ := List.length_eq_two.mp htext
  simp only [readDigits, List.foldlM_cons, List.foldlM_nil, Option.bind_eq_bind, Option.bind_eq_some_iff,
    Option.map_eq_some_iff, Option.pure_def, Option.some.injEq] at h
  obtain ⟨tens, ⟨high, hhigh, htens⟩, total, ⟨low, hlow, htotal⟩, hlength⟩ := h
  obtain ⟨hhighlt, rfl⟩ := readDigit_ten hhigh
  obtain ⟨hlowlt, rfl⟩ := readDigit_ten hlow
  refine ⟨by omega, ?_⟩
  rw [twoDigits, show length / 10 = high by omega, show length % 10 = low by omega]

/-- One field, and what follows it. -/
theorem decodeFrom_field {id value : Text} {children : Option (List EmvNode)} (hid : TwoDigits id)
    (hlength : value.length ≤ 99) (cursor : Nat) (rest : Text)
    (hchildren : (if id ∈ nestedIds then (decodeFrom 0 value).map some else .ok none) = .ok children) :
    decodeFrom cursor (id ++ twoDigits value.length ++ value ++ rest) =
      (decodeFrom (cursor + 4 + value.length) rest).map (.node id value children :: ·) := by
  have hread := readDigits_twoDigits hlength
  obtain ⟨a, b, rfl⟩ := List.length_eq_two.mp hid.1
  obtain ⟨c, d, hdigits⟩ := List.length_eq_two.mp (show (twoDigits value.length).length = 2 from rfl)
  rw [hdigits] at hread ⊢
  have hpayload : [a, b] ++ [c, d] ++ value ++ rest = a :: b :: c :: d :: (value ++ rest) := rfl
  have hlong : ¬ (a :: b :: c :: d :: (value ++ rest)).length < 4 := by
    simp only [List.length_cons]
    omega
  have hbody : ¬ (value ++ rest).length < value.length := by
    rw [List.length_append]
    omega
  have hid' : [a, b].all isDigit = true := hid.2
  rw [hpayload, decodeFrom, if_neg (List.cons_ne_nil _ _), if_neg hlong]
  simp only [List.take_succ_cons, List.take_zero, List.drop_succ_cons, List.drop_zero, hid',
    if_true, hread, if_neg hbody,
    List.take_left, List.drop_left]
  by_cases hnested : [a, b] ∈ nestedIds
  · rw [if_pos hnested] at hchildren
    rw [if_pos hnested, hchildren, ok_bind]
    cases decodeFrom (cursor + 4 + value.length) rest <;> rfl
  · rw [if_neg hnested] at hchildren
    rw [if_neg hnested, ← Except.ok.inj hchildren, ok_bind]
    cases decodeFrom (cursor + 4 + value.length) rest <;> rfl

theorem encodeField_ok (id : Text) {value : Text} (hlength : value.length ≤ 99) :
    encodeField id value = .ok (id ++ twoDigits value.length ++ value) := by
  rw [encodeField, if_neg (by omega)]

/-- What a well-formed node is encoded as. -/
theorem WellFormed.encode {node : EmvNode} (h : WellFormed node) :
    encodeNode node = .ok (node.id ++ twoDigits node.value.length ++ node.value) := by
  cases h with
  | @leaf id value _ _ hlength => exact encodeField_ok id hlength
  | @template id value children _ _ _ hvalue hlength =>
    cases children with
    | nil => exact encodeField_ok id hlength
    | cons child children =>
      rw [encodeNode, hvalue, ok_bind]
      exact encodeField_ok id hlength

theorem encodeNodes_cons {node : EmvNode} {nodes : List EmvNode} {text : Text} :
    encodeNodes (node :: nodes) = .ok text ↔
      ∃ field fields, encodeNode node = .ok field ∧ encodeNodes nodes = .ok fields ∧
      text = field ++ fields := by
  rw [encodeNodes]
  constructor
  · intro h
    obtain ⟨field, hfield, h⟩ := bind_eq_ok.mp h
    obtain ⟨fields, hfields, h⟩ := bind_eq_ok.mp h
    exact ⟨field, fields, hfield, hfields, (Except.ok.inj h).symm⟩
  · rintro ⟨field, fields, hfield, hfields, rfl⟩
    rw [hfield, ok_bind, hfields, ok_bind]

theorem WellFormed.twoDigits {node : EmvNode} (h : WellFormed node) :
    TwoDigits node.id ∧ node.value.length ≤ 99 := by
  cases h with
  | leaf hid _ hlength => exact ⟨hid, hlength⟩
  | template hid _ _ _ hlength => exact ⟨hid, hlength⟩

theorem decodeFrom_nil (cursor : Nat) : decodeFrom cursor [] = .ok [] := by
  rw [decodeFrom, if_pos rfl]

/-- Well-formed nodes are read back, and the text after them as it stands. -/
theorem decodeFrom_encodeNodes {nodes : List EmvNode} {text : Text} (hnodes : ∀ node ∈ nodes, WellFormed node)
    (htext : encodeNodes nodes = .ok text) (cursor : Nat) (rest : Text) :
    decodeFrom cursor (text ++ rest) = (decodeFrom (cursor + text.length) rest).map (nodes ++ ·) := by
  induction hlength : text.length using Nat.strong_induction_on generalizing nodes text cursor rest with
  | _ length ih =>
    subst hlength
    cases nodes with
    | nil =>
      rw [encodeNodes] at htext
      rw [← Except.ok.inj htext, List.nil_append, List.length_nil, Nat.add_zero]
      cases decodeFrom cursor rest <;> rfl
    | cons node nodes =>
      obtain ⟨field, fields, hfield, hfields, rfl⟩ := encodeNodes_cons.mp htext
      have hnode := hnodes node List.mem_cons_self
      obtain ⟨hid, hvalue⟩ := hnode.twoDigits
      rw [hnode.encode] at hfield
      have hsame := (Except.ok.inj hfield).symm
      subst hsame
      have hlen : (node.id ++ twoDigits node.value.length ++ node.value).length = 4 + node.value.length := by
        rw [List.length_append, List.length_append, hid.1]
        rfl
      have hrest := ih fields.length (by rw [List.length_append, hlen]; omega)
        (fun other hmem => hnodes other (List.mem_cons_of_mem node hmem)) hfields
          (cursor + 4 + node.value.length)
        rest rfl
      have hchildren : (if node.id ∈ nestedIds then (decodeFrom 0 node.value).map some else .ok none) =
          (.ok node.children : Except EmvError _) := by
        cases hnode with
        | leaf _ hnested _ => exact if_neg hnested
        | @template id value children _ hnested hchildren hencoded _ =>
          have hshorter : value.length < 4 + value.length + fields.length := by omega
          have hinner := ih value.length (by rw [List.length_append, hlen]; exact hshorter)
            hchildren hencoded 0 [] rfl
          rw [List.append_nil, decodeFrom_nil] at hinner
          refine (if_pos hnested).trans ?_
          simp only [EmvNode.value, hinner, Except.map, List.append_nil, EmvNode.children]
      rw [List.append_assoc, decodeFrom_field hid hvalue _ _ hchildren, hrest, List.length_append, hlen,
        ← Nat.add_assoc, ← Nat.add_assoc]
      cases decodeFrom (cursor + 4 + node.value.length + fields.length) rest with
      | error error => rfl
      | ok others => cases node; rfl

/-- The first field of a text that is read. -/
theorem decodeFrom_ok {cursor : Nat} {text : Text} {nodes : List EmvNode} (hne : text ≠ [])
    (h : decodeFrom cursor text = .ok nodes) :
    ∃ id value rest children others, text = id ++ twoDigits value.length ++ value ++ rest ∧ TwoDigits id ∧
      value.length ≤ 99 ∧ (if id ∈ nestedIds then (decodeFrom 0 value).map some else .ok none) =
        .ok children ∧
      decodeFrom (cursor + 4 + value.length) rest = .ok others ∧
      nodes = .node id value children :: others := by
  rw [decodeFrom, if_neg hne] at h
  split_ifs at h with hshort
  cases hread : if (text.take 2).all isDigit then readDigits 10 ((text.drop 2).take 2) else none with
  | none =>
    simp only [hread] at h
    exact nomatch h
  | some length =>
    simp only [hread] at h
    split_ifs at hread with hdigits
    have hraw : ((text.drop 2).take 2).length = 2 := by
      rw [List.length_take, List.length_drop]
      omega
    obtain ⟨hninety, hlength⟩ := twoDigits_readDigits hraw hread
    have hid : TwoDigits (text.take 2) := ⟨by rw [List.length_take]; omega, hdigits⟩
    split_ifs at h with hbody hnested
    all_goals
      obtain ⟨children, hchildren, h⟩ := bind_eq_ok.mp h
      obtain ⟨others, hothers, h⟩ := bind_eq_ok.mp h
      have hvalue : ((text.drop 4).take length).length = length := by
        rw [List.length_take]
        omega
      refine ⟨text.take 2, (text.drop 4).take length, (text.drop 4).drop length, children,
        others, ?_, hid, ?_, ?_, ?_,
        (Except.ok.inj h).symm⟩
      · rw [hvalue, hlength, List.append_assoc, List.take_append_drop, List.append_assoc]
        have hdrop : text.drop 4 = (text.drop 2).drop 2 := by rw [List.drop_drop]
        rw [hdrop, List.take_append_drop, List.take_append_drop]
      · rw [hvalue]
        exact hninety
      · rw [← hchildren]
        simp [hnested]
      · rw [hvalue]
        exact hothers

theorem encodeNodes_decodeFrom {cursor : Nat} {text : Text} {nodes : List EmvNode}
    (h : decodeFrom cursor text = .ok nodes) :
    (∀ node ∈ nodes, WellFormed node) ∧ encodeNodes nodes = .ok text := by
  induction hlength : text.length using Nat.strong_induction_on generalizing cursor text nodes with
  | _ length ih =>
    subst hlength
    by_cases hnil : text = []
    · rw [hnil, decodeFrom_nil] at h
      rw [← Except.ok.inj h, hnil, encodeNodes]
      exact ⟨fun _ hmem => absurd hmem List.not_mem_nil, rfl⟩
    · obtain ⟨id, value, rest, children, others, rfl, hid, hvalue, hchildren, hothers, rfl⟩ :=
        decodeFrom_ok hnil h
      have hlen : (id ++ twoDigits value.length ++ value ++ rest).length = 4 +
        value.length + rest.length := by
        rw [List.length_append, List.length_append, List.length_append, hid.1]
        rfl
      obtain ⟨hwell, hencoded⟩ := ih rest.length (by omega) hothers rfl
      have hnode : WellFormed (.node id value children) := by
        by_cases hnested : id ∈ nestedIds
        · rw [if_pos hnested] at hchildren
          obtain ⟨inner, hinner, rfl⟩ := map_eq_ok.mp hchildren
          obtain ⟨hinnerwell, hinnerencoded⟩ := ih value.length (by omega) hinner rfl
          exact .template hid hnested hinnerwell hinnerencoded hvalue
        · rw [if_neg hnested] at hchildren
          rw [← Except.ok.inj hchildren]
          exact .leaf hid hnested hvalue
      refine ⟨fun node hmem => ?_, encodeNodes_cons.mpr ⟨_, rest, hnode.encode, hencoded, rfl⟩⟩
      obtain rfl | hmem := List.mem_cons.mp hmem
      · exact hnode
      · exact hwell node hmem

/-- The node of the CRC of a text. -/
def crcNode (body : Text) : EmvNode := .node EmvId.CRC (crc16 (body ++ crcTag)) none

theorem filter_crc {nodes : List EmvNode} (h : ∀ node ∈ nodes, node.id ≠ EmvId.CRC) :
    (nodes.filter fun node => decide (node.id ≠ EmvId.CRC)) = nodes :=
  List.filter_eq_self.mpr fun node hmem => decide_eq_true (h node hmem)

theorem crcTag_field (body : Text) :
    crcTag ++ crc16 (body ++ crcTag) =
      EmvId.CRC ++ twoDigits (crc16 (body ++ crcTag)).length ++ crc16 (body ++ crcTag) ++ [] := by
  have hfour : (crc16 (body ++ crcTag)).length = 4 := rfl
  have htag : EmvId.CRC ++ twoDigits 4 = crcTag := by decide
  rw [hfour, htag, List.append_nil]

theorem encodeEmv_body {nodes : List EmvNode} {body : Text} (hnodes : ∀ node ∈ nodes, node.id ≠ EmvId.CRC)
    (hbody : encodeNodes nodes = .ok body) :
    encodeEmv nodes = .ok (body ++ crcTag ++ crc16 (body ++ crcTag)) := by
  rw [encodeEmv, filter_crc hnodes, hbody, ok_bind, crcTag, ← List.append_assoc]

theorem decodeEmv_encodeEmv {nodes : List EmvNode} {body : Text}
    (hnodes : ∀ node ∈ nodes, WellFormed node ∧ node.id ≠ EmvId.CRC) (hbody : encodeNodes nodes = .ok body) :
    decodeEmv (body ++ crcTag ++ crc16 (body ++ crcTag)) = .ok (nodes ++ [crcNode body]) := by
  have hfour : (crc16 (body ++ crcTag)).length ≤ 99 := show 4 ≤ 99 by decide
  have hfield : decodeFrom (0 + body.length) (crcTag ++ crc16 (body ++ crcTag)) = .ok [crcNode body] := by
    rw [crcTag_field, decodeFrom_field ⟨rfl, by decide⟩ hfour _ _ (if_neg (by decide)), decodeFrom_nil]
    rfl
  rw [decodeEmv, List.append_assoc, decodeFrom_encodeNodes (fun node hmem => (hnodes node hmem).1) hbody,
    hfield]
  rfl

theorem encodeNodes_total {nodes : List EmvNode} (h : ∀ node ∈ nodes, WellFormed node) :
    ∃ body, encodeNodes nodes = .ok body := by
  induction nodes with
  | nil => exact ⟨[], by rw [encodeNodes]⟩
  | cons node nodes ih =>
    obtain ⟨fields, hfields⟩ := ih fun other hmem => h other (List.mem_cons_of_mem node hmem)
    exact ⟨_, encodeNodes_cons.mpr ⟨_, fields, (h node List.mem_cons_self).encode, hfields, rfl⟩⟩

/-- Encoded nodes that are read back without their last. -/
theorem encodeNodes_append {nodes more : List EmvNode} {text : Text} :
    encodeNodes (nodes ++ more) = .ok text ↔
      ∃ body rest, encodeNodes nodes = .ok body ∧ encodeNodes more = .ok rest ∧ text = body ++ rest := by
  induction nodes generalizing text with
  | nil =>
    rw [List.nil_append]
    constructor
    · intro h
      exact ⟨[], text, by rw [encodeNodes], h, rfl⟩
    · rintro ⟨body, rest, hbody, hrest, rfl⟩
      rw [encodeNodes] at hbody
      rw [← Except.ok.inj hbody, hrest, List.nil_append]
  | cons node nodes ih =>
    rw [List.cons_append, encodeNodes_cons]
    constructor
    · rintro ⟨field, fields, hfield, hfields, rfl⟩
      obtain ⟨body, rest, hbody, hrest, rfl⟩ := ih.mp hfields
      refine ⟨field ++ body, rest, encodeNodes_cons.mpr ⟨field, body, hfield, hbody, rfl⟩, hrest, ?_⟩
      rw [List.append_assoc]
    · rintro ⟨body, rest, hbody, hrest, rfl⟩
      obtain ⟨field, fields, hfield, hfields, rfl⟩ := encodeNodes_cons.mp hbody
      exact ⟨field, fields ++ rest, hfield, ih.mpr ⟨fields, rest, hfields, hrest, rfl⟩, List.append_assoc ..⟩

/-- A text that is read, whose one CRC node is last and is the CRC of the text
before its value. -/
def SealedText (text : Text) (nodes : List EmvNode) : Prop :=
  decodeEmv text = .ok nodes ∧ ∃ first last, nodes = first ++ [last] ∧ (∀ node ∈ first, node.id ≠ EmvId.CRC) ∧
    last.id = EmvId.CRC ∧ last.value = crc16 (text.take (text.length - last.value.length))

theorem encodeEmv_decodeEmv {text : Text} {nodes : List EmvNode} (h : SealedText text nodes) :
    encodeEmv nodes = .ok text := by
  obtain ⟨hdecoded, first, last, rfl, hfirst, hlast, hcrc⟩ := h
  obtain ⟨hwell, hencoded⟩ := encodeNodes_decodeFrom hdecoded
  obtain ⟨body, rest, hbody, hrest, rfl⟩ := encodeNodes_append.mp hencoded
  obtain ⟨field, fields, hfield, hfields, rfl⟩ := encodeNodes_cons.mp hrest
  rw [encodeNodes] at hfields
  rw [(hwell last (List.mem_append_right first (List.mem_singleton_self last))).encode, hlast] at hfield
  rw [← Except.ok.inj hfields, ← Except.ok.inj hfield, List.append_nil] at hcrc ⊢
  have hfour : last.value.length = 4 := by
    rw [hcrc]
    rfl
  have htag : EmvId.CRC ++ twoDigits last.value.length = crcTag := by rw [hfour]; decide
  rw [htag, ← List.append_assoc, List.length_append, Nat.add_sub_cancel, List.take_left] at hcrc
  have hfilter : ((first ++ [last]).filter fun node => decide (node.id ≠ EmvId.CRC)) = first := by
    rw [List.filter_append, filter_crc hfirst, List.filter_cons_of_neg (by simp [hlast]), List.filter_nil,
      List.append_nil]
  rw [htag, encodeEmv, hfilter, hbody, ok_bind]
  rw [crcTag, ← List.append_assoc] at hcrc ⊢
  rw [hcrc]
  simp only [List.append_assoc]

/-- What is encoded of well-formed nodes is sealed by its CRC. -/
theorem sealedText_body {nodes : List EmvNode} {body : Text}
    (hnodes : ∀ node ∈ nodes, WellFormed node ∧ node.id ≠ EmvId.CRC) (hbody : encodeNodes nodes = .ok body) :
    SealedText (body ++ crcTag ++ crc16 (body ++ crcTag)) (nodes ++ [crcNode body]) := by
  refine ⟨decodeEmv_encodeEmv hnodes hbody, nodes, crcNode body, rfl, fun node hmem => (hnodes node hmem).2,
    rfl, ?_⟩
  rw [List.length_append]
  exact congrArg crc16 (by rw [show (crcNode body).value = crc16 (body ++ crcTag) from rfl,
    Nat.add_sub_cancel, List.take_left])

/-- Either way round the format gives back what it was given. -/
theorem emv_round_trip :
    (∀ nodes, (∀ node ∈ nodes, WellFormed node ∧ node.id ≠ EmvId.CRC) →
      ∃ body payload, encodeNodes nodes = .ok body ∧ encodeEmv nodes = .ok payload ∧
        decodeEmv payload = .ok (nodes ++ [crcNode body])) ∧
    ∀ text nodes, SealedText text nodes → encodeEmv nodes = .ok text := by
  refine ⟨fun nodes hnodes => ?_, fun text nodes h => encodeEmv_decodeEmv h⟩
  obtain ⟨body, hbody⟩ := encodeNodes_total fun node hmem => (hnodes node hmem).1
  exact ⟨body, _, hbody, encodeEmv_body (fun node hmem => (hnodes node hmem).2) hbody,
    decodeEmv_encodeEmv hnodes hbody⟩

theorem shopNodes_wellFormed : ∀ node ∈ shopNodes, WellFormed node ∧ node.id ≠ EmvId.CRC := by
  have hleaf : ∀ {id value : Text}, (id.length = 2 ∧ id.all isDigit = true ∧ id ∉ nestedIds ∧
      value.length ≤ 99) → WellFormed (.node id value none) := fun h => .leaf ⟨h.1, h.2.1⟩ h.2.2.1 h.2.2.2
  have hpix : ∀ child ∈ [EmvNode.node (units "00") (units "br.gov.bcb.pix") none,
      .node (units "01") (units "a@ab.cd") none], WellFormed child :=
    List.forall_mem_cons.mpr ⟨hleaf (by decide), List.forall_mem_singleton.mpr (hleaf (by decide))⟩
  simp only [shopNodes, List.forall_mem_cons]
  exact ⟨⟨hleaf (by decide), by decide⟩,
    ⟨.template ⟨by decide, by decide⟩ (by decide) hpix (by decide +kernel) (by decide), by decide⟩,
    ⟨hleaf (by decide), by decide⟩, ⟨hleaf (by decide), by decide⟩, ⟨hleaf (by decide), by decide⟩,
    ⟨hleaf (by decide), by decide⟩, ⟨hleaf (by decide), by decide⟩, fun _ h => absurd h List.not_mem_nil⟩

theorem emv_round_trip_shop :
    (∃ body payload, encodeNodes shopNodes = .ok body ∧ encodeEmv shopNodes = .ok payload ∧
      decodeEmv payload = .ok (shopNodes ++ [crcNode body])) ∧
    encodeEmv (shopNodes ++ [crcNode shopBody]) = .ok (shopBody ++ crcTag ++ crc16 (shopBody ++ crcTag)) :=
  ⟨emv_round_trip.1 shopNodes shopNodes_wellFormed,
    emv_round_trip.2 _ _ (sealedText_body shopNodes_wellFormed (by decide +kernel))⟩

end BaasConnector.Taxonomy.EmvRoundTrip
