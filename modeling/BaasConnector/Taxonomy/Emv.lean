import BaasConnector.Lib.CodeUnits
import BaasConnector.Lib.Results
import Mathlib.Logic.Function.Iterate

namespace BaasConnector.Taxonomy.Emv

open BaasConnector.Lib.CodeUnits BaasConnector.Lib.Results

inductive EmvNode
  | node (id value : Text) (children : Option (List EmvNode))

def EmvNode.id : EmvNode → Text
  | .node id _ _ => id

def EmvNode.value : EmvNode → Text
  | .node _ value _ => value

def EmvNode.children : EmvNode → Option (List EmvNode)
  | .node _ _ children => children

namespace EmvId

def PAYLOAD_FORMAT_INDICATOR : Text := units "00"
def POINT_OF_INITIATION_METHOD : Text := units "01"
def MERCHANT_ACCOUNT_INFORMATION_PIX : Text := units "26"
def MERCHANT_CATEGORY_CODE : Text := units "52"
def TRANSACTION_CURRENCY : Text := units "53"
def TRANSACTION_AMOUNT : Text := units "54"
def COUNTRY_CODE : Text := units "58"
def MERCHANT_NAME : Text := units "59"
def MERCHANT_CITY : Text := units "60"
def POSTAL_CODE : Text := units "61"
def ADDITIONAL_DATA_FIELD : Text := units "62"
def CRC : Text := units "63"

end EmvId

namespace EmvPixId

def GUI : Text := units "00"
def KEY : Text := units "01"
def DESCRIPTION : Text := units "02"
def URL : Text := units "25"

end EmvPixId

def REFERENCE_LABEL : Text := units "05"

/-- Only these letters, in either case, become this text in lower case. -/
def pixGui : Text := units "br.gov.bcb.pix"

/-- Templates that hold fields of their own. -/
def nestedIds : List Text :=
  [units "26", units "27", units "62", units "80", units "81", units "82"]

inductive EmvError
  | truncated (position : Nat)
  | header (position : Nat) (id rawLength : Text)
  | short (id : Text) (length : Nat)
  | long (id : Text)
  | keyless
  | crc
  | gui (found : Option Text)
deriving DecidableEq, Repr

def EmvError.message : EmvError → Text
  | .truncated position => units ("TLV truncado na posicao " ++ toString position)
  | .header position id rawLength =>
    units ("Cabecalho TLV invalido na posicao " ++ toString position ++ ": ") ++ id ++ rawLength
  | .short id length =>
    units "Campo " ++ id ++
      units (" declara " ++ toString length ++ " caracteres mas o payload terminou")
  | .long id => units "Campo EMV " ++ id ++ units " excede 99 caracteres"
  | .keyless => units "BR Code exige chave Pix ou URL de cobranca dinamica"
  | .crc => units "CRC do BR Code nao confere"
  | .gui found => units "GUI " ++ found.getD (units "(ausente)") ++ units " nao e um BR Code Pix"

def crcBit (crc : Nat) : Nat :=
  if crc &&& 0x8000 ≠ 0 then ((crc <<< 1) ^^^ 0x1021) &&& 0xffff else (crc <<< 1) &&& 0xffff

def crcUnit (crc : Nat) (unit : UInt16) : Nat := crcBit^[8] (crc ^^^ (unit.toNat <<< 8))

def crc16 (payload : Text) : Text := hexDigits true (payload.foldl crcUnit 0xffff)

/-- A length of at most two digits. -/
def twoDigits (length : Nat) : Text := [UInt16.ofNat (0x30 + length / 10), UInt16.ofNat (0x30 + length % 10)]

def encodeField (id value : Text) : Except EmvError Text :=
  if 99 < value.length then .error (.long id) else .ok (id ++ twoDigits value.length ++ value)

mutual

def encodeNode : EmvNode → Except EmvError Text
  | .node id _ (some (child :: children)) => do
    let value ← encodeNodes (child :: children)
    encodeField id value
  | .node id value _ => encodeField id value

def encodeNodes : List EmvNode → Except EmvError Text
  | [] => .ok []
  | node :: nodes => do
    let field ← encodeNode node
    let fields ← encodeNodes nodes
    .ok (field ++ fields)

end

/-- The nodes and their CRC. -/
def encodeEmv (nodes : List EmvNode) : Except EmvError Text := do
  let body ← encodeNodes (nodes.filter fun node => decide (node.id ≠ EmvId.CRC))
  let withCrcHeader := body ++ EmvId.CRC ++ units "04"
  .ok (withCrcHeader ++ crc16 withCrcHeader)

/-- The fields of a text, the cursor being where it starts. -/
def decodeFrom (cursor : Nat) (payload : Text) : Except EmvError (List EmvNode) :=
  if payload = [] then .ok []
  else if payload.length < 4 then .error (.truncated cursor)
  else
    let id := payload.take 2
    let rawLength := (payload.drop 2).take 2
    let body := payload.drop 4
    match if id.all isDigit then readDigits 10 rawLength else none with
    | none => .error (.header cursor id rawLength)
    | some length =>
      if body.length < length then .error (.short id length)
      else do
        let children ←
          if id ∈ nestedIds then (decodeFrom 0 (body.take length)).map some else .ok none
        let nodes ← decodeFrom (cursor + 4 + length) (body.drop length)
        .ok (.node id (body.take length) children :: nodes)
termination_by payload.length
decreasing_by
  all_goals simp only [List.length_take, List.length_drop]; omega

def decodeEmv (payload : Text) : Except EmvError (List EmvNode) := decodeFrom 0 payload

def findNode (nodes : List EmvNode) (id : Text) : Option EmvNode :=
  nodes.find? fun node => decide (node.id = id)

/-- The last place where a text occurs. -/
def lastIndexOf (mark : Text) (text : Text) : Option Nat :=
  (List.range (text.length + 1)).reverse.find? fun index => mark.isPrefixOf (text.drop index)

/-- The declared CRC, in capitals, against the one of the text before it. Four
code units become four hexadecimal digits only letter by letter. -/
def verifyEmvCrc (payload : Text) : Bool :=
  match lastIndexOf (EmvId.CRC ++ units "04") payload with
  | none => false
  | some marker =>
    decide (marker + 8 = payload.length) &&
      decide (crc16 (payload.take (marker + 4)) = (payload.drop (marker + 4)).map upper)

structure ParsedBrCode where
  pixKey : Option Text
  url : Option Text
  merchantName : Option Text
  merchantCity : Option Text
  amount : Option Text
  txid : Option Text
  description : Option Text
  singleUse : Bool
  isDynamic : Bool
  nodes : List EmvNode

def valueOf (nodes : List EmvNode) (id : Text) : Option Text := (findNode nodes id).map EmvNode.value

def childrenOf (nodes : List EmvNode) (id : Text) : List EmvNode :=
  ((findNode nodes id).bind EmvNode.children).getD []

def guiOf (nodes : List EmvNode) : Option Text :=
  valueOf (childrenOf nodes EmvId.MERCHANT_ACCOUNT_INFORMATION_PIX) EmvPixId.GUI

/-- What the fields of a code say. -/
def readBrCode (nodes : List EmvNode) : ParsedBrCode :=
  let merchantChildren := childrenOf nodes EmvId.MERCHANT_ACCOUNT_INFORMATION_PIX
  let url := (valueOf merchantChildren EmvPixId.URL).filter (· ≠ [])
  let txid := valueOf (childrenOf nodes EmvId.ADDITIONAL_DATA_FIELD) REFERENCE_LABEL
  { pixKey := valueOf merchantChildren EmvPixId.KEY
    url := url.map (units "https://" ++ ·)
    merchantName := valueOf nodes EmvId.MERCHANT_NAME
    merchantCity := valueOf nodes EmvId.MERCHANT_CITY
    amount := valueOf nodes EmvId.TRANSACTION_AMOUNT
    txid := txid.filter fun txid => decide (txid ≠ [] ∧ txid ≠ units "***")
    description := valueOf merchantChildren EmvPixId.DESCRIPTION
    singleUse := decide (valueOf nodes EmvId.POINT_OF_INITIATION_METHOD = some (units "12"))
    isDynamic := url.isSome
    nodes := nodes }

def parseBrCode (payload : Text) : Except EmvError ParsedBrCode :=
  let trimmed := trim payload
  if verifyEmvCrc trimmed = false then .error .crc
  else do
    let nodes ← decodeEmv trimmed
    if (guiOf nodes).map (·.map lower) ≠ some pixGui then .error (.gui (guiOf nodes))
      else .ok (readBrCode nodes)

example : crc16 (units "123456789") = units "29B1" := by decide +kernel

theorem parseBrCode_ok {payload : Text} {parsed : ParsedBrCode} (h : parseBrCode payload = .ok parsed) :
    ∃ nodes, decodeEmv (trim payload) = .ok nodes ∧ parsed = readBrCode nodes := by
  rw [parseBrCode] at h
  split_ifs at h with hcrc
  obtain ⟨nodes, hnodes, h⟩ := bind_eq_ok.mp h
  split_ifs at h with hgui
  exact ⟨nodes, hnodes, (Except.ok.inj h).symm⟩

end BaasConnector.Taxonomy.Emv
