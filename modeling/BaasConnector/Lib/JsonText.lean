import BaasConnector.Lib.CodeUnits

namespace BaasConnector.Lib.JsonText

open BaasConnector.Lib.CodeUnits

def isNumberUnit (unit : UInt16) : Bool :=
  isDigit unit || unit == 0x2B || unit == 0x2D || unit == 0x2E || unit == 0x65

/-- A finite number, as the text that it prints as. -/
structure Number where
  text : Text
  ne : text ≠ []
  units : ∀ unit ∈ text, isNumberUnit unit = true
deriving DecidableEq

/-- A value of JSON, or an undefined one. -/
inductive Json
  | undefined
  | null
  | bool (value : Bool)
  | num (number : Number)
  | str (text : Text)
  | arr (items : List Json)
  | obj (members : List (Text × Json))

def Json.isString : Json → Bool
  | .str _ => true
  | _ => false

/-- A unit as its code. -/
def escapeCode (unit : UInt16) : Text := 0x5C :: 0x75 :: hexDigits false unit.toNat

def isHighSurrogate (unit : UInt16) : Bool := 0xD800 ≤ unit && unit < 0xDC00

def isLowSurrogate (unit : UInt16) : Bool := 0xDC00 ≤ unit && unit < 0xE000

def escapeUnit (unit : UInt16) : Text :=
  if unit = 0x22 then [0x5C, 0x22]
  else if unit = 0x5C then [0x5C, 0x5C]
  else if unit = 0x08 then [0x5C, 0x62]
  else if unit = 0x0C then [0x5C, 0x66]
  else if unit = 0x0A then [0x5C, 0x6E]
  else if unit = 0x0D then [0x5C, 0x72]
  else if unit = 0x09 then [0x5C, 0x74]
  else if unit < 0x20 ∨ isHighSurrogate unit ∨ isLowSurrogate unit then escapeCode unit
  else [unit]

/-- The text between the quotes. A surrogate stands for itself only in a pair. -/
def escape : Text → Text
  | high :: low :: text =>
    if isHighSurrogate high && isLowSurrogate low then high :: low :: escape text
    else escapeUnit high ++ escape (low :: text)
  | [unit] => escapeUnit unit
  | [] => []

def quote (text : Text) : Text := 0x22 :: escape text ++ [0x22]

def printScalar : Json → Text
  | .bool true => CodeUnits.units "true"
  | .bool false => CodeUnits.units "false"
  | .num number => number.text
  | .str text => quote text
  | _ => CodeUnits.units "null"

/-- Texts with a comma between them. -/
def commas : List Text → Text
  | [] => []
  | [text] => text
  | text :: texts => text ++ 0x2C :: commas texts

mutual

/-- The text of a value. Undefined is null in an array and left out of an object. -/
def print : Json → Text
  | .arr items => 0x5B :: commas (printItems items) ++ [0x5D]
  | .obj members => 0x7B :: commas (printMembers members) ++ [0x7D]
  | json => printScalar json

def printItems : List Json → List Text
  | [] => []
  | item :: items => print item :: printItems items

def printMembers : List (Text × Json) → List Text
  | [] => []
  | (_, .undefined) :: members => printMembers members
  | (key, value) :: members => (quote key ++ 0x3A :: print value) :: printMembers members

end

def stringify : Json → Option Text
  | .undefined => none
  | json => some (print json)

example : stringify (.obj [(CodeUnits.units "a", .arr [.undefined, .str [0x22, 0xD800]]),
      (CodeUnits.units "b", .undefined)]) =
    some (CodeUnits.units "\x7b\"a\":[null,\"\\\"\\ud800\"]\x7d") := by decide

end BaasConnector.Lib.JsonText
