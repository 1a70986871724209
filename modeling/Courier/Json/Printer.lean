import Courier.Json.Value
import Courier.Text.Hex
/-
JSON values as text, on one line.
-/
namespace Courier

namespace Json

/-- Characters written as `\u` and four digits: controls, and the three that some readers take for
the end of a line. -/
def needsUnit (c : Char) : Bool :=
  c.toNat < 0x20 || c.toNat == 0x85 || c.toNat == 0x2028 || c.toNat == 0x2029

/-- One character of a string, as it is written between quotes. -/
def charText (c : Char) : List Char :=
  if c = '"' then ['\\', '"']
  else if c = '\\' then ['\\', '\\']
  else if needsUnit c then '\\' :: 'u' :: hexDigits 4 c.toNat
  else [c]

def quoted (text : String) : String :=
  String.ofList ('"' :: text.toList.flatMap charText ++ ['"'])

def decimalText (n : Decimal) : String :=
  (if n.negative then "-" else "") ++ toString n.digits ++ "e" ++ toString n.exponent

mutual

def text : Json → String
  | .null => "null"
  | .bool b => if b then "true" else "false"
  | .int n => toString n
  | .real n => decimalText n
  | .str s => quoted s
  | .arr items => "[" ++ ",".intercalate (itemTexts items) ++ "]"
  | .obj members => "\x7b" ++ ",".intercalate (memberTexts members) ++ "\x7d"

def itemTexts : List Json → List String
  | [] => []
  | item :: rest => text item :: itemTexts rest

def memberTexts : List (String × Json) → List String
  | [] => []
  | (key, value) :: rest => (quoted key ++ ":" ++ text value) :: memberTexts rest

end

end Json

end Courier
