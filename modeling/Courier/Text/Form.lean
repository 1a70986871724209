import Courier.Text.Hex
import Courier.Text.Split
import Courier.Text.Utf8
/-
Percent-encoded text and the fields of a query string.
-/
namespace Courier

/-- Put the octet that `%XX` names in place of each such triple; a percent sign that two
hexadecimal digits do not follow stands for itself. -/
def percentDecode : List UInt8 → List UInt8
  | [] => []
  | b :: rest =>
      if b == 0x25 then
        match rest with
        | high :: low :: later =>
            match readHex? [Char.ofNat high.toNat, Char.ofNat low.toNat] with
            | some value => UInt8.ofNat value :: percentDecode later
            | none => b :: percentDecode (high :: low :: later)
        | short => b :: short
      else b :: percentDecode rest

/-- A path segment, decoded; none when it does not spell UTF-8. -/
def decodeSegment? (segment : String) : Option String :=
  decodeUtf8? (percentDecode (utf8Octets segment))

/-- A field's name or value, decoded: a plus sign is a space. -/
def decodeField (text : List UInt8) : String :=
  decodeUtf8Leniently (percentDecode (text.map fun b => if b == 0x2B then 0x20 else b))

/-- The name and value of one field; without an equals sign the value is empty. -/
def formField (piece : List UInt8) : String × String :=
  match splitAtFirst? 0x3D piece with
  | some (name, value) => (decodeField name, decodeField value)
  | none => (decodeField piece, "")

/-- The fields of a query string in order.  Empty pieces between ampersands are skipped. -/
def formFields (query : String) : List (String × String) :=
  ((splitAtEach 0x26 (utf8Octets query)).filter (!·.isEmpty)).map formField

end Courier
