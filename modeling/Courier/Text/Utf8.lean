/-
Octets and text.  The strict reading refuses a sequence that is not UTF-8; the lenient one puts
U+FFFD in place of each longest piece that cannot be continued.
-/
namespace Courier

/-- An octet that continues a character. -/
def isTail (b : UInt8) : Bool :=
  0x80 ≤ b && b ≤ 0xBF

/-- The six bits that a continuing octet carries. -/
def tailBits (b : UInt8) : Nat :=
  b.toNat - 0x80

/-- The second octets that may follow a leading octet: the bounds keep out overlong forms,
surrogates and everything above U+10FFFF. -/
def secondBounds (lead : UInt8) : UInt8 × UInt8 :=
  if lead == 0xE0 then (0xA0, 0xBF)
  else if lead == 0xED then (0x80, 0x9F)
  else if lead == 0xF0 then (0x90, 0xBF)
  else if lead == 0xF4 then (0x80, 0x8F)
  else (0x80, 0xBF)

/-- How many octets follow a leading octet, when it is one. -/
def tailCount? (lead : UInt8) : Option Nat :=
  if lead < 0x80 then some 0
  else if 0xC2 ≤ lead && lead ≤ 0xDF then some 1
  else if 0xE0 ≤ lead && lead ≤ 0xEF then some 2
  else if 0xF0 ≤ lead && lead ≤ 0xF4 then some 3
  else none

/-- The tail octets at the front, as many as wanted, together with their number. -/
def takeTails : Nat → Nat → List UInt8 → Nat × Nat
  | 0, value, _ => (value, 0)
  | _ + 1, value, [] => (value, 0)
  | wanted + 1, value, b :: rest =>
      if isTail b then
        let (value, found) := takeTails wanted (value * 64 + tailBits b) rest
        (value, found + 1)
      else (value, 0)

/-- The character at the front of a sequence that starts with `lead`, and the number of further
octets it took; or no character, and the number of octets that belong to the broken piece. -/
def frontChar (lead : UInt8) (rest : List UInt8) : Option Char × Nat :=
  match tailCount? lead with
  | none => (none, 0)
  | some 0 => (some (Char.ofNat lead.toNat), 0)
  | some count =>
      match rest with
      | [] => (none, 0)
      | second :: later =>
          let (low, high) := secondBounds lead
          if low ≤ second && second ≤ high then
            let leadBits := lead.toNat % Nat.pow 2 (6 - count)
            let (value, found) := takeTails (count - 1) (leadBits * 64 + tailBits second) later
            if found + 1 = count then (some (Char.ofNat value), count) else (none, found + 1)
          else (none, 0)

/-- The text of a sequence of octets, character by character; `fuel` bounds their number. -/
def decodeUtf8From (onFault : Option Char) : Nat → List UInt8 → Option (List Char)
  | 0, _ => some []
  | _ + 1, [] => some []
  | fuel + 1, lead :: rest =>
      match frontChar lead rest with
      | (some c, taken) => (decodeUtf8From onFault fuel (rest.drop taken)).map (c :: ·)
      | (none, taken) =>
          match onFault with
          | none => none
          | some c => (decodeUtf8From onFault fuel (rest.drop taken)).map (c :: ·)

/-- The text that the octets spell, when they are UTF-8. -/
def decodeUtf8? (octets : List UInt8) : Option String :=
  (decodeUtf8From none octets.length octets).map String.ofList

/-- The text that the octets spell, with U+FFFD for what is not UTF-8. -/
def decodeUtf8Leniently (octets : List UInt8) : String :=
  match decodeUtf8From (some (Char.ofNat 0xFFFD)) octets.length octets with
  | some text => String.ofList text
  | none => ""

def utf8Octets (text : String) : List UInt8 :=
  text.toUTF8.toList

end Courier
