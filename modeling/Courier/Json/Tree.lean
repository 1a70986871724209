import Courier.Json.Numeral
import Courier.Text.Hex
import Courier.Text.Utf8
/-
JSON text as it arrives, before anything is made of it.  A tree keeps every member in order with its
repetitions, and keeps a string that cannot be text as such; what a reader skips is therefore held
to the grammar alone.
-/
namespace Courier

/-- JSON text with its structure made out. -/
inductive JsonTree where
  | null
  | bool (value : Bool)
  | number (numeral : JsonNumeral)
  | string (value : Option String)
  | array (items : List JsonTree)
  | object (members : List (Option String × JsonTree))
deriving Inhabited

namespace JsonTree

/-- A piece of a string: an octet, or a 16-bit unit written as `\u` and four digits. -/
inductive Piece where
  | octet (value : UInt8)
  | unit (value : Nat)

/-- The octets that the pieces spell; none when half of a surrogate pair stands alone. -/
def octetsOf? : List Piece → Option (List UInt8)
  | [] => some []
  | .octet b :: rest => (octetsOf? rest).map (b :: ·)
  | .unit high :: rest =>
      if 0xD800 ≤ high ∧ high ≤ 0xDBFF then
        match rest with
        | .unit low :: later =>
            if 0xDC00 ≤ low ∧ low ≤ 0xDFFF then
              let c := Char.ofNat (0x10000 + (high - 0xD800) * 1024 + (low - 0xDC00))
              (octetsOf? later).map (utf8Octets c.toString ++ ·)
            else none
        | _ => none
      else if 0xDC00 ≤ high ∧ high ≤ 0xDFFF then none
      else (octetsOf? rest).map (utf8Octets (Char.ofNat high).toString ++ ·)

def textOf? (pieces : List Piece) : Option String :=
  (octetsOf? pieces).bind decodeUtf8?

/-- Octets that may stand between tokens: space, tab, line feed and carriage return. -/
def isSpace (b : UInt8) : Bool :=
  b == 0x20 || b == 0x09 || b == 0x0A || b == 0x0D

def skipSpace (text : List UInt8) : List UInt8 :=
  text.dropWhile isSpace

/-- The octet that a backslash and a letter stand for. -/
def escaped? (b : UInt8) : Option UInt8 :=
  if b == 0x22 || b == 0x5C || b == 0x2F then some b
  else if b == 0x62 then some 0x08
  else if b == 0x66 then some 0x0C
  else if b == 0x6E then some 0x0A
  else if b == 0x72 then some 0x0D
  else if b == 0x74 then some 0x09
  else none

/-- Four hexadecimal digits. -/
def hexUnit? (a b c d : UInt8) : Option Nat :=
  readHex? ([a, b, c, d].map fun octet => Char.ofNat octet.toNat)

/-- The pieces of a string up to its closing quote, and what follows the quote. -/
def readPieces : List UInt8 → Option (List Piece × List UInt8)
  | [] => none
  | b :: rest =>
      if b == 0x22 then some ([], rest)
      else if b < 0x20 then none
      else if b == 0x5C then
        match rest with
        | [] => none
        | letter :: rest =>
            if letter == 0x75 then
              match rest with
              | a :: b :: c :: d :: later => do
                  let value ← hexUnit? a b c d
                  let (pieces, left) ← readPieces later
                  return (.unit value :: pieces, left)
              | _ => none
            else do
              let value ← escaped? letter
              let (pieces, left) ← readPieces rest
              return (.octet value :: pieces, left)
      else do
        let (pieces, left) ← readPieces rest
        return (.octet b :: pieces, left)

def isDigitOctet (b : UInt8) : Bool :=
  0x30 ≤ b && b ≤ 0x39

/-- The digits in front, and what follows them. -/
def spanDigits (text : List UInt8) : List Nat × List UInt8 :=
  ((text.takeWhile isDigitOctet).map fun b => b.toNat - 0x30, text.dropWhile isDigitOctet)

/-- The part of a number before its fraction: a zero alone, or digits that do not start with one. -/
def readWhole (text : List UInt8) : Option (List Nat × List UInt8) :=
  match spanDigits text with
  | ([], _) => none
  | (first :: more, rest) =>
      if first = 0 ∧ more ≠ [] then none else some (first :: more, rest)

def readFraction : List UInt8 → Option (List Nat × List UInt8)
  | b :: rest =>
      if b == 0x2E then
        match spanDigits rest with
        | ([], _) => none
        | found => some found
      else some ([], b :: rest)
  | [] => some ([], [])

/-- The exponent of a number, when the letter for it follows. -/
def readExponent : List UInt8 → Option (Option Int × List UInt8)
  | b :: rest =>
      if b == 0x65 || b == 0x45 then
        let (negative, digits) := match rest with
          | sign :: more =>
              if sign == 0x2D then (true, more) else if sign == 0x2B then (false, more)
              else (false, sign :: more)
          | [] => (false, [])
        match spanDigits digits with
        | ([], _) => none
        | (found, rest) =>
            let value : Int := digitsValue found
            some (some (if negative then -value else value), rest)
      else some (none, b :: rest)
  | [] => some (none, [])

/-- A number, its sign having been read. -/
def readNumber (negative : Bool) (text : List UInt8) : Option (JsonNumeral × List UInt8) := do
  let (whole, rest) ← readWhole text
  let (fraction, rest) ← readFraction rest
  let (exponent, rest) ← readExponent rest
  return (⟨negative, whole, fraction, exponent⟩, rest)

/-- What follows a word, when the text starts with it. -/
def afterWord (word : String) (text : List UInt8) : Option (List UInt8) :=
  let octets := utf8Octets word
  if octets.isPrefixOf text then some (text.drop octets.length) else none

mutual

/-- One value.  Each step takes at least one octet, so the number of octets is fuel enough. -/
def readValue : Nat → List UInt8 → Option (JsonTree × List UInt8)
  | 0, _ => none
  | fuel + 1, text =>
      match skipSpace text with
      | [] => none
      | b :: rest =>
          if b == 0x22 then
            (readPieces rest).map fun (pieces, left) => (.string (textOf? pieces), left)
          else if b == 0x5B then
            match skipSpace rest with
            | [] => none
            | next :: later =>
                if next == 0x5D then some (.array [], later)
                else (readItems fuel (next :: later)).map fun (items, left) => (.array items, left)
          else if b == 0x7B then
            match skipSpace rest with
            | [] => none
            | next :: later =>
                if next == 0x7D then some (.object [], later)
                else (readMembers fuel (next :: later)).map fun (members, left) =>
                  (.object members, left)
          else if b == 0x74 then (afterWord "true" (b :: rest)).map (.bool true, ·)
          else if b == 0x66 then (afterWord "false" (b :: rest)).map (.bool false, ·)
          else if b == 0x6E then (afterWord "null" (b :: rest)).map (.null, ·)
          else if b == 0x2D then (readNumber true rest).map fun (n, left) => (.number n, left)
          else if isDigitOctet b then
            (readNumber false (b :: rest)).map fun (n, left) => (.number n, left)
          else none

/-- The items of an array from one item on, up to the closing bracket. -/
def readItems : Nat → List UInt8 → Option (List JsonTree × List UInt8)
  | 0, _ => none
  | fuel + 1, text =>
      match readValue fuel text with
      | none => none
      | some (item, rest) =>
          match skipSpace rest with
          | [] => none
          | b :: later =>
              if b == 0x5D then some ([item], later)
              else if b == 0x2C then
                (readItems fuel later).map fun (items, left) => (item :: items, left)
              else none

/-- The members of an object from one member on, up to the closing brace. -/
def readMembers : Nat → List UInt8 → Option (List (Option String × JsonTree) × List UInt8)
  | 0, _ => none
  | fuel + 1, text =>
      match skipSpace text with
      | [] => none
      | quote :: rest =>
          if quote == 0x22 then
            match readPieces rest with
            | none => none
            | some (pieces, rest) =>
                match skipSpace rest with
                | [] => none
                | colon :: rest =>
                    if colon == 0x3A then
                      match readValue fuel rest with
                      | none => none
                      | some (value, rest) =>
                          match skipSpace rest with
                          | [] => none
                          | b :: later =>
                              if b == 0x7D then some ([(textOf? pieces, value)], later)
                              else if b == 0x2C then
                                (readMembers fuel later).map fun (members, left) =>
                                  ((textOf? pieces, value) :: members, left)
                              else none
                    else none
          else none

end

/-- The tree of a whole text: one value with nothing but space around it. -/
def read? (text : List UInt8) : Option JsonTree :=
  match readValue (2 * text.length + 2) text with
  | some (tree, rest) => if (skipSpace rest).isEmpty then some tree else none
  | none => none

mutual

/-- The value of a tree with at most `depth` levels of arrays and objects.  Strings have to be
text and numbers have to be within the doubles; of repeated members the last one counts. -/
def value? : Nat → JsonTree → Option Json
  | _, .null => some .null
  | _, .bool b => some (.bool b)
  | _, .number numeral => numeral.value?
  | _, .string text => text.map .str
  | 0, .array _ => none
  | depth + 1, .array items => (values? depth items).map .arr
  | 0, .object _ => none
  | depth + 1, .object members => (memberValues? depth members []).map .obj

def values? : Nat → List JsonTree → Option (List Json)
  | _, [] => some []
  | depth, item :: rest =>
      match value? depth item with
      | none => none
      | some value => (values? depth rest).map (value :: ·)

def memberValues? : Nat → List (Option String × JsonTree) → List (String × Json) →
    Option (List (String × Json))
  | _, [], found => some found
  | depth, (key, member) :: rest, found =>
      match key, value? depth member with
      | some key, some value => memberValues? depth rest (insertEntry key value found)
      | _, _ => none

end

/-- The levels of nesting that a text may have. -/
def deepest : Nat := 127

end JsonTree

/-- The value that a text spells. -/
def Json.read? (text : List UInt8) : Option Json :=
  (JsonTree.read? text).bind (JsonTree.value? JsonTree.deepest)

end Courier
