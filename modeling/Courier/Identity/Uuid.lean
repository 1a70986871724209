import Courier.Text.Hex
/-
UUIDs: 128 bits, written as 32 hexadecimal digits in groups of 8, 4, 4, 4 and 12.
-/
namespace Courier

structure Uuid where
  bits : BitVec 128
deriving DecidableEq, Repr

namespace Uuid

/-- UUIDs are ordered by their octets, first one first. -/
instance : LE Uuid := ⟨fun a b => a.bits.toNat ≤ b.bits.toNat⟩

instance : LT Uuid := ⟨fun a b => a.bits.toNat < b.bits.toNat⟩

instance (a b : Uuid) : Decidable (a ≤ b) := inferInstanceAs (Decidable (a.bits.toNat ≤ b.bits.toNat))

instance (a b : Uuid) : Decidable (a < b) := inferInstanceAs (Decidable (a.bits.toNat < b.bits.toNat))

def nil : Uuid := ⟨0⟩

def isNil (u : Uuid) : Bool :=
  u == nil

def ofNat (value : Nat) : Uuid :=
  ⟨BitVec.ofNat 128 value⟩

/-- The hyphenated form in lower case. -/
def text (u : Uuid) : String :=
  let digits := hexDigits 32 u.bits.toNat
  String.ofList (digits.take 8 ++ '-' :: (digits.drop 8).take 4 ++ '-' :: (digits.drop 12).take 4 ++
    '-' :: (digits.drop 16).take 4 ++ '-' :: digits.drop 20)

/-- The UUID that 32 hexadecimal digits spell. -/
def ofDigits? (digits : List Char) : Option Uuid :=
  if digits.length = 32 then (readHex? digits).map ofNat else none

/-- The hyphenated form: 36 characters with hyphens in four places and digits elsewhere. -/
def ofHyphenated? (text : List Char) : Option Uuid :=
  if text.length = 36 ∧ text[8]? = some '-' ∧ text[13]? = some '-' ∧ text[18]? = some '-' ∧
      text[23]? = some '-' then
    ofDigits? (text.take 8 ++ (text.drop 9).take 4 ++ (text.drop 14).take 4 ++
      (text.drop 19).take 4 ++ text.drop 24)
  else none

/-- Read 32 digits, or the hyphenated form, alone, in braces, or after `urn:uuid:` in any case. -/
def read? (text : String) : Option Uuid :=
  let chars := text.toList
  let urn := "urn:uuid:".toList
  if chars.length = 32 then ofDigits? chars
  else if chars.length = 38 ∧ chars.head? = some '\x7b' ∧ chars.getLast? = some '\x7d' then
    ofHyphenated? ((chars.drop 1).take 36)
  else if chars.length = 45 ∧ (chars.take 9).map Char.toLower = urn then ofHyphenated? (chars.drop 9)
  else ofHyphenated? chars

end Uuid

end Courier
