/-
Hexadecimal digits.
-/
namespace Courier

/-- The value of a hexadecimal digit of either case. -/
def hexValue? (c : Char) : Option Nat :=
  if '0' ≤ c ∧ c ≤ '9' then some (c.toNat - '0'.toNat)
  else if 'a' ≤ c ∧ c ≤ 'f' then some (c.toNat - 'a'.toNat + 10)
  else if 'A' ≤ c ∧ c ≤ 'F' then some (c.toNat - 'A'.toNat + 10)
  else none

/-- The lower-case hexadecimal digit of a number below 16. -/
def hexDigit (n : Nat) : Char :=
  if n < 10 then Char.ofNat ('0'.toNat + n) else Char.ofNat ('a'.toNat + (n - 10))

/-- A number in exactly `width` lower-case hexadecimal digits, its lowest ones. -/
def hexDigits : Nat → Nat → List Char
  | 0, _ => []
  | width + 1, n => hexDigits width (n / 16) ++ [hexDigit (n % 16)]

/-- Continue a hexadecimal number with more digits. -/
def readHexFrom : Nat → List Char → Option Nat
  | value, [] => some value
  | value, c :: rest => (hexValue? c).bind fun d => readHexFrom (value * 16 + d) rest

/-- The number that hexadecimal digits spell. -/
def readHex? (digits : List Char) : Option Nat :=
  readHexFrom 0 digits

/-- The octets that pairs of hexadecimal digits spell. -/
def readOctets? : List Char → Option (List UInt8)
  | [] => some []
  | [_] => none
  | high :: low :: rest => do
      let value ← readHex? [high, low]
      let octets ← readOctets? rest
      return UInt8.ofNat value :: octets

end Courier
