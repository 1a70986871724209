import Courier.Json.Value
/-
Numbers in JSON text.  An integer that 64 bits hold is kept exactly.  Any other number has to lie
within the doubles, which is judged by its leading digits, as many as 64 bits hold, and a power of
ten, each rounded to a double before the two are multiplied.
-/
namespace Courier

/-- A number as it is written: its digits before and after the point, and its exponent. -/
structure JsonNumeral where
  negative : Bool
  whole : List Nat
  fraction : List Nat
  exponent : Option Int
deriving DecidableEq, Repr

def digitsValue (digits : List Nat) : Nat :=
  digits.foldl (fun value d => value * 10 + d) 0

/-- The greatest integer of 64 bits. -/
def greatestWord : Nat := 18446744073709551615

/-- Take digits up while 64 bits hold the number.  Answers the number and the digits left. -/
def takeUp : Nat → List Nat → Nat × List Nat
  | value, [] => (value, [])
  | value, d :: rest =>
      if value * 10 + d ≤ greatestWord then takeUp (value * 10 + d) rest else (value, d :: rest)

/-- The double nearest to a whole number: 53 leading bits, and of two equally near the even one. -/
def nearestDouble (n : Nat) : Nat :=
  let unit := Nat.pow 2 (Nat.log2 n + 1 - 53)
  let steps := n / unit
  let rest := n % unit
  if 2 * rest < unit ∨ (2 * rest = unit ∧ steps % 2 = 0) then steps * unit
  else (steps + 1) * unit

/-- The least whole number that is rounded past the greatest double. -/
def beyondDoubles : Nat := Nat.pow 2 1024 - Nat.pow 2 970

namespace JsonNumeral

/-- The leading digits as a number, and the power of ten that goes with it. -/
def leading (numeral : JsonNumeral) : Nat × Int :=
  let (value, wholeLeft) := takeUp 0 numeral.whole
  let (value, fractionLeft) := takeUp value numeral.fraction
  (value, numeral.exponent.getD 0 + wholeLeft.length - numeral.fraction.length + fractionLeft.length)

/-- The number lies within the doubles. -/
def isWithinDoubles (numeral : JsonNumeral) : Bool :=
  let (value, scale) := numeral.leading
  value == 0 || scale < 0 ||
    (scale ≤ 308 && nearestDouble value * nearestDouble (Nat.pow 10 scale.toNat) < beyondDoubles)

/-- The integer of 64 bits, with or without a sign, that the numeral is.  Minus zero is none. -/
def integer? (numeral : JsonNumeral) : Option Int :=
  let value := digitsValue numeral.whole
  if numeral.fraction ≠ [] ∨ numeral.exponent.isSome then none
  else if numeral.negative then
    if 0 < value ∧ value ≤ 9223372036854775808 then some (-(value : Int)) else none
  else if value ≤ greatestWord then some value
  else none

/-- The value of a numeral. -/
def value? (numeral : JsonNumeral) : Option Json :=
  match numeral.integer? with
  | some value => some (.int value)
  | none =>
      if numeral.isWithinDoubles then
        some (.real ⟨numeral.negative, digitsValue (numeral.whole ++ numeral.fraction),
          numeral.exponent.getD 0 - numeral.fraction.length⟩)
      else none

end JsonNumeral

end Courier
