import Courier.Table
/-
JSON values.  A number is an integer when it is written without fraction and exponent and fits 64
bits; every other number keeps its decimal digits and exponent.
-/
namespace Courier

/-- A number that is not a 64-bit integer: `digits * 10 ^ exponent`, perhaps negative. -/
structure Decimal where
  negative : Bool
  digits : Nat
  exponent : Int
deriving DecidableEq, Repr

inductive Json where
  | null
  | bool (value : Bool)
  | int (value : Int)
  | real (value : Decimal)
  | str (value : String)
  | arr (items : List Json)
  | obj (members : List (String × Json))
deriving Repr, Inhabited

namespace Json

mutual

/-- Whether two values are the same, member by member. -/
def same : Json → Json → Bool
  | .null, .null => true
  | .bool a, .bool b => a == b
  | .int a, .int b => a == b
  | .real a, .real b => a == b
  | .str a, .str b => a == b
  | .arr a, .arr b => sameItems a b
  | .obj a, .obj b => sameMembers a b
  | _, _ => false

def sameItems : List Json → List Json → Bool
  | [], [] => true
  | a :: as, b :: bs => same a b && sameItems as bs
  | _, _ => false

def sameMembers : List (String × Json) → List (String × Json) → Bool
  | [], [] => true
  | (k, a) :: as, (l, b) :: bs => k == l && same a b && sameMembers as bs
  | _, _ => false

end

mutual

theorem same_iff : ∀ a b : Json, same a b = true ↔ a = b
  | .null, b => by cases b <;> simp [same]
  | .bool _, b => by cases b <;> simp [same]
  | .int _, b => by cases b <;> simp [same]
  | .real _, b => by cases b <;> simp [same]
  | .str _, b => by cases b <;> simp [same]
  | .arr items, b => by cases b <;> simp [same, sameItems_iff items]
  | .obj members, b => by cases b <;> simp [same, sameMembers_iff members]

theorem sameItems_iff : ∀ a b : List Json, sameItems a b = true ↔ a = b
  | [], b => by cases b <;> simp [sameItems]
  | a :: as, b => by cases b <;> simp [sameItems, same_iff a, sameItems_iff as]

theorem sameMembers_iff : ∀ a b : List (String × Json), sameMembers a b = true ↔ a = b
  | [], b => by cases b <;> simp [sameMembers]
  | (k, a) :: as, b => by
      cases b with
      | nil => simp [sameMembers]
      | cons m ms =>
          obtain ⟨l, b⟩ := m
          simp [sameMembers, same_iff a, sameMembers_iff as, and_assoc]

end

instance : DecidableEq Json := fun a b => decidable_of_iff _ (same_iff a b)

def get? (key : String) : Json → Option Json
  | .obj members => findEntry? key members
  | _ => none

def string? : Json → Option String
  | .str value => some value
  | _ => none

def bool? : Json → Option Bool
  | .bool value => some value
  | _ => none

/-- An integer from 0 to `limit`. -/
def natural? (limit : Nat) : Json → Option Nat
  | .int value => if 0 ≤ value ∧ value ≤ limit then some value.toNat else none
  | _ => none

/-- An integer of 64 bits with a sign. -/
def integer? : Json → Option Int
  | .int value =>
      if -9223372036854775808 ≤ value ∧ value ≤ 9223372036854775807 then some value else none
  | _ => none

def uint64? (value : Json) : Option UInt64 :=
  (value.natural? 18446744073709551615).map UInt64.ofNat

def uint32? (value : Json) : Option UInt32 :=
  (value.natural? 4294967295).map UInt32.ofNat

def int64? (value : Json) : Option Int64 :=
  value.integer?.map Int64.ofInt

/-- A text, or null for its absence. -/
def ofText? : Option String → Json
  | some text => .str text
  | none => .null

def ofNat (n : Nat) : Json :=
  .int n

end Json

end Courier
