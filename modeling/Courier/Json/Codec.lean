import Courier.Json.Fields
import Courier.Table
/-
The JSON forms of values, chosen by their type.
-/
namespace Courier

/-- Values that have a JSON form. -/
class ToJson (α : Type) where
  toJson : α → Json

/-- Values that can be read from JSON. -/
class OfJson (α : Type) where
  ofJson? : Json → Option α

export ToJson (toJson)
export OfJson (ofJson?)

instance : ToJson Json := ⟨id⟩

instance : ToJson Bool := ⟨.bool⟩

instance : ToJson String := ⟨.str⟩

instance : ToJson Nat := ⟨.ofNat⟩

instance : ToJson Int := ⟨.int⟩

instance : ToJson Int64 := ⟨fun n => .int n.toInt⟩

instance : ToJson UInt32 := ⟨fun n => .ofNat n.toNat⟩

instance : ToJson Unit := ⟨fun _ => .null⟩

/-- Absence is null. -/
instance {α : Type} [ToJson α] : ToJson (Option α) where
  toJson
    | some value => toJson value
    | none => .null

instance {α : Type} [ToJson α] : ToJson (List α) := ⟨fun values => .arr (values.map toJson)⟩

instance {α : Type} [ToJson α] : ToJson (Table α) where
  toJson table := .obj (table.entries.map fun (name, value) => (name, toJson value))

instance : OfJson Json := ⟨some⟩

instance : OfJson Bool := ⟨Json.bool?⟩

instance : OfJson String := ⟨Json.string?⟩

/-- A number that 64 bits hold. -/
instance : OfJson Nat := ⟨fun value => value.uint64?.map UInt64.toNat⟩

instance : OfJson Int := ⟨Json.integer?⟩

instance : OfJson Int64 := ⟨Json.int64?⟩

instance : OfJson UInt32 := ⟨Json.uint32?⟩

/-- Null is absence. -/
instance {α : Type} [OfJson α] : OfJson (Option α) where
  ofJson?
    | .null => some none
    | value => (ofJson? value).map some

instance {α : Type} [OfJson α] : OfJson (List α) where
  ofJson?
    | .arr items => items.mapM ofJson?
    | _ => none

instance {α : Type} [OfJson α] : OfJson (Table α) where
  ofJson?
    | .obj members =>
        (members.mapM fun (member : String × Json) =>
          (ofJson? member.2).map (member.1, ·)).map Table.ofList
    | _ => none

namespace Json

variable {α : Type} [OfJson α]

/-- The value of a field; a missing one reads as null. -/
def field? (value : Json) (name : String) : Option α :=
  ofJson? ((value.get? name).getD .null)

/-- The value of a field, or another value when the field is missing. -/
def fieldOr? (value : Json) (name : String) (standard : α) : Option α :=
  match value.get? name with
  | some found => ofJson? found
  | none => some standard

end Json

end Courier
