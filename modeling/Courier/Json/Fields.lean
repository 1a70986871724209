import Courier.Json.Value
/-
Records in JSON.  A record is an object with the record's fields, other members being ignored, or a
list of its fields in order; fields at the end that have a default may be left out of the list.
-/
namespace Courier

/-- The values of a record's fields in order.  `needed` counts the leading fields that a list must
have. -/
def Json.record? (fields : List String) (needed : Nat) : Json → Option (List (Option Json))
  | .obj members => some (fields.map fun field => findEntry? field members)
  | .arr items =>
      if needed ≤ items.length ∧ items.length ≤ fields.length then
        some (items.map some ++ List.replicate (fields.length - items.length) none)
      else none
  | _ => none

/-- A field that has to be there. -/
def neededField? {α : Type} (decode : Json → Option α) : Option Json → Option α
  | some value => decode value
  | none => none

/-- A field that may be missing or null. -/
def optionalField? {α : Type} (decode : Json → Option α) : Option Json → Option (Option α)
  | none => some none
  | some .null => some none
  | some value => (decode value).map some

/-- A name out of a list: a string, or an object whose one member has the name as its key and null
as its value. -/
def Json.name? : Json → Option String
  | .str name => some name
  | .obj [(name, .null)] => some name
  | _ => none

end Courier
