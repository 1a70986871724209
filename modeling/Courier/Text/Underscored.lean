import Courier.Text.Letter
/-
Names in underscored form: `OrderPlacedV1` becomes `order_placed_v1`, `HTTPRequestSeen` becomes
`http_request_seen`.
-/
namespace Courier

/-- Whether an upper-case letter opens a new word, judged by its two neighbours: after a lower-case
letter or a digit it does; inside a run of capitals only the last one before a lower-case letter
does; at the start of the name and after an underscore it does not. -/
def opensWord : Option Char → Option Char → Bool
  | none, _ => false
  | some before, after =>
      if before = '_' then false
      else if isLower before || isDigit before then true
      else isUpper before && after.any isLower

/-- The underscored form of the rest of a name, given the character before it. -/
def underscoredFrom : Option Char → List Char → List Char
  | _, [] => []
  | before, c :: rest =>
      if isUpper c then
        (if opensWord before rest.head? then ['_'] else []) ++ lowered c ++
          underscoredFrom (some c) rest
      else c :: underscoredFrom (some c) rest

section

variable {c : Char} (before : Option Char) (rest : List Char)

@[simp]
theorem underscoredFrom_cons_of_isUpper (h : isUpper c = true) :
    underscoredFrom before (c :: rest) =
      (if opensWord before rest.head? then ['_'] else []) ++ lowered c ++
        underscoredFrom (some c) rest :=
  if_pos h

@[simp]
theorem underscoredFrom_cons_of_not_isUpper (h : isUpper c = false) :
    underscoredFrom before (c :: rest) = c :: underscoredFrom (some c) rest :=
  if_neg (ne_true_of_eq_false h)

end

def underscored (name : String) : String :=
  String.ofList (underscoredFrom none name.toList)

end Courier
