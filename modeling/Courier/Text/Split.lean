/-
Cutting sequences at separators.
-/
namespace Courier

variable {α : Type}

/-- The pieces between separators; there is always one more piece than separators. -/
def splitAtEach [DecidableEq α] (separator : α) : List α → List (List α)
  | [] => [[]]
  | x :: rest =>
      if x = separator then [] :: splitAtEach separator rest
      else match splitAtEach separator rest with
        | [] => [[x]]
        | piece :: pieces => (x :: piece) :: pieces

/-- What stands before and after the first separator. -/
def splitAtFirst? [DecidableEq α] (separator : α) : List α → Option (List α × List α)
  | [] => none
  | x :: rest =>
      if x = separator then some ([], rest)
      else (splitAtFirst? separator rest).map fun (before, after) => (x :: before, after)

section cutting

variable [DecidableEq α] {separator : α} {piece : List α}

@[simp]
theorem splitAtFirst?_of_not_mem (h : separator ∉ piece) : splitAtFirst? separator piece = none := by
  induction piece with
  | nil => rfl
  | cons x rest ih =>
      have hx : x ≠ separator := (List.ne_of_not_mem_cons h).symm
      have hrest : separator ∉ rest := List.not_mem_of_not_mem_cons h
      rw [splitAtFirst?, if_neg hx, ih hrest, Option.map_none]

@[simp]
theorem splitAtFirst?_append (h : separator ∉ piece) (after : List α) :
    splitAtFirst? separator (piece ++ separator :: after) = some (piece, after) := by
  induction piece with
  | nil => exact if_pos rfl
  | cons x rest ih =>
      have hx : x ≠ separator := (List.ne_of_not_mem_cons h).symm
      have hrest : separator ∉ rest := List.not_mem_of_not_mem_cons h
      rw [List.cons_append, splitAtFirst?, if_neg hx, ih hrest, Option.map_some]

@[simp]
theorem splitAtEach_of_not_mem (h : separator ∉ piece) : splitAtEach separator piece = [piece] := by
  induction piece with
  | nil => rfl
  | cons x rest ih =>
      have hx : x ≠ separator := (List.ne_of_not_mem_cons h).symm
      have hrest : separator ∉ rest := List.not_mem_of_not_mem_cons h
      rw [splitAtEach, if_neg hx, ih hrest]

@[simp]
theorem splitAtEach_append (h : separator ∉ piece) (after : List α) :
    splitAtEach separator (piece ++ separator :: after) = piece :: splitAtEach separator after := by
  induction piece with
  | nil => exact if_pos rfl
  | cons x rest ih =>
      have hx : x ≠ separator := (List.ne_of_not_mem_cons h).symm
      have hrest : separator ∉ rest := List.not_mem_of_not_mem_cons h
      rw [List.cons_append, splitAtEach, if_neg hx, ih hrest]

/-- Pieces without separators that were joined at separators come apart where they were joined. -/
theorem splitAtEach_intercalate {pieces : List (List α)} (hsome : pieces ≠ [])
    (h : ∀ piece ∈ pieces, separator ∉ piece) :
    splitAtEach separator ([separator].intercalate pieces) = pieces := by
  induction pieces with
  | nil => exact absurd rfl hsome
  | cons first rest ih =>
      obtain ⟨hfirst, hrest⟩ := List.forall_mem_cons.1 h
      cases rest with
      | nil => rw [List.intercalate_singleton, splitAtEach_of_not_mem hfirst]
      | cons second more =>
          rw [List.intercalate_cons_cons, List.append_assoc, List.singleton_append,
            splitAtEach_append hfirst, ih (List.cons_ne_nil _ _) hrest]

end cutting

end Courier
