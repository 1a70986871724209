/-
Tables: finite maps from names to values, kept in the order of the names.
-/
namespace Courier

variable {α : Type}

/-- Put an entry into a list that is in the order of the names; an entry of the same name is
replaced. -/
def insertEntry (name : String) (value : α) : List (String × α) → List (String × α)
  | [] => [(name, value)]
  | (k, v) :: rest =>
      if name < k then (name, value) :: (k, v) :: rest
      else if k = name then (name, value) :: rest
      else (k, v) :: insertEntry name value rest

def findEntry? (name : String) : List (String × α) → Option α
  | [] => none
  | (k, v) :: rest => if k = name then some v else findEntry? name rest

/-- In strictly ascending order of the names. -/
def NamesAscend (entries : List (String × α)) : Prop :=
  entries.Pairwise fun a b => a.1 < b.1

theorem mem_insertEntry {name : String} {value : α} {entries : List (String × α)}
    {entry : String × α} (h : entry ∈ insertEntry name value entries) :
    entry = (name, value) ∨ entry ∈ entries := by
  induction entries with
  | nil => exact Or.inl (by simpa [insertEntry] using h)
  | cons head rest ih =>
      obtain ⟨k, v⟩ := head
      simp only [insertEntry] at h
      split at h
      · rcases List.mem_cons.1 h with h | h
        · exact Or.inl h
        · exact Or.inr h
      · split at h
        · rcases List.mem_cons.1 h with h | h
          · exact Or.inl h
          · exact Or.inr (List.mem_cons_of_mem _ h)
        · rcases List.mem_cons.1 h with h | h
          · exact Or.inr (h ▸ List.mem_cons_self)
          · rcases ih h with h | h
            · exact Or.inl h
            · exact Or.inr (List.mem_cons_of_mem _ h)

theorem NamesAscend.insert {entries : List (String × α)} (h : NamesAscend entries)
    (name : String) (value : α) : NamesAscend (insertEntry name value entries) := by
  induction entries with
  | nil => simp [insertEntry, NamesAscend]
  | cons head rest ih =>
      obtain ⟨k, v⟩ := head
      obtain ⟨hhead, hrest⟩ := List.pairwise_cons.1 h
      simp only [insertEntry]
      split
      · rename_i hlt
        refine List.pairwise_cons.2 ⟨fun entry hentry => ?_, h⟩
        rcases List.mem_cons.1 hentry with rfl | hentry
        · exact hlt
        · exact String.lt_trans hlt (hhead entry hentry)
      · split
        · rename_i hlt heq
          subst heq
          exact List.pairwise_cons.2 ⟨fun entry hentry => hhead entry hentry, hrest⟩
        · rename_i hlt hne
          refine List.pairwise_cons.2 ⟨fun entry hentry => ?_, ih hrest⟩
          rcases mem_insertEntry hentry with rfl | hentry
          · exact Std.lt_of_le_of_ne (Std.not_lt.1 hlt) hne
          · exact hhead entry hentry

@[simp]
theorem findEntry?_insertEntry (name : String) (value : α) (entries : List (String × α)) :
    findEntry? name (insertEntry name value entries) = some value := by
  induction entries with
  | nil => exact if_pos rfl
  | cons head rest ih =>
      obtain ⟨k, v⟩ := head
      simp only [insertEntry]
      split
      · exact if_pos rfl
      · split
        · exact if_pos rfl
        · rename_i hne
          exact (if_neg hne).trans ih

@[simp]
theorem findEntry?_insertEntry_of_ne {name other : String} (h : other ≠ name) (value : α)
    (entries : List (String × α)) :
    findEntry? other (insertEntry name value entries) = findEntry? other entries := by
  induction entries with
  | nil => exact if_neg h.symm
  | cons head rest ih =>
      obtain ⟨k, v⟩ := head
      simp only [insertEntry]
      split
      · exact if_neg h.symm
      · split
        · rename_i heq
          exact (if_neg h.symm).trans (if_neg (heq ▸ h.symm)).symm
        · simp only [ih, findEntry?]

/-- A finite map from names to values. -/
structure Table (α : Type) where
  entries : List (String × α)
  ascending : NamesAscend entries

namespace Table

def empty : Table α :=
  ⟨[], List.Pairwise.nil⟩

def insert (table : Table α) (name : String) (value : α) : Table α :=
  ⟨insertEntry name value table.entries, table.ascending.insert name value⟩

def get? (table : Table α) (name : String) : Option α :=
  findEntry? name table.entries

def contains (table : Table α) (name : String) : Bool :=
  (table.get? name).isSome

def erase (table : Table α) (name : String) : Table α :=
  ⟨table.entries.filter (·.1 != name), table.ascending.filter _⟩

@[simp]
theorem get?_insert_self (table : Table α) (name : String) (value : α) :
    (table.insert name value).get? name = some value :=
  findEntry?_insertEntry name value table.entries

@[simp]
theorem get?_insert_of_ne (table : Table α) {name other : String} (h : other ≠ name) (value : α) :
    (table.insert name value).get? other = table.get? other :=
  findEntry?_insertEntry_of_ne h value table.entries

def names (table : Table α) : List String :=
  table.entries.map (·.1)

/-- The table of a list of entries; of entries with one name the last one counts. -/
def ofList (entries : List (String × α)) : Table α :=
  entries.foldl (fun table entry => table.insert entry.1 entry.2) empty

instance [DecidableEq α] : DecidableEq (Table α) := fun a b =>
  decidable_of_iff (a.entries = b.entries) (by cases a; cases b; simp)

instance [Repr α] : Repr (Table α) := ⟨fun table => reprPrec table.entries⟩

instance : Inhabited (Table α) := ⟨empty⟩

end Table

end Courier
