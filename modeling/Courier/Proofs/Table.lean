import Courier.Table
import Mathlib.Data.List.Induction
import Mathlib.Data.List.Nodup
import Mathlib.Data.List.Perm.Basic
/-
Tables and their entries.  A name is found just when there is an entry of it, and a table is told by what
is found in it.  Of entries of one name the last one counts; without such entries their order does not.
-/
namespace Courier

variable {α : Type} {name other : String} {value : α}

theorem mem_of_found {entries : List (String × α)} (h : findEntry? name entries = some value) :
    (name, value) ∈ entries := by
  induction entries with
  | nil => cases h
  | cons head rest ih =>
      obtain ⟨k, v⟩ := head
      unfold findEntry? at h
      by_cases hk : k = name
      · rw [if_pos hk] at h
        rw [hk, Option.some.inj h]
        exact List.mem_cons_self
      · rw [if_neg hk] at h
        exact List.mem_cons_of_mem _ (ih h)

theorem found_of_mem {entries : List (String × α)} (hdistinct : (entries.map Prod.fst).Nodup)
    (h : (name, value) ∈ entries) : findEntry? name entries = some value := by
  induction entries with
  | nil => cases h
  | cons head rest ih =>
      obtain ⟨k, v⟩ := head
      obtain ⟨hhead, hrest⟩ := List.nodup_cons.1 hdistinct
      rcases List.mem_cons.1 h with heq | hmem
      · cases heq
        exact if_pos rfl
      · have hk : k ≠ name := by
          rintro rfl
          exact hhead (List.mem_map.2 ⟨_, hmem, rfl⟩)
        exact (if_neg hk).trans (ih hrest hmem)

namespace Table

variable {table : Table α}

theorem names_ascend (table : Table α) : table.names.Pairwise (· < ·) :=
  List.pairwise_map.2 table.ascending

theorem names_nodup (table : Table α) : table.names.Nodup :=
  table.names_ascend.imp String.ne_of_lt

theorem mem_entries_iff : (name, value) ∈ table.entries ↔ table.get? name = some value :=
  ⟨found_of_mem table.names_nodup, mem_of_found⟩

theorem mem_names_iff : name ∈ table.names ↔ ∃ value, table.get? name = some value := by
  simp only [names, List.mem_map, Prod.exists, exists_and_right, exists_eq_right, mem_entries_iff]

@[simp]
theorem get?_erase_self (table : Table α) (name : String) : (table.erase name).get? name = none := by
  rw [Option.eq_none_iff_forall_ne_some]
  intro value hvalue
  simpa [erase] using mem_entries_iff.2 hvalue

@[simp]
theorem get?_erase_of_ne (h : other ≠ name) : (table.erase name).get? other = table.get? other := by
  refine Option.ext fun value => ?_
  rw [← mem_entries_iff, ← mem_entries_iff]
  simp [erase, h]

/-- A table is told by what is found in it. -/
theorem eq_of_get?_eq {a b : Table α} (h : ∀ name, a.get? name = b.get? name) : a = b := by
  have hstrict : ∀ x y : String × α, x.1 < y.1 → y.1 < x.1 → x = y :=
    fun x y hxy hyx => absurd (String.lt_trans hxy hyx) (String.lt_irrefl _)
  have hdistinct : ∀ table : Table α, table.entries.Nodup := fun table =>
    List.Nodup.of_map Prod.fst table.names_nodup
  have hperm : a.entries.Perm b.entries := by
    refine (List.perm_ext_iff_of_nodup (hdistinct a) (hdistinct b)).2 fun ⟨name, value⟩ => ?_
    rw [mem_entries_iff, mem_entries_iff, h name]
  have hentries : a.entries = b.entries :=
    hperm.eq_of_pairwise (fun x y _ _ => hstrict x y) a.ascending b.ascending
  obtain ⟨entries, _⟩ := a
  subst hentries
  rfl

/-- Of entries of one name the last one counts. -/
theorem get?_ofList (entries : List (String × α)) (name : String) :
    (ofList entries).get? name = findEntry? name entries.reverse := by
  induction entries using List.reverseRecOn with
  | nil => rfl
  | append_singleton entries entry ih =>
      obtain ⟨k, v⟩ := entry
      have hlast : ofList (entries ++ [(k, v)]) = (ofList entries).insert k v := by
        rw [ofList, List.foldl_append]
        rfl
      rw [hlast, List.reverse_concat, findEntry?]
      by_cases hk : k = name
      · rw [if_pos hk, hk, get?_insert_self]
      · rw [if_neg hk, get?_insert_of_ne _ (Ne.symm hk), ih]

theorem mem_of_mem_ofList {entries : List (String × α)} {entry : String × α}
    (h : entry ∈ (ofList entries).entries) : entry ∈ entries := by
  have hfound : findEntry? entry.1 entries.reverse = some entry.2 := by
    rw [← get?_ofList, ← mem_entries_iff]
    exact h
  exact List.mem_reverse.1 (mem_of_found hfound)

/-- A table is told from its entries, in whatever order. -/
theorem ofList_of_perm {entries : List (String × α)} (h : entries.Perm table.entries) :
    ofList entries = table := by
  have hreverse : entries.reverse.Perm table.entries := (List.reverse_perm entries).trans h
  have hdistinct : (entries.reverse.map Prod.fst).Nodup :=
    (hreverse.map Prod.fst).nodup_iff.2 table.names_nodup
  refine eq_of_get?_eq fun name => Option.ext fun value => ?_
  have hfound : findEntry? name entries.reverse = some value ↔ (name, value) ∈ entries.reverse :=
    ⟨mem_of_found, found_of_mem hdistinct⟩
  rw [get?_ofList, hfound, hreverse.mem_iff, mem_entries_iff]

end Table

end Courier
