import Courier.Store.State
import Mathlib.Data.List.Perm.Subperm
/-
What the writes of a store do to its committed rows.  As long as no two rows share a number, a row
is found by its number, a change replaces the one row that it names, and a commit adds the staged
rows and leaves all others alone.
-/
namespace Courier

/-- No two rows share a number. -/
def DistinctNumbers (rows : List Row) : Prop :=
  rows.Pairwise fun a b => a.id ≠ b.id

theorem DistinctNumbers.of_perm {rows others : List Row} (h : DistinctNumbers rows)
    (hperm : rows.Perm others) : DistinctNumbers others :=
  (hperm.pairwise_iff fun hne => Ne.symm hne).1 h

theorem DistinctNumbers.of_subperm {rows fewer : List Row} (h : DistinctNumbers rows)
    (hfewer : fewer.Subperm rows) : DistinctNumbers fewer := by
  obtain ⟨between, hperm, hsublist⟩ := hfewer
  exact DistinctNumbers.of_perm (h.sublist hsublist) hperm

theorem DistinctNumbers.of_map_id_eq {rows others : List Row} (h : DistinctNumbers rows)
    (hids : others.map (·.id) = rows.map (·.id)) : DistinctNumbers others := by
  have hpairwise : (rows.map (·.id)).Pairwise (· ≠ ·) := List.pairwise_map.2 h
  rw [← hids] at hpairwise
  exact List.pairwise_map.1 hpairwise

theorem DistinctNumbers.eq_of_id_eq {rows : List Row} (h : DistinctNumbers rows) {a b : Row}
    (ha : a ∈ rows) (hb : b ∈ rows) (hid : a.id = b.id) : a = b := by
  induction rows with
  | nil => cases ha
  | cons head rest ih =>
      obtain ⟨hhead, hrest⟩ := List.pairwise_cons.1 h
      rcases List.mem_cons.1 ha with rfl | hmem
      · rcases List.mem_cons.1 hb with rfl | hmem
        · rfl
        · exact absurd hid (hhead b hmem)
      · rcases List.mem_cons.1 hb with rfl | hother
        · exact absurd hid.symm (hhead a hmem)
        · exact ih hrest hmem hother

namespace Store

theorem mem_of_get? {store : Store} {id : RowId} {row : Row} (h : store.get? id = some row) :
    row ∈ store.rows ∧ row.id = id := by
  have hid := List.find?_some h
  exact ⟨List.mem_of_find?_eq_some h, by simpa using hid⟩

theorem get?_eq_some_iff {store : Store} (h : DistinctNumbers store.rows) {id : RowId} {row : Row} :
    store.get? id = some row ↔ row ∈ store.rows ∧ row.id = id := by
  constructor
  · exact mem_of_get?
  · rintro ⟨hrow, rfl⟩
    cases hfound : store.get? row.id with
    | none =>
        have hnone := List.find?_eq_none.1 hfound row hrow
        simp at hnone
    | some found =>
        obtain ⟨hmem, hid⟩ := mem_of_get? hfound
        rw [h.eq_of_id_eq hmem hrow hid]

theorem get?_eq_none_iff {store : Store} {id : RowId} :
    store.get? id = none ↔ ∀ row ∈ store.rows, row.id ≠ id := by
  simp [get?]

def changeRow (rows : List Row) (changed : Row) : List Row :=
  rows.map fun row => if row.id = changed.id then changed else row

theorem mem_changeRow {rows : List Row} {changed row : Row} (hthere : ∃ r ∈ rows, r.id = changed.id) :
    row ∈ changeRow rows changed ↔ row = changed ∨ row ∈ rows ∧ row.id ≠ changed.id := by
  simp only [changeRow, List.mem_map]
  constructor
  · rintro ⟨r, hr, rfl⟩
    by_cases hid : r.id = changed.id
    · exact Or.inl (if_pos hid)
    · rw [if_neg hid]
      exact Or.inr ⟨hr, hid⟩
  · rintro (rfl | ⟨hrow, hid⟩)
    · obtain ⟨r, hr, hid⟩ := hthere
      exact ⟨r, hr, if_pos hid⟩
    · exact ⟨row, hrow, if_neg hid⟩

@[simp]
theorem map_id_changeRow (rows : List Row) (changed : Row) :
    (changeRow rows changed).map (·.id) = rows.map (·.id) := by
  simp only [changeRow, List.map_map]
  apply List.map_congr_left
  intro row _
  by_cases hid : row.id = changed.id
  · simp [hid]
  · simp [hid]

def withRow (store : Store) (changed : Row) : Store :=
  { store with rows := changeRow store.rows changed }

theorem withRow_withRow {store : Store} {changed last : Row} (hid : last.id = changed.id) :
    (store.withRow changed).withRow last = store.withRow last := by
  simp only [withRow, changeRow, List.map_map]
  congr 1
  refine List.map_congr_left fun row _ => ?_
  by_cases h : row.id = changed.id
  · simp [hid, h]
  · simp [hid, h]

theorem withRow_distinct {store : Store} {changed : Row} (h : DistinctNumbers store.rows) :
    DistinctNumbers (store.withRow changed).rows :=
  h.of_map_id_eq (map_id_changeRow store.rows changed)

theorem get?_withRow {store : Store} {changed : Row} (hthere : ∃ row ∈ store.rows, row.id = changed.id)
    (h : DistinctNumbers store.rows) : (store.withRow changed).get? changed.id = some changed :=
  (get?_eq_some_iff (withRow_distinct h)).2 ⟨(mem_changeRow hthere).2 (Or.inl rfl), rfl⟩

@[simp]
theorem get?_withRow_ne {store : Store} {changed : Row} {id : RowId} (hid : changed.id ≠ id) :
    (store.withRow changed).get? id = store.get? id := by
  simp only [get?, withRow, changeRow]
  induction store.rows with
  | nil => rfl
  | cons row rest ih =>
      by_cases hchanged : row.id = changed.id
      · simp [hchanged, hid, ih]
      · by_cases hfound : row.id = id
        · simp [hfound, Ne.symm hid]
        · simp [hchanged, hfound, ih]

/-- A change that finds its row replaces it. -/
theorem swap_of_fits {store : Store} {change : Change} {row : Row}
    (hrow : store.get? change.id = some row) (hfits : change.fits row = true) :
    store.swap change =
      ({ store with rows := changeRow store.rows (row.apply change) },
        .ok (some (row.apply change))) := by
  have hid : (row.apply change).id = change.id := (mem_of_get? hrow).2
  simp [swap, hrow, hfits, changeRow, hid]

/-- A swap changes the one row that fits it or nothing. -/
theorem swap_cases (store : Store) (change : Change) :
    (∃ answer, (∀ row, answer ≠ .ok (some row)) ∧ store.swap change = (store, answer)) ∨
      ∃ row, store.get? change.id = some row ∧ change.fits row = true := by
  cases hrow : store.get? change.id with
  | none =>
      exact Or.inl ⟨.error (.notFound change.id), by simp, by simp [swap, hrow]⟩
  | some row =>
      by_cases hfits : change.fits row = true
      · exact Or.inr ⟨row, rfl, hfits⟩
      · exact Or.inl ⟨.ok none, by simp, by simp [swap, hrow, hfits]⟩

theorem putRow_perm {row : Row} {rows : List Row} (h : ∀ r ∈ rows, r.id ≠ row.id) :
    (putRow row rows).Perm (row :: rows) := by
  induction rows with
  | nil => exact List.Perm.refl _
  | cons head rest ih =>
      obtain ⟨hhead, hrest⟩ := List.forall_mem_cons.1 h
      simp only [putRow]
      split
      · exact List.Perm.refl _
      · exact ((ih hrest).cons head).trans (List.Perm.swap row head rest)

theorem foldl_putRow_perm {staged rows : List Row} (h : DistinctNumbers (rows ++ staged)) :
    (staged.foldl (fun rows row => putRow row rows) rows).Perm (rows ++ staged) := by
  induction staged generalizing rows with
  | nil => simp
  | cons row rest ih =>
      have hmoved : (rows ++ row :: rest).Perm ((row :: rows) ++ rest) := List.perm_middle
      have hdistinct : DistinctNumbers ((row :: rows) ++ rest) := h.of_perm hmoved
      have hput : (putRow row rows).Perm (row :: rows) := by
        apply putRow_perm
        intro r hr
        exact ((List.pairwise_cons.1 hdistinct).1 r (List.mem_append_left _ hr)).symm
      have hsame := hput.append_right rest
      exact ((ih (hdistinct.of_perm hsame.symm)).trans hsame).trans hmoved.symm

theorem mem_find {store : Store} {filter : RowFilter} {row : Row} (h : row ∈ store.find filter) :
    row ∈ store.rows ∧ filter.selects row = true := by
  have hfound : row ∈ (oldestFirst (store.rows.filter filter.selects)).drop
      (filter.offset.getD 0) := by
    unfold find at h
    split at h
    · exact List.mem_of_mem_take h
    · exact h
  have hsorted := List.mem_of_mem_drop hfound
  exact List.mem_filter.1 (List.mem_mergeSort.1 hsorted)

theorem mem_due {store : Store} {query : DueQuery} {row : Row} (h : row ∈ store.due query) :
    row ∈ store.rows ∧ query.selects row = true :=
  List.mem_filter.1 (List.mem_mergeSort.1 (List.mem_of_mem_take h))

theorem mem_outgoingStatuses {store : Store} {id : MessageId} {status : Status} :
    status ∈ store.outgoingStatuses id ↔ ∃ row ∈ store.rows,
      (row.messageId = id ∧ row.delivery ≠ .inbox) ∧ row.status = status := by
  simp [outgoingStatuses, and_assoc]

/-- A limit with room for all rows leaves none out. -/
theorem mem_due_of_selects {store : Store} {query : DueQuery} {row : Row} (hrow : row ∈ store.rows)
    (hselects : query.selects row = true) (hroom : store.rows.length ≤ query.limit) :
    row ∈ store.due query := by
  have hlength : (oldestFirst (store.rows.filter query.selects)).length ≤ query.limit := by
    rw [oldestFirst, List.length_mergeSort]
    exact Nat.le_trans (List.length_filter_le _ _) hroom
  unfold due
  rw [List.take_of_length_le hlength]
  exact List.mem_mergeSort.2 (List.mem_filter.2 ⟨hrow, hselects⟩)

/-- A filter without limit and offset finds every row that it selects. -/
theorem mem_find_of_selects {store : Store} {filter : RowFilter} {row : Row}
    (hrow : row ∈ store.rows) (hselects : filter.selects row = true) (hlimit : filter.limit = none)
    (hoffset : filter.offset = none) : row ∈ store.find filter := by
  simp only [find, hlimit, hoffset, Option.getD_none, List.drop_zero]
  exact List.mem_mergeSort.2 (List.mem_filter.2 ⟨hrow, hselects⟩)

/-- Staging is rejected, or it takes the next number. -/
theorem stage_cases (store : Store) (tx : Transaction) (draft : Draft) (now : Instant) :
    (∃ error, store.stage tx draft now = (store, .error error)) ∨
      store.stage tx draft now =
        ({ store with issued := store.issued + 1 },
          .ok ({ tx with rows := tx.rows ++ [Row.fresh ⟨store.issued + 1⟩ draft now] },
            Row.fresh ⟨store.issued + 1⟩ draft now)) := by
  simp only [stage]
  split
  · exact Or.inl ⟨_, rfl⟩
  · exact Or.inr rfl

theorem saveDocument_rows {store : Store} {tx : Transaction} {collection key : String} {body : Json}
    {expected : Int} {now : Instant} {saved : Transaction × Document}
    (h : store.saveDocument tx collection key body expected now = .ok saved) :
    saved.1.rows = tx.rows := by
  grind [saveDocument]

theorem saveDocument_ok {store : Store} {tx written : Transaction} {collection key : String}
    {body : Json} {expected : Int} {now : Instant} {document : Document}
    (h : store.saveDocument tx collection key body expected now = .ok (written, document)) :
    document = ⟨collection, key, expected + 1, body, now⟩ ∧
      written = { tx with documents := tx.documents ++ [⟨expected, document⟩] } := by
  grind [saveDocument]

/-- A document that the transaction has written is written again at the version it was left at. -/
theorem saveDocument_last {store : Store} {tx : Transaction} {collection key : String} {body : Json}
    {expected : Int} {now : Instant} {saved : Transaction × Document} {last : Document}
    (h : store.saveDocument tx collection key body expected now = .ok saved)
    (hlast : tx.document? collection key = some last) : last.version = expected := by
  grind [saveDocument]

/-- A commit finds the documents and the messages as it needs them, and writes them all. -/
theorem commit_iff {store committed : Store} {tx : Transaction} :
    store.commit tx = .ok committed ↔
      (store.checkDocuments [] tx.documents = .ok () ∧ store.checkRows tx.rows = .ok ()) ∧
        committed = { store with
          documents := (tx.documents.map (·.document)).foldl putDocument store.documents
          rows := tx.rows.foldl (fun rows row => putRow row rows) store.rows } := by
  unfold commit
  cases store.checkDocuments [] tx.documents with
  | error error => simp [bind, Except.bind]
  | ok _ =>
      cases store.checkRows tx.rows with
      | error error => simp [bind, Except.bind]
      | ok _ =>
          simp only [bind, Except.bind, pure, Except.pure, Except.ok.injEq, true_and, and_self]
          exact eq_comm

/-- A commit adds the staged rows, and hands no number out. -/
theorem commit_rows {store committed : Store} {tx : Transaction}
    (h : store.commit tx = .ok committed) :
    committed.rows = tx.rows.foldl (fun rows row => putRow row rows) store.rows ∧
      committed.issued = store.issued := by
  obtain ⟨_, rfl⟩ := commit_iff.1 h
  exact ⟨rfl, rfl⟩

end Store

end Courier
