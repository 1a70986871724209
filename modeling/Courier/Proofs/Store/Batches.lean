import Courier.Proofs.Store.Rows
import Courier.Proofs.Time.Order
/-
Batches.  The rows that are due come oldest first, and a limit cuts off the youngest: whatever is due
and comes before a row of the batch is in the batch itself.
-/
namespace Courier

namespace Row

/-- Created earlier, or at the same time under a smaller number. -/
def Precedes (a b : Row) : Prop :=
  a.notAfter b = true ∧ a.id ≠ b.id

theorem notAfter_iff {a b : Row} :
    a.notAfter b = true ↔ a.createdAt.position < b.createdAt.position ∨
      a.createdAt.position = b.createdAt.position ∧ a.id.value ≤ b.id.value := by
  unfold notAfter
  split
  · rename_i hsame
    rw [hsame, decide_eq_true_iff]
    change a.id.value ≤ b.id.value ↔ _
    omega
  · rename_i hother
    rw [decide_eq_true_iff, Instant.le_iff]
    have hne : a.createdAt.position ≠ b.createdAt.position :=
      fun heq => hother (Instant.eq_of_position_eq heq)
    omega

theorem notAfter_trans {a b c : Row} (hab : a.notAfter b = true) (hbc : b.notAfter c = true) :
    a.notAfter c = true := by
  rw [notAfter_iff] at hab hbc ⊢
  omega

theorem notAfter_total (a b : Row) : (a.notAfter b || b.notAfter a) = true := by
  rw [Bool.or_eq_true, notAfter_iff, notAfter_iff]
  omega

theorem Precedes.asymm {a b : Row} (hab : a.Precedes b) : ¬ b.Precedes a := by
  rintro ⟨hba, _⟩
  obtain ⟨hle, hne⟩ := hab
  rw [notAfter_iff] at hle hba
  have hid : a.id.value = b.id.value := by omega
  exact hne (congrArg RowId.mk hid)

/-- What comes before does not become due later by being created. -/
theorem Precedes.createdAt_le {a b : Row} (h : a.Precedes b) : a.createdAt ≤ b.createdAt := by
  have hle := notAfter_iff.1 h.1
  rw [Instant.le_iff]
  omega

end Row

theorem DueQuery.le_of_selects {query : DueQuery} {row : Row} (h : query.selects row = true) :
    row.nextAttemptAt ≤ query.now := by
  simp only [selects, Bool.and_eq_true, decide_eq_true_eq] at h
  exact h.1.2

/-- What a query over every way of delivery selects. -/
theorem DueQuery.selects_iff {query : DueQuery} (hall : query.deliveries = Delivery.all) {row : Row} :
    query.selects row = true ↔
      row.deadLettered = false ∧ row.nextAttemptAt ≤ query.now ∧ (row.status = .stored ∨
        (row.status = .failed ∨ row.status = .processing) ∧ row.retries < query.maxRetries) := by
  have hdelivery : row.delivery ∈ Delivery.all := by cases row.delivery <;> decide
  cases hstatus : row.status <;> simp [selects, hall, hdelivery, hstatus, and_assoc]

theorem oldestFirst_sorted {rows : List Row} (h : DistinctNumbers rows) :
    (oldestFirst rows).Pairwise Row.Precedes := by
  have hdistinct : DistinctNumbers (oldestFirst rows) := h.of_perm (List.mergeSort_perm rows _).symm
  have hsorted : (oldestFirst rows).Pairwise fun a b => a.notAfter b = true :=
    @List.pairwise_mergeSort Row Row.notAfter (fun _ _ _ => Row.notAfter_trans) Row.notAfter_total rows
  exact hsorted.imp₂ (fun _ _ hle hne => ⟨hle, hne⟩) hdistinct

namespace Store

variable {store : Store} {query : DueQuery}

theorem due_sorted (h : DistinctNumbers store.rows) : (store.due query).Pairwise Row.Precedes :=
  (oldestFirst_sorted (h.sublist List.filter_sublist)).sublist (List.take_sublist _ _)

/-- The limit cuts off nothing that comes before a row of the batch. -/
theorem mem_due_of_precedes (h : DistinctNumbers store.rows) {first row : Row}
    (hfirst : first ∈ store.rows) (hdue : query.selects first = true) (hrow : row ∈ store.due query)
    (hbefore : first.Precedes row) : first ∈ store.due query := by
  have hsorted := oldestFirst_sorted (h.sublist (List.filter_sublist (p := query.selects)))
  have hall : first ∈ oldestFirst (store.rows.filter query.selects) :=
    List.mem_mergeSort.2 (List.mem_filter.2 ⟨hfirst, hdue⟩)
  unfold due at hrow ⊢
  rw [← List.take_append_drop query.limit (oldestFirst (store.rows.filter query.selects))] at hsorted hall
  obtain ⟨_, _, hparts⟩ := List.pairwise_append.1 hsorted
  rcases List.mem_append.1 hall with hkept | hcut
  · exact hkept
  · exact absurd (hparts row hrow first hcut) hbefore.asymm

end Store

end Courier
