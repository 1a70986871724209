import Courier.Proofs.Store.Rows
/-
The documents of a transaction.  Each write of a document follows the transaction's last write of it,
so that only the first one looks at the store: whether a transaction can be committed is a matter of
the versions that its first writes were based on.
-/
namespace Courier

namespace Transaction

/-- The transaction's writes of a document, in the order they were made. -/
def writes (tx : Transaction) (collection key : String) : List PendingDocument :=
  tx.documents.filter (·.document.isAt collection key)

def base? (tx : Transaction) (collection key : String) : Option Int :=
  (tx.writes collection key).head?.map (·.expectedVersion)

def write (tx : Transaction) (pending : PendingDocument) : Transaction :=
  { tx with documents := tx.documents ++ [pending] }

/-- A transaction as messages and documents are added to it.  A document is written at the version
after the one that it is expected at, and that is the one of the transaction's last write of it. -/
inductive Built : Transaction → Prop where
  | empty : Built Transaction.empty
  | staged {tx : Transaction} (h : tx.Built) (row : Row) :
      Built { tx with rows := tx.rows ++ [row] }
  | written {tx : Transaction} (h : tx.Built) (pending : PendingDocument)
      (hnext : pending.document.version = pending.expectedVersion + 1)
      (hlast : ∀ last, tx.document? pending.document.collection pending.document.key = some last →
        last.version = pending.expectedVersion) : Built (tx.write pending)

section write

variable (tx : Transaction) (pending : PendingDocument) (collection key : String)

theorem document?_write : (tx.write pending).document? collection key =
    if pending.document.isAt collection key then some pending.document
    else tx.document? collection key := by
  simp only [document?, write, List.reverse_append, List.reverse_cons, List.reverse_nil,
    List.nil_append, List.singleton_append, List.map_cons, List.find?_cons]
  cases pending.document.isAt collection key <;> rfl

theorem writes_write : (tx.write pending).writes collection key =
    if pending.document.isAt collection key then tx.writes collection key ++ [pending]
    else tx.writes collection key := by
  simp only [writes, write, List.filter_append, List.filter_singleton]
  cases pending.document.isAt collection key <;> simp

/-- Only the first write of a document counts. -/
theorem base?_write : (tx.write pending).base? collection key =
    (tx.base? collection key).or
      (if pending.document.isAt collection key then some pending.expectedVersion else none) := by
  rw [base?, base?, writes_write]
  cases pending.document.isAt collection key with
  | false => simp
  | true => cases tx.writes collection key <;> rfl

end write

theorem isAt_self (document : Document) : document.isAt document.collection document.key = true := by
  simp [Document.isAt]

theorem eq_of_isAt {document : Document} {collection key : String}
    (h : document.isAt collection key = true) :
    collection = document.collection ∧ key = document.key := by
  obtain ⟨hcollection, hkey⟩ := Bool.and_eq_true_iff.1 h
  exact ⟨(eq_of_beq hcollection).symm, (eq_of_beq hkey).symm⟩

/-- A document was written by the transaction or it was not; its version counts the writes. -/
inductive Wrote (tx : Transaction) (collection key : String) : Prop where
  | never (hwrites : tx.writes collection key = []) (hbase : tx.base? collection key = none)
      (hdocument : tx.document? collection key = none)
  | last (last : PendingDocument) (base : Int)
      (hwrites : (tx.writes collection key).getLast? = some last)
      (hbase : tx.base? collection key = some base)
      (hdocument : tx.document? collection key = some last.document)
      (hversion : last.document.version = base + (tx.writes collection key).length)

theorem Built.wrote {tx : Transaction} (h : tx.Built) (collection key : String) :
    tx.Wrote collection key := by
  induction h with
  | empty => exact .never rfl rfl rfl
  | @staged tx h row ih =>
      cases ih with
      | never hwrites hbase hdocument => exact .never hwrites hbase hdocument
      | last last base hwrites hbase hdocument hversion =>
          exact .last last base hwrites hbase hdocument hversion
  | @written tx h pending hnext hlast ih =>
      have hwrites := tx.writes_write pending collection key
      have hbase := tx.base?_write pending collection key
      have hdocument := tx.document?_write pending collection key
      cases hat : pending.document.isAt collection key with
      | false =>
          simp only [hat, Bool.false_eq_true, ↓reduceIte, Option.or_none] at hwrites hbase hdocument
          cases ih with
          | never hnone hnobase hnodocument =>
              exact .never (hwrites.trans hnone) (hbase.trans hnobase)
                (hdocument.trans hnodocument)
          | last last base hthere hsome hfound hversion =>
              rw [← hwrites] at hthere hversion
              exact .last last base hthere (hbase.trans hsome) (hdocument.trans hfound) hversion
      | true =>
          simp only [hat, ↓reduceIte] at hwrites hbase hdocument
          have hend : ((tx.write pending).writes collection key).getLast? = some pending := by
            rw [hwrites, List.getLast?_append, List.getLast?_singleton, Option.some_or]
          obtain ⟨rfl, rfl⟩ := eq_of_isAt hat
          cases ih with
          | never hnone hnobase hnodocument =>
              rw [hnobase, Option.none_or] at hbase
              refine .last pending _ hend hbase hdocument ?_
              rw [hwrites, hnone]
              exact hnext
          | last last base hthere hsome hfound hversion =>
              rw [hsome, Option.some_or] at hbase
              refine .last pending base hend hbase hdocument ?_
              have hbefore := hlast _ hfound
              rw [hwrites, List.length_append, List.length_singleton]
              push_cast
              omega

end Transaction

namespace Store

/-- The place of a document holds the one that was put there last. -/
theorem find?_putDocument (documents : List Document) (document : Document)
    (collection key : String) :
    (putDocument documents document).find? (·.isAt collection key) =
      if document.isAt collection key then some document
      else documents.find? (·.isAt collection key) := by
  have hplace : ∀ other : Document, other.isAt collection key = true →
      other.isAt document.collection document.key = document.isAt collection key := by
    intro other hother
    obtain ⟨hcollection, hkey⟩ := Bool.and_eq_true_iff.1 hother
    rw [Document.isAt, Document.isAt, eq_of_beq hcollection, eq_of_beq hkey]
    exact congrArg₂ (· && ·) Bool.beq_comm Bool.beq_comm
  rw [putDocument, List.find?_append]
  cases hat : document.isAt collection key with
  | true =>
      have hnone : (documents.filter fun other =>
          !other.isAt document.collection document.key).find? (·.isAt collection key) = none := by
        refine List.find?_eq_none.2 fun other hother hthere => ?_
        have hnot := (List.mem_filter.1 hother).2
        rw [hplace other hthere, hat] at hnot
        cases hnot
      rw [hnone, Option.none_or, List.find?_singleton, if_pos hat, if_pos rfl]
  | false =>
      have hlast : [document].find? (·.isAt collection key) = none := by
        rw [List.find?_singleton, if_neg (ne_true_of_eq_false hat)]
      rw [hlast, Option.or_none, List.find?_filter]
      refine congrArg (documents.find? ·) (funext fun other => ?_)
      cases hthere : other.isAt collection key with
      | true => simp [hplace other hthere, hat]
      | false => simp

theorem find?_foldl_putDocument (pending documents : List Document) (collection key : String) :
    (pending.foldl putDocument documents).find? (·.isAt collection key) =
      (pending.reverse.find? (·.isAt collection key)).or
        (documents.find? (·.isAt collection key)) := by
  induction pending generalizing documents with
  | nil => rfl
  | cons document rest ih =>
      rw [List.foldl_cons, ih, find?_putDocument, List.reverse_cons, List.find?_append,
        Option.or_assoc, List.find?_singleton]
      cases document.isAt collection key <;> rfl

/-- The version of a document after the writes that were checked before, the last one first. -/
def versionAfter (store : Store) (written : List Document) (collection key : String) : Int :=
  match written.find? (·.isAt collection key) with
  | some last => last.version
  | none => store.documentVersion collection key

theorem checkDocuments_cons (store : Store) (written : List Document) (pending : PendingDocument)
    (rest : List PendingDocument) :
    store.checkDocuments written (pending :: rest) = .ok () ↔
      store.versionAfter written pending.document.collection pending.document.key =
          pending.expectedVersion ∧
        store.checkDocuments (pending.document :: written) rest = .ok () := by
  change (if store.versionAfter written pending.document.collection pending.document.key =
    pending.expectedVersion then _ else _) = _ ↔ _
  split
  · simp only [*, true_and]
  · simp only [*, false_and, reduceCtorEq]

/-- One write more is checked after all others. -/
theorem checkDocuments_concat (store : Store) (written : List Document)
    (earlier : List PendingDocument) (pending : PendingDocument) :
    store.checkDocuments written (earlier ++ [pending]) = .ok () ↔
      store.checkDocuments written earlier = .ok () ∧
        store.versionAfter ((earlier.map (·.document)).reverse ++ written)
          pending.document.collection pending.document.key = pending.expectedVersion := by
  induction earlier generalizing written with
  | nil =>
      rw [List.nil_append, checkDocuments_cons]
      simp only [checkDocuments, List.map_nil, List.reverse_nil, List.nil_append, true_and, and_true]
  | cons first rest ih =>
      rw [List.cons_append, checkDocuments_cons, checkDocuments_cons, ih, List.map_cons,
        List.reverse_cons, List.append_assoc, List.singleton_append, and_assoc]

/-- The documents of a transaction can be committed if each is at the version that the first write of
it was based on. -/
theorem checkDocuments_iff {tx : Transaction} (h : tx.Built) (store : Store) :
    store.checkDocuments [] tx.documents = .ok () ↔
      ∀ collection key base, tx.base? collection key = some base →
        store.documentVersion collection key = base := by
  induction h with
  | empty =>
      refine iff_of_true rfl fun collection key base hbase => ?_
      cases hbase
  | staged h row ih => exact ih
  | @written tx h pending hnext hlast ih =>
      change store.checkDocuments [] (tx.documents ++ [pending]) = .ok () ↔ _
      have hafter : store.versionAfter (tx.documents.map (·.document)).reverse
          pending.document.collection pending.document.key =
          (tx.document? pending.document.collection pending.document.key).elim
            (store.documentVersion pending.document.collection pending.document.key)
            (·.version) := by
        rw [versionAfter, ← List.map_reverse, ← Transaction.document?]
        cases tx.document? pending.document.collection pending.document.key <;> rfl
      rw [checkDocuments_concat, ih, List.append_nil, hafter]
      cases h.wrote pending.document.collection pending.document.key with
      | never hwrites hbase hdocument =>
          rw [hdocument, Option.elim_none]
          constructor
          · rintro ⟨hearlier, hnow⟩ collection key base hsome
            rw [Transaction.base?_write] at hsome
            rcases Option.or_eq_some_iff.1 hsome with hold | ⟨_, hnew⟩
            · exact hearlier collection key base hold
            · obtain ⟨hat, heq⟩ := Option.ite_none_right_eq_some.1 hnew
              obtain ⟨rfl, rfl⟩ := Transaction.eq_of_isAt hat
              exact hnow.trans (Option.some.inj heq)
          · intro hall
            refine ⟨fun collection key base hold => hall collection key base ?_, hall _ _ _ ?_⟩
            · rw [Transaction.base?_write, hold, Option.some_or]
            · rw [Transaction.base?_write, hbase, Transaction.isAt_self]
              rfl
      | last last base hwrites hbase hdocument hversion =>
          rw [hdocument, Option.elim_some]
          have hsame : ∀ collection key,
              (tx.write pending).base? collection key = tx.base? collection key := by
            intro collection key
            rw [Transaction.base?_write]
            split
            · obtain ⟨rfl, rfl⟩ := Transaction.eq_of_isAt ‹_›
              rw [hbase, Option.some_or]
            · exact Option.or_none
          simp only [hsame, hlast _ hdocument, and_true]

theorem checkRows_iff (store : Store) (rows : List Row) :
    store.checkRows rows = .ok () ↔
      ∀ row ∈ rows, store.hasMessage row.messageId row.delivery = false := by
  induction rows with
  | nil => simp [checkRows]
  | cons head rest ih =>
      simp only [checkRows, List.forall_mem_cons]
      cases store.hasMessage head.messageId head.delivery with
      | true => simp
      | false => simpa using ih

end Store

end Courier
