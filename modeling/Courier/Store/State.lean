import Courier.Store.Query
/-
The store: committed rows and business documents, the numbers handed out so far, and the
transactions that add to it.  A transaction keeps its writes to itself until it is committed; then
all of them take place or none.
-/
namespace Courier

/-- What a store answers when it cannot do as asked. -/
inductive StoreError where
  /-- A document was written against a version that is not the current one. -/
  | conflict (collection key : String) (expected actual : Int)
  /-- The message is already recorded for this way of delivery. -/
  | duplicate (messageId : MessageId) (delivery : Delivery)
  | notFound (id : RowId)
  /-- A stored text does not decode. -/
  | decode (reason : String)
  | backend (reason : String)
deriving DecidableEq, Repr

def StoreError.message : StoreError → String
  | .conflict collection key expected actual =>
      "Concurrency conflict for " ++ collection ++ "/" ++ key ++ ": expected version " ++
        toString expected ++ ", found " ++ toString actual
  | .duplicate messageId delivery =>
      "Message " ++ messageId.text ++ " is already recorded for " ++ delivery.text ++ " delivery"
  | .notFound id => "Persisted message not found: " ++ id.text
  | .decode reason => "Decode error: " ++ reason
  | .backend reason => "Store backend error: " ++ reason

def Status.ofText (text : String) : Except StoreError Status :=
  match Status.read? text with
  | some status => .ok status
  | none => .error (.decode ("unknown message status '" ++ text ++ "'"))

def Delivery.ofText (text : String) : Except StoreError Delivery :=
  match Delivery.read? text with
  | some delivery => .ok delivery
  | none => .error (.decode ("unknown delivery type '" ++ text ++ "'"))

/-- A business document, written together with messages.  Its version counts its writes. -/
structure Document where
  collection : String
  key : String
  version : Int
  body : Json
  updatedAt : Instant
deriving DecidableEq

/-- The document is the one with this place. -/
def Document.isAt (document : Document) (collection key : String) : Bool :=
  document.collection == collection && document.key == key

/-- The committed state of a store.  `issued` is the last row number handed out. -/
structure Store where
  rows : List Row
  documents : List Document
  issued : Nat
  refusesDocuments : Bool

/-- A document written by a transaction, with the version it was based on. -/
structure PendingDocument where
  expectedVersion : Int
  document : Document
deriving DecidableEq

/-- The writes of a transaction in the order they were made. -/
structure Transaction where
  rows : List Row
  documents : List PendingDocument
deriving DecidableEq

/-- The transaction that has written nothing. -/
def Transaction.empty : Transaction := ⟨[], []⟩

/-- The transaction's own last write of a document. -/
def Transaction.document? (tx : Transaction) (collection key : String) : Option Document :=
  (tx.documents.reverse.map (·.document)).find? (·.isAt collection key)

namespace Store

def empty : Store := ⟨[], [], 0, false⟩

/-- The committed row with a number. -/
def get? (store : Store) (id : RowId) : Option Row :=
  store.rows.find? (·.id == id)

/-- The message is committed for this way of delivery. -/
def hasMessage (store : Store) (messageId : MessageId) (delivery : Delivery) : Bool :=
  store.rows.any fun row => row.messageId == messageId && row.delivery == delivery

def document? (store : Store) (collection key : String) : Option Document :=
  store.documents.find? (·.isAt collection key)

/-- The committed version of a document, 0 when there is none. -/
def documentVersion (store : Store) (collection key : String) : Int :=
  ((store.document? collection key).map (·.version)).getD 0

/-- The rows that a filter selects, oldest first, its offset and limit applied. -/
def find (store : Store) (filter : RowFilter) : List Row :=
  let found := (oldestFirst (store.rows.filter filter.selects)).drop (filter.offset.getD 0)
  match filter.limit with
  | some limit => found.take limit
  | none => found

/-- The next batch of rows that are due, oldest first. -/
def due (store : Store) (query : DueQuery) : List Row :=
  (oldestFirst (store.rows.filter query.selects)).take query.limit

/-- The statuses of the outgoing rows of a message, by row number. -/
def outgoingStatuses (store : Store) (messageId : MessageId) : List Status :=
  (store.rows.filter fun row => row.messageId == messageId && row.delivery != .inbox).map (·.status)

/-- Change a row if it is as expected.  None means that another writer was there first. -/
def swap (store : Store) (change : Change) : Store × Except StoreError (Option Row) :=
  match store.get? change.id with
  | none => (store, .error (.notFound change.id))
  | some row =>
      if change.fits row then
        let changed := row.apply change
        ({ store with rows := store.rows.map fun r => if r.id = change.id then changed else r },
          .ok (some changed))
      else (store, .ok none)

/-- Drop all rows and documents.  Numbers that were handed out stay taken. -/
def clear (store : Store) : Store :=
  { store with rows := [], documents := [] }

/-- Stage a message in a transaction.  A rejected message takes no number. -/
def stage (store : Store) (tx : Transaction) (draft : Draft) (now : Instant) :
    Store × Except StoreError (Transaction × Row) :=
  let pending := tx.rows.any fun row =>
    row.messageId == draft.messageId && row.delivery == draft.delivery
  if pending || store.hasMessage draft.messageId draft.delivery then
    (store, .error (.duplicate draft.messageId draft.delivery))
  else
    let row := Row.fresh ⟨store.issued + 1⟩ draft now
    ({ store with issued := store.issued + 1 }, .ok ({ tx with rows := tx.rows ++ [row] }, row))

/-- A document as a transaction sees it, its own writes included. -/
def documentIn? (store : Store) (tx : Transaction) (collection key : String) : Option Document :=
  match tx.document? collection key with
  | some document => some document
  | none => store.document? collection key

/-- Write a document in a transaction against the version that the transaction sees. -/
def saveDocument (store : Store) (tx : Transaction) (collection key : String) (body : Json)
    (expected : Int) (now : Instant) : Except StoreError (Transaction × Document) :=
  if store.refusesDocuments then
    .error (.backend ("document write rejected for " ++ collection ++ "/" ++ key))
  else
    let actual := match tx.document? collection key with
      | some document => document.version
      | none => store.documentVersion collection key
    if actual = expected then
      let document : Document := ⟨collection, key, expected + 1, body, now⟩
      .ok ({ tx with documents := tx.documents ++ [⟨expected, document⟩] }, document)
    else .error (.conflict collection key expected actual)

/-- Check pending documents against the committed versions, each write after the one before it.
`written` holds the versions that earlier writes of the transaction lead to. -/
def checkDocuments (store : Store) : List Document → List PendingDocument → Except StoreError Unit
  | _, [] => .ok ()
  | written, pending :: rest =>
      let document := pending.document
      let current := match written.find? (·.isAt document.collection document.key) with
        | some earlier => earlier.version
        | none => store.documentVersion document.collection document.key
      if current = pending.expectedVersion then checkDocuments store (document :: written) rest
      else .error (.conflict document.collection document.key pending.expectedVersion current)

/-- Check that no staged message has been committed meanwhile. -/
def checkRows (store : Store) : List Row → Except StoreError Unit
  | [] => .ok ()
  | row :: rest =>
      if store.hasMessage row.messageId row.delivery then
        .error (.duplicate row.messageId row.delivery)
      else checkRows store rest

/-- Put a document in the place of the committed one. -/
def putDocument (documents : List Document) (document : Document) : List Document :=
  documents.filter (fun d => !d.isAt document.collection document.key) ++ [document]

/-- Put a row into a list that is in the order of the numbers. -/
def putRow (row : Row) : List Row → List Row
  | [] => [row]
  | r :: rest =>
      if row.id < r.id then row :: r :: rest
      else if r.id = row.id then row :: rest
      else r :: putRow row rest

/-- Make a transaction's writes part of the store, all of them or none. -/
def commit (store : Store) (tx : Transaction) : Except StoreError Store := do
  checkDocuments store [] tx.documents
  checkRows store tx.rows
  return { store with
    documents := (tx.documents.map (·.document)).foldl putDocument store.documents
    rows := tx.rows.foldl (fun rows row => putRow row rows) store.rows }

end Store

end Courier
