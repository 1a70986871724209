import Courier.Proofs.Order.Commands
import Courier.Proofs.Store.Documents
/-
How an order stands in a store.  Its document and the messages that name it go together: nothing of
either, the placed order with its announcement, or the cancelled one with both announcements.  A
commit that files an order moves that order on and leaves all others as they stand.
-/
namespace Courier

variable {κ τ ρ α : Type}

/-- The order that a message names, if it leaves the service or goes to a handler in it. -/
def Notice.order? (notice : Notice) : Option OrderId :=
  if notice.delivery = .inbox then none
  else (notice.payload.get? "order_id").bind OrderId.ofJson?

/-- What the rows that name an order tell. -/
def Store.noticesOf (store : Store) (id : OrderId) : List Notice :=
  (store.rows.map Row.notice).filter fun notice => notice.order? == some id

structure Placement where
  customer : String
  totalCents : Int64
  placedAt : Instant
deriving DecidableEq

/-- The three ways in which an order can stand. -/
inductive Standing where
  | absent
  | placed (placement : Placement)
  | cancelled (placement : Placement) (reason : String)
deriving DecidableEq

namespace Standing

def version : Standing → Int
  | .absent => 0
  | .placed _ => 1
  | .cancelled _ _ => 2

def order? (id : OrderId) : Standing → Option Order
  | .absent => none
  | .placed placement => some ⟨id, placement.customer, placement.totalCents, .placed,
      placement.placedAt, none, 1, EventRecorder.empty⟩
  | .cancelled placement reason => some ⟨id, placement.customer, placement.totalCents, .cancelled,
      placement.placedAt, some reason, 2, EventRecorder.empty⟩

def notices (id : OrderId) : Standing → List Notice
  | .absent => []
  | .placed placement => (OrderEvent.placed id placement.customer placement.totalCents).notices
  | .cancelled placement reason =>
      (OrderEvent.placed id placement.customer placement.totalCents).notices ++
        (OrderEvent.cancelled id reason).notices

/-- An order is never placed again, and once cancelled it stays so. -/
inductive LeadsTo : Standing → Standing → Prop where
  | stay (standing : Standing) : LeadsTo standing standing
  | place (standing : Standing) : LeadsTo .absent standing
  | cancel (placement : Placement) (reason : String) :
      LeadsTo (.placed placement) (.cancelled placement reason)

end Standing

/-- The order stands like this in the store: its document, version and contents, and all the messages
that name it. -/
structure Store.Stands (store : Store) (id : OrderId) (standing : Standing) : Prop where
  document : (store.document? OrderDesk.collection id.text).map
      (fun document => (document.version, document.body)) =
    (standing.order? id).map fun order => (order.version, order.toJson)
  notices : (store.noticesOf id).Perm (standing.notices id)

theorem Order.toJson_inj {one two : Order} (h : one.toJson = two.toJson) :
    { one with version := 0, events := EventRecorder.empty } =
      { two with version := 0, events := EventRecorder.empty } := by
  have hread := congrArg ofJson? h
  rw [ofJson?_toJson, ofJson?_toJson] at hread
  exact Option.some.inj hread

namespace Standing

theorem version_of_order? (standing : Standing) (id : OrderId) :
    ((standing.order? id).map (·.version)).getD 0 = standing.version := by
  cases standing <;> rfl

theorem LeadsTo.trans {one two three : Standing} (hone : one.LeadsTo two) (htwo : two.LeadsTo three) :
    one.LeadsTo three := by
  cases hone with
  | stay standing => exact htwo
  | place standing => exact .place three
  | cancel placement reason =>
      cases htwo with
      | stay standing => exact .cancel placement reason

def ofOrder (order : Order) : Standing :=
  match order.cancelReason with
  | none => .placed ⟨order.customer, order.totalCents, order.placedAt⟩
  | some reason => .cancelled ⟨order.customer, order.totalCents, order.placedAt⟩ reason

theorem ofOrder_order? (standing : Standing) (id : OrderId) :
    ((standing.order? id).map ofOrder).getD .absent = standing := by
  cases standing <;> rfl

/-- The document of an order tells how the order stands. -/
theorem eq_of_order? {id : OrderId} {one two : Standing}
    (h : (one.order? id).map (fun order => (order.version, order.toJson)) =
      (two.order? id).map fun order => (order.version, order.toJson)) : one = two := by
  rw [← one.ofOrder_order? id, ← two.ofOrder_order? id]
  cases hone : one.order? id with
  | none =>
      cases htwo : two.order? id with
      | none => rfl
      | some order =>
          rw [hone, htwo] at h
          cases h
  | some order =>
      cases htwo : two.order? id with
      | none =>
          rw [hone, htwo] at h
          cases h
      | some other =>
          rw [hone, htwo] at h
          have hsame := congrArg ofOrder (Order.toJson_inj (Prod.mk.inj (Option.some.inj h)).2)
          exact hsame

end Standing

theorem Notice.order?_of [Message α] {delivery : Delivery} (hdelivery : delivery ≠ .inbox)
    {message : α} {id : OrderId} (hpayload : (Message.toJson message).get? "order_id" = some id.toJson) :
    (Notice.of delivery message).order? = some id := by
  have hoften : (Notice.of delivery message).order? =
      ((Message.toJson message).get? "order_id").bind OrderId.ofJson? := if_neg hdelivery
  rw [hoften, hpayload, Option.bind_some, OrderId.ofJson?_toJson]

/-- The messages that announce an event name its order. -/
theorem OrderEvent.order?_notices (event : OrderEvent) :
    ∀ notice ∈ event.notices, notice.order? = some event.orderId := by
  intro notice hnotice
  cases event with
  | placed id customer totalCents =>
      rcases List.mem_pair.1 hnotice with rfl | rfl
      · exact Notice.order?_of (by decide) rfl
      · exact Notice.order?_of (by decide) rfl
  | cancelled id reason =>
      rcases List.mem_pair.1 hnotice with rfl | rfl
      · exact Notice.order?_of (by decide) rfl
      · exact Notice.order?_of (by decide) rfl

namespace Store

/-- A transaction with one document is committed only over the version that it expects. -/
theorem documentVersion_of_check {store : Store} {pending : PendingDocument}
    (h : store.checkDocuments [] [pending] = .ok ()) :
    store.documentVersion pending.document.collection pending.document.key =
      pending.expectedVersion := by
  by_contra hne
  have hconflict : store.checkDocuments [] [pending] = .error (.conflict
      pending.document.collection pending.document.key pending.expectedVersion
      (store.documentVersion pending.document.collection pending.document.key)) := if_neg hne
  rw [hconflict] at h
  cases h

theorem noticesOf_perm {store after : Store} {rows : List Row}
    (h : after.rows.Perm (store.rows ++ rows)) (id : OrderId) :
    (after.noticesOf id).Perm
      (store.noticesOf id ++ (rows.map Row.notice).filter fun notice => notice.order? == some id) := by
  rw [noticesOf, noticesOf, ← List.filter_append, ← List.map_append]
  exact (h.map Row.notice).filter _

namespace Stands

variable {store after : Store} {id : OrderId} {standing other : Standing}

theorem documentVersion_eq (h : store.Stands id standing) :
    store.documentVersion OrderDesk.collection id.text = standing.version := by
  have hversion := congrArg (Option.map Prod.fst) h.document
  rw [Option.map_map, Option.map_map] at hversion
  rw [← standing.version_of_order? id]
  exact congrArg (Option.getD · 0) hversion

theorem unique (hone : store.Stands id standing) (htwo : store.Stands id other) :
    standing = other :=
  Standing.eq_of_order? (hone.document.symm.trans htwo.document)

/-- The document of an order reads as the order stands. -/
theorem ofDocument?_eq (h : store.Stands id standing) :
    OrderDesk.ofDocument? (store.document? OrderDesk.collection id.text) =
      .ok (standing.order? id) := by
  have hsame := h.document
  cases hstored : standing.order? id with
  | none =>
      rw [hstored, Option.map_none, Option.map_eq_none_iff] at hsame
      rw [hsame]
      rfl
  | some order =>
      rw [hstored, Option.map_some] at hsame
      obtain ⟨document, hdocument, hboth⟩ := Option.map_eq_some_iff.1 hsame
      obtain ⟨hversion, hbody⟩ := Prod.mk.inj hboth
      have hnothing : order.events = EventRecorder.empty := by
        cases standing <;> cases hstored <;> rfl
      rw [hdocument, OrderDesk.ofDocument?, OrderDesk.ofDocument, hbody, Order.ofJson?_toJson,
        hversion, ← hnothing]
      rfl

/-- The order that is read of the document stands there. -/
theorem order?_of_document (h : store.Stands id standing) {document : Document} {order : Order}
    (hdocument : store.document? OrderDesk.collection id.text = some document)
    (horder : OrderDesk.ofDocument document = .ok order) : standing.order? id = some order := by
  have hread := h.ofDocument?_eq
  rw [hdocument, OrderDesk.ofDocument?, horder] at hread
  exact (Except.ok.inj hread).symm

/-- The standing of an order is a matter of its documents and of what the rows tell. -/
theorem of_same (h : store.Stands id standing) (hdocuments : after.documents = store.documents)
    (hrows : after.rows.map Row.draft = store.rows.map Row.draft) : after.Stands id standing := by
  have hnotices : after.noticesOf id = store.noticesOf id := by
    have hsame := congrArg (List.map Draft.notice) hrows
    rw [List.map_map, List.map_map] at hsame
    exact congrArg (List.filter _) hsame
  constructor
  · rw [← h.document, document?, document?, hdocuments]
  · rw [hnotices]
    exact h.notices

section filing

variable {tx : Transaction} {order : Order} {event : OrderEvent} (hfiles : tx.Files order event)
  (hcommit : store.commit tx = .ok after) (hrows : after.rows.Perm (store.rows ++ tx.rows))

include hfiles hcommit in
/-- An order is filed over the version that it was loaded at. -/
theorem version_eq_of_files (h : store.Stands order.id standing) :
    standing.version = order.version := by
  obtain ⟨now, hdocuments⟩ := hfiles.documents
  have hcheck := (commit_eq_ok hcommit).1
  rw [hdocuments] at hcheck
  rw [← h.documentVersion_eq]
  exact documentVersion_of_check hcheck

include hfiles hcommit in
theorem document?_of_files (key : String) :
    ∃ document, document.version = order.version + 1 ∧ document.body = order.toJson ∧
      after.document? OrderDesk.collection key =
        if key = order.id.text then some document
        else store.document? OrderDesk.collection key := by
  obtain ⟨now, hdocuments⟩ := hfiles.documents
  refine ⟨⟨OrderDesk.collection, order.id.text, order.version + 1, order.toJson, now⟩, rfl, rfl, ?_⟩
  have hafter := (commit_eq_ok hcommit).2.2
  rw [hdocuments] at hafter
  rw [document?, hafter]
  refine (find?_putDocument store.documents _ OrderDesk.collection key).trans ?_
  by_cases hkey : key = order.id.text
  · simp [Document.isAt, hkey]
  · have hother : ¬ order.id.text = key := fun heq => hkey heq.symm
    simp [Document.isAt, hkey, hother, document?]

include hfiles hcommit hrows in
/-- A filed order stands as it was written, with one announcement more. -/
theorem filed {next : Standing} (h : store.Stands order.id standing)
    (hevent : event.orderId = order.id)
    (hnext : (next.order? order.id).map (fun order => (order.version, order.toJson)) =
      some (order.version + 1, order.toJson))
    (hnotices : next.notices order.id = standing.notices order.id ++ event.notices) :
    after.Stands order.id next := by
  constructor
  · obtain ⟨document, hversion, hbody, hdocument⟩ := document?_of_files hfiles hcommit order.id.text
    rw [hdocument, if_pos rfl, hnext, Option.map_some, hversion, hbody]
  · have hall : event.notices.filter (fun notice => notice.order? == some order.id) =
        event.notices := by
      refine List.filter_eq_self.2 fun notice hnotice => ?_
      rw [event.order?_notices notice hnotice, hevent, beq_self_eq_true]
    rw [hnotices]
    refine (noticesOf_perm hrows order.id).trans ?_
    rw [hfiles.rows, hall]
    exact h.notices.append_right _

include hfiles hcommit hrows in
/-- The other orders stand as they did. -/
theorem unfiled (h : store.Stands id standing) (hevent : event.orderId ≠ id) (hid : order.id ≠ id) :
    after.Stands id standing := by
  constructor
  · obtain ⟨document, _, _, hdocument⟩ := document?_of_files hfiles hcommit id.text
    have hkey : id.text ≠ order.id.text := fun heq => hid (OrderId.text_inj.1 heq).symm
    rw [hdocument, if_neg hkey]
    exact h.document
  · have hnone : event.notices.filter (fun notice => notice.order? == some id) = [] := by
      refine List.filter_eq_nil_iff.2 fun notice hnotice => ?_
      rw [event.order?_notices notice hnotice]
      simpa using hevent
    refine (noticesOf_perm hrows id).trans ?_
    rw [hfiles.rows, hnone, List.append_nil]
    exact h.notices

end filing

section commands

variable {tx : Transaction} {reason customer : String} {totalCents : Int64} {now : Instant}
  {order cancelled : Order} (hcommit : store.commit tx = .ok after)
  (hrows : after.rows.Perm (store.rows ++ tx.rows))

include hcommit hrows in
/-- An order is placed only if there is none. -/
theorem place (hplace : Order.place id customer totalCents now = .ok order)
    (hfiles : tx.Files order (.placed id customer totalCents)) (h : store.Stands id standing) :
    standing = .absent ∧ after.Stands id (.placed ⟨customer, totalCents, now⟩) ∧
      ∀ other ≠ id, ∀ others, store.Stands other others → after.Stands other others := by
  obtain rfl := Order.eq_of_place hplace
  have hversion := version_eq_of_files hfiles hcommit h
  have habsent : standing = .absent := by
    cases standing with
    | absent => rfl
    | placed placement => cases hversion
    | cancelled placement given => cases hversion
  subst habsent
  refine ⟨rfl, filed hfiles hcommit hrows h rfl rfl rfl, fun other hne others hother => ?_⟩
  exact unfiled hfiles hcommit hrows hother hne.symm hne.symm

include hcommit hrows in
/-- An order is cancelled only if it stands as it was placed, and it was placed as it was found. -/
theorem cancel {found : Standing} (horder : found.order? id = some order)
    (hcancel : order.cancel reason now = .ok cancelled)
    (hfiles : tx.Files cancelled (.cancelled order.id reason)) (hleads : found.LeadsTo standing)
    (h : store.Stands id standing) :
    ∃ placement, standing = .placed placement ∧ after.Stands id (.cancelled placement reason) ∧
      ∀ other ≠ id, ∀ others, store.Stands other others → after.Stands other others := by
  cases found with
  | absent => cases horder
  | cancelled placement given =>
      cases horder
      cases hcancel
  | placed placement =>
      cases horder
      cases hcancel
      have hversion := version_eq_of_files hfiles hcommit h
      cases hleads with
      | cancel placement given => cases hversion
      | stay standing =>
          refine ⟨placement, rfl, filed hfiles hcommit hrows h rfl rfl rfl, ?_⟩
          intro other hne others hother
          exact unfiled hfiles hcommit hrows hother hne.symm hne.symm

end commands

end Stands

end Store

end Courier
