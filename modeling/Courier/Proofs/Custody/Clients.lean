import Courier.Proofs.Custody.Orderly
import Courier.Proofs.Time.Order
import Mathlib.Logic.ExistsUnique
/-
Clients of the custodian.  They stage rows through transactions, and start operations of the
custodian with any row that was handed out, under limits of their own.  Whatever order their calls
come in, a committed row only makes moves of the delivery state machine, and stays for good once it
is processed or a dead letter.
-/
namespace Courier

variable {κ : Type}

inductive Operation where
  | changeStatus (id : RowId) (next : Status)
  | claim (row : Row)
  | claimAt (row : Row) (now : Instant)
  | reclaim (row : Row) (now : Instant)
  | markProcessed (row : Row)
  | recordFailure (row : Row) (reason : String) (next : Instant)
  | markMalformed (row : Row) (reason : String)
  | defer (row : Row) (next : Instant)

namespace Operation

def row? : Operation → Option Row
  | .changeStatus _ _ => none
  | .claim row => some row
  | .claimAt row _ => some row
  | .reclaim row _ => some row
  | .markProcessed row => some row
  | .recordFailure row _ _ => some row
  | .markMalformed row _ => some row
  | .defer row _ => some row

def program (custodian : Custodian) : Operation → Attempt κ MessagingError (Option Row)
  | .changeStatus id next => some <$> custodian.changeStatus id next
  | .claim row => custodian.claim row
  | .claimAt row now => custodian.claimAt row now
  | .reclaim row now => custodian.reclaim row now
  | .markProcessed row => some <$> custodian.markProcessed row
  | .recordFailure row reason next => some <$> custodian.recordFailure row reason next
  | .markMalformed row reason => some <$> custodian.markMalformed row reason
  | .defer row next => custodian.defer row next

end Operation

structure Errand where
  custodian : Custodian
  operation : Operation

/-- Clients call the operations with rows that were handed out, at any time later.  Everything else
that a store does for them, they may ask of it directly.  Any call may fail, with or without
effect. -/
def clients (κ : Type) : Rules κ Errand (Except MessagingError (Option Row)) where
  admits handed errand := errand.operation.row?.all (handed.contains ·)
  program errand := errand.operation.program errand.custodian
  bystander call := !call.isSwap
  mishap _ _ := true
  clears := false

/-- A client that knows some rows changes one of them as its custodian permits, and learns of the
rows that it is shown. -/
def custody (κ : Type) (custodian : Custodian) : Protocol κ (List Row) where
  allows known call := ∀ change, call = .swap change → ∃ row ∈ known, custodian.Permits row change
  next known call answer := call.shown answer ++ known

namespace Custodian

variable {custodian : Custodian} {known : List Row} {row : Row}

/-- The program ends without another call, or keeps to the protocol of clients. -/
abbrev Keeps {α : Type} (custodian : Custodian) (known : List Row)
    (program : Attempt κ MessagingError α) : Prop :=
  Program.Keeps (custody κ custodian) (fun _ _ => True) program known

theorem keeps_swap {change : Change} (hrow : row ∈ known)
    (hpermits : custodian.Permits row change) :
    Keeps custodian known (swap change : Attempt κ MessagingError _) := by
  refine Program.Keeps.calling ⟨fun other hother => ?_, fun answer _ => trivial⟩
  cases hother
  exact ⟨row, hrow, hpermits⟩

theorem keeps_apply {change : Change} (hrow : row ∈ known)
    (hpermits : custodian.Permits row change) :
    Keeps custodian known (apply change : Attempt κ MessagingError Row) := by
  refine Program.Keeps.andThen (Program.Keeps.calling ⟨fun other hother => ?_, fun answer _ => ?_⟩)
  · cases hother
    exact ⟨row, hrow, hpermits⟩
  · refine ⟨fun value _ => ?_, fun error _ => trivial⟩
    cases value with
    | some changed => trivial
    | none => trivial

theorem keeps_now {α : Type} {rest : Instant → Attempt κ MessagingError α}
    (h : ∀ now, Keeps custodian known (rest now)) :
    Keeps custodian known (ExceptT.lift (Program.now κ) >>= rest) := by
  refine ⟨fun change hswap => ?_, fun now _ => h now⟩
  cases hswap

theorem keeps_map {α β : Type} {f : α → β} {attempt : Attempt κ MessagingError α}
    (h : Keeps custodian known attempt) : Keeps custodian known (f <$> attempt) := by
  refine Program.Keeps.bind (Program.Keeps.mono h fun outcome phase _ => ?_)
  cases outcome with
  | ok value => trivial
  | error error => trivial

/-- Each edge of the state machine has its change. -/
theorem permits_statusChange {next : Status} (now : Instant)
    (hlook : row.refusal? next custodian.maxRetries = none) :
    custodian.Permits row (custodian.statusChange row next now) := by
  cases next with
  | failed => exact .failure none now row.nextAttemptAt hlook
  | processing => exact .claim now hlook
  | processed => exact .processed now hlook
  | stored =>
      obtain ⟨hedge, _, _⟩ := Row.refusal?_eq_none_iff.1 hlook
      cases hstatus : row.status <;> simp [hstatus, Status.leadsTo] at hedge

theorem keeps_changeStatus (id : RowId) (next : Status) :
    Keeps custodian known (custodian.changeStatus id next : Attempt κ MessagingError Row) := by
  refine Program.Keeps.andThen (Program.Keeps.calling ⟨fun change hswap => ?_, ?_⟩)
  · cases hswap
  intro answer _
  match answer with
  | .error error =>
      refine ⟨fun value hvalue => ?_, fun _ _ => trivial⟩
      cases hvalue
  | .ok none => exact ⟨fun value hvalue => by cases hvalue; trivial, fun _ _ => trivial⟩
  | .ok (some row) =>
      refine ⟨fun value hvalue => ?_, fun _ _ => trivial⟩
      cases hvalue
      refine keeps_checked (fun hlook => keeps_now fun now => ?_) fun _ => trivial
      exact keeps_apply (List.mem_cons_self ..) (permits_statusChange now hlook)

end Custodian

/-- Every operation makes at most one change, a permitted one of the row that it has looked at. -/
theorem Operation.keeps (custodian : Custodian) (operation : Operation) :
    Program.Keeps (custody κ custodian) (fun _ _ => True) (operation.program custodian)
      operation.row?.toList := by
  cases operation with
  | changeStatus id next => exact Custodian.keeps_map (Custodian.keeps_changeStatus id next)
  | claim row =>
      refine Custodian.keeps_now fun now => Custodian.keeps_checked (fun hlook => ?_) fun _ => trivial
      exact Custodian.keeps_swap (List.mem_singleton_self row) (.claim now hlook)
  | claimAt row now =>
      refine Custodian.keeps_checked (fun hlook => ?_) fun _ => trivial
      exact Custodian.keeps_swap (List.mem_singleton_self row) (.claim now hlook)
  | reclaim row now =>
      change Program.Keeps _ _ (custodian.reclaim row now) [row]
      unfold Custodian.reclaim
      split
      · exact Custodian.keeps_swap (List.mem_singleton_self row) (.reclaim now ‹_›)
      · trivial
  | markProcessed row =>
      refine Custodian.keeps_map (Custodian.keeps_checked (fun hlook => ?_) fun _ => trivial)
      refine Custodian.keeps_now fun now => ?_
      exact Custodian.keeps_apply (List.mem_singleton_self row) (.processed now hlook)
  | recordFailure row reason next =>
      refine Custodian.keeps_map (Custodian.keeps_checked (fun hlook => ?_) fun _ => trivial)
      refine Custodian.keeps_now fun now => ?_
      exact Custodian.keeps_apply (List.mem_singleton_self row)
        (.failure (some reason) now next hlook)
  | markMalformed row reason =>
      refine Custodian.keeps_map (Custodian.keeps_checked (fun hlook => ?_) fun _ => trivial)
      refine Custodian.keeps_now fun now => ?_
      exact Custodian.keeps_apply (List.mem_singleton_self row)
        (.malformed reason now hlook)
  | defer row next =>
      change Program.Keeps _ _ (custodian.defer row next) [row]
      unfold Custodian.defer
      split
      · exact Custodian.keeps_swap (List.mem_singleton_self row) (.postpone next ‹_›)
      · trivial

theorem clients_orderly (κ : Type) : (clients κ).Orderly := by
  refine Rules.orderly_of_follows (fun errand => custody κ errand.custodian)
    (fun errand => errand.operation.row?.toList)
    (fun errand => errand.operation.keeps errand.custodian) id ?_ ?_ ?_ ?_ rfl
  · intro errand known change hallows
    obtain ⟨row, hrow, hpermits⟩ := hallows change rfl
    exact ⟨row, hrow, hpermits.lawful⟩
  · intro errand known call answer row hrow
    exact List.mem_append.1 hrow
  · intro handed errand hadmits row hrow
    simpa [clients, Option.mem_toList.1 hrow] using hadmits
  · intro change
    rfl

/-- In every interleaving of clients, a committed row that changes makes exactly one move, and its
version grows by one.  A row that is processed or a dead letter never changes again. -/
theorem clients_move_rows (action : Action κ Errand) (actions : List (Action κ Errand)) {id : RowId}
    {row : Row} (hrow : ((clients κ).world actions).store.get? id = some row) :
    (∃ after, ((clients κ).world (action :: actions)).store.get? id = some after ∧
      (after = row ∨ row.SameMessage after ∧ after.version = row.version + 1 ∧
        ∃! move : Move, move.Leads row after)) ∧
    (row.isTerminal = true → ∀ later,
      ((clients κ).world (later ++ actions)).store.get? id = some row) := by
  have horderly := clients_orderly κ
  constructor
  · obtain ⟨after, hafter, heq | ⟨change, hlawful, heq⟩⟩ := horderly.turns_in_step action hrow
    · exact ⟨after, hafter, Or.inl heq⟩
    · subst heq
      obtain ⟨move, hmove⟩ := hlawful.leads (horderly.regular actions hrow)
      refine ⟨_, hafter, Or.inr ⟨row.sameMessage_apply change, rfl, move, hmove, ?_⟩⟩
      intro other hother
      exact Move.eq_of_leads hother hmove
  · intro hterminal later
    exact horderly.terminal_stays later hrow hterminal

/-- A message without contents, for use in examples. -/
def note : Draft := ⟨⟨Uuid.nil⟩, "Note", .null, .internal, ⟨Uuid.nil⟩, none⟩

/-- A client commits a note, and another is about to claim it. -/
def notePosted : List (Action Unit Errand) :=
  [.start ⟨Custodian.standard, .claimAt (Row.fresh ⟨1⟩ note epoch) epoch⟩,
    .call (.commit ⟨[Row.fresh ⟨1⟩ note epoch], []⟩) { clock := epoch },
    .call (.stage Transaction.empty note) { clock := epoch },
    .call .begin { clock := epoch }]

theorem note_moves :
    ((clients Unit).world notePosted).store.get? ⟨1⟩ = some (Row.fresh ⟨1⟩ note epoch) ∧
      (∃ after, ((clients Unit).world (.work 0 { clock := epoch } :: notePosted)).store.get? ⟨1⟩ =
          some after ∧
        (after = Row.fresh ⟨1⟩ note epoch ∨ (Row.fresh ⟨1⟩ note epoch).SameMessage after ∧
          after.version = (Row.fresh ⟨1⟩ note epoch).version + 1 ∧
          ∃! move : Move, move.Leads (Row.fresh ⟨1⟩ note epoch) after)) ∧
      ((Row.fresh ⟨1⟩ note epoch).isTerminal = true → ∀ later,
        ((clients Unit).world (later ++ notePosted)).store.get? ⟨1⟩ =
          some (Row.fresh ⟨1⟩ note epoch)) := by
  have hrow : ((clients Unit).world notePosted).store.get? ⟨1⟩ =
      some (Row.fresh ⟨1⟩ note epoch) := by decide
  exact ⟨hrow, clients_move_rows (.work 0 { clock := epoch }) notePosted hrow⟩

end Courier
