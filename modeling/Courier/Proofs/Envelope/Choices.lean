import Courier.Envelope.Builder
import Courier.Proofs.Table
/-
Choices about metadata.  Whatever is chosen about an envelope in the making, and in whatever order, of
each field and of each header the last choice counts, and what nothing was chosen about stays as it was.
-/
namespace Courier

namespace Override

def messageId? : Override → Option MessageId
  | .messageId id => some id
  | _ => none

def correlationId? : Override → Option CorrelationId
  | .correlationId id => some id
  | _ => none

/-- A cause, or that there is none. -/
def causationId? : Override → Option (Option MessageId)
  | .causationId id => some (some id)
  | .noCausation => some none
  | _ => none

def createdAt? : Override → Option Instant
  | .createdAt time => some time
  | _ => none

def header? (key : String) : Override → Option String
  | .header name value => if name = key then some value else none
  | _ => none

def key? : Override → Option String
  | .header name _ => some name
  | _ => none

variable {β : Type} {about : Override → Option β}

/-- The last choice that says something about a matter. -/
def last? (about : Override → Option β) (overrides : List Override) : Option β :=
  overrides.reverse.findSome? about

theorem last?_append (overrides more : List Override) :
    last? about (overrides ++ more) = (last? about more).or (last? about overrides) := by
  simp only [last?, List.reverse_append, List.findSome?_append]

theorem last?_cons (override : Override) (overrides : List Override) :
    last? about (override :: overrides) = (last? about overrides).or (about override) := by
  simp only [last?, List.reverse_cons, List.findSome?_append, List.findSome?_singleton]

theorem last?_eq_none_iff {overrides : List Override} :
    last? about overrides = none ↔ ∀ override ∈ overrides, about override = none := by
  simp [last?]

/-- Something is chosen for a header just when a choice is about it. -/
theorem last?_header_isSome_iff {overrides : List Override} {key : String} :
    (last? (header? key) overrides).isSome = true ↔ key ∈ overrides.filterMap key? := by
  have habout : ∀ override, (header? key override).isSome = true ↔ key? override = some key := by
    intro override
    cases override with
    | header name value => by_cases h : name = key <;> simp [header?, key?, h]
    | messageId | correlationId | causationId | noCausation | createdAt => simp [header?, key?]
  simp only [last?, List.findSome?_isSome_iff, List.mem_reverse, List.mem_filterMap, habout]

end Override

/-- The metadata that choices make of `base`: of each matter the last choice counts, and where there is
none it stays as it was.  The type of the payload is not to be chosen. -/
structure Metadata.Chosen (base : Metadata) (overrides : List Override) (final : Metadata) : Prop where
  messageId : final.messageId = (Override.last? Override.messageId? overrides).getD base.messageId
  correlationId : final.correlationId =
    (Override.last? Override.correlationId? overrides).getD base.correlationId
  causationId : final.causationId =
    (Override.last? Override.causationId? overrides).getD base.causationId
  createdAt : final.createdAt = (Override.last? Override.createdAt? overrides).getD base.createdAt
  header? : ∀ key, key ≠ typeHeader → final.header? key =
    (Override.last? (Override.header? key) overrides).or (base.header? key)
  typeName? : final.typeName? = base.typeName?

namespace Metadata.Chosen

variable {base middle final : Metadata} {overrides more : List Override}

theorem none (base : Metadata) : base.Chosen [] base :=
  ⟨rfl, rfl, rfl, rfl, fun _ _ => rfl, rfl⟩

theorem trans (h : base.Chosen overrides middle) (hmore : middle.Chosen more final) :
    base.Chosen (overrides ++ more) final where
  messageId := by
    rw [hmore.messageId, h.messageId, Override.last?_append, Option.getD_or]
  correlationId := by
    rw [hmore.correlationId, h.correlationId, Override.last?_append, Option.getD_or]
  causationId := by
    rw [hmore.causationId, h.causationId, Override.last?_append, Option.getD_or]
  createdAt := by
    rw [hmore.createdAt, h.createdAt, Override.last?_append, Option.getD_or]
  header? key hkey := by
    rw [hmore.header? key hkey, h.header? key hkey, Override.last?_append, Option.or_assoc]
  typeName? := hmore.typeName?.trans h.typeName?

end Metadata.Chosen

namespace Builder

variable {α β : Type}

/-- The metadata that the envelope would have, given its identity and the time. -/
def metadata (builder : Builder α) (id : MessageId) (now : Instant) : Metadata where
  messageId := id
  correlationId := builder.correlationId
  causationId := builder.causationId
  createdAt := builder.createdAt.getD now
  headers := builder.headers.insert typeHeader builder.typeName

theorem typeName?_metadata (builder : Builder α) (id : MessageId) (now : Instant) :
    (builder.metadata id now).typeName? = some builder.typeName :=
  Table.get?_insert_self ..

theorem header?_metadata (builder : Builder α) (id : MessageId) (now : Instant) {key : String}
    (h : key ≠ typeHeader) : (builder.metadata id now).header? key = builder.headers.get? key :=
  Table.get?_insert_of_ne _ h _

section

variable (builder : Builder α) (overrides : List Override)

/-- What is seen of a builder after some choices, when each choice that says something about it replaces
it. -/
theorem chooseAll_eq_or (view : Builder α → Option β) (about : Override → Option β)
    (hchoose : ∀ builder override, view (choose builder override) =
      (about override).or (view builder)) :
    view (builder.chooseAll overrides) = (Override.last? about overrides).or (view builder) := by
  induction overrides generalizing builder with
  | nil => rfl
  | cons override overrides ih =>
      change view ((builder.choose override).chooseAll overrides) = _
      rw [ih, hchoose, Override.last?_cons, Option.or_assoc]

/-- The same of what a builder always has. -/
theorem chooseAll_eq_getD (view : Builder α → β) (about : Override → Option β)
    (hchoose : ∀ builder override, view (choose builder override) =
      (about override).getD (view builder)) :
    view (builder.chooseAll overrides) = (Override.last? about overrides).getD (view builder) := by
  have hsome := builder.chooseAll_eq_or overrides (fun builder => some (view builder)) about
    fun builder override => by rw [hchoose, Option.or_some]
  rw [Option.or_some] at hsome
  exact Option.some.inj hsome

/-- What no choice is about stays. -/
theorem chooseAll_of_kept (view : Builder α → β)
    (hchoose : ∀ builder override, view (choose builder override) = view builder) :
    view (builder.chooseAll overrides) = view builder := by
  rw [builder.chooseAll_eq_getD overrides view (fun _ => none) hchoose,
    Override.last?_eq_none_iff.2 fun _ _ => rfl, Option.getD_none]

theorem chooseAll_message : (builder.chooseAll overrides).message = builder.message :=
  builder.chooseAll_of_kept overrides message fun _ override => by
    cases override <;> rfl

theorem chooseAll_typeName : (builder.chooseAll overrides).typeName = builder.typeName :=
  builder.chooseAll_of_kept overrides typeName fun _ override => by
    cases override <;> rfl

theorem chooseAll_messageId : (builder.chooseAll overrides).messageId =
    (Override.last? Override.messageId? overrides).or builder.messageId :=
  builder.chooseAll_eq_or overrides messageId Override.messageId? fun _ override => by
    cases override <;> rfl

theorem chooseAll_createdAt : (builder.chooseAll overrides).createdAt =
    (Override.last? Override.createdAt? overrides).or builder.createdAt :=
  builder.chooseAll_eq_or overrides createdAt Override.createdAt? fun _ override => by
    cases override <;> rfl

theorem chooseAll_correlationId : (builder.chooseAll overrides).correlationId =
    (Override.last? Override.correlationId? overrides).getD builder.correlationId :=
  builder.chooseAll_eq_getD overrides correlationId Override.correlationId? fun _ override => by
    cases override <;> rfl

theorem chooseAll_causationId : (builder.chooseAll overrides).causationId =
    (Override.last? Override.causationId? overrides).getD builder.causationId :=
  builder.chooseAll_eq_getD overrides causationId Override.causationId? fun _ override => by
    cases override <;> rfl

theorem chooseAll_header? (key : String) : (builder.chooseAll overrides).headers.get? key =
    (Override.last? (Override.header? key) overrides).or (builder.headers.get? key) := by
  refine builder.chooseAll_eq_or overrides (fun builder => builder.headers.get? key)
    (Override.header? key) fun builder override => ?_
  cases override with
  | header name value =>
      by_cases h : name = key
      · subst h
        simp [choose, Override.header?]
      · simp [choose, Override.header?, h, Ne.symm h]
  | messageId | correlationId | causationId | noCausation | createdAt => rfl

/-- Whatever identity an envelope is given where none was chosen, its metadata is what the choices make
of the metadata without them. -/
theorem chosen_metadata (id : MessageId) (now : Instant) :
    (builder.metadata id now).Chosen overrides ((builder.chooseAll overrides).metadata
      ((Override.last? Override.messageId? overrides).getD id) now) where
  messageId := rfl
  correlationId := builder.chooseAll_correlationId overrides
  causationId := builder.chooseAll_causationId overrides
  createdAt := by
    change ((builder.chooseAll overrides).createdAt).getD now = _
    rw [chooseAll_createdAt, Option.getD_or]
    rfl
  header? key hkey := by
    rw [header?_metadata _ _ _ hkey, header?_metadata _ _ _ hkey, chooseAll_header?]
  typeName? := by
    rw [typeName?_metadata, typeName?_metadata, chooseAll_typeName]

end

end Builder

end Courier
