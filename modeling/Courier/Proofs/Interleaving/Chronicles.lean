import Courier.Custody.Custodian
import Courier.Custody.Staging
import Courier.Proofs.Envelope.Lineage
import Courier.Proofs.Envelope.Wire
import Courier.Proofs.Interleaving.Drafts
import Courier.Proofs.Publishing.Runs
/-
Chronicles.  Programs in which the making of envelopes is marked are at work on one store, and a list is
kept of what they make.  If every context is a root or taken from an envelope that was made before, be it
at hand or read from a row, the list is a descent, whatever else goes on around the store.
-/
namespace Courier

variable {κ α : Type}

def Draft.Stores (draft : Draft) (holds : Metadata → Prop) : Prop :=
  ∃ raw typeName delivery, draft = Staging.draftOf raw typeName delivery ∧ holds raw.metadata

def Row.Blocks (store : Store) (cause row : Row) : Prop :=
  cause ∈ store.rows ∧ cause.delivery ≠ .inbox ∧ cause.status ≠ .processed ∧
    row.causationId = some cause.messageId

def Row.lineage (row : Row) : Lineage :=
  ⟨row.messageId, row.correlationId, row.causationId⟩

/-- The look at a cause, when the store answers. -/
theorem Custodian.run_causeResolved (store : Store) {manner : Manner} (hmishap : manner.mishap = none)
    (cause : MessageId) :
    (Program.run (fun call store => store.respond manner call)
      (Custodian.causeResolved cause : Attempt κ MessagingError Bool).run store).1 =
        .ok ((store.outgoingStatuses cause).all (· == .processed)) := by
  have hdone : store.respond manner (.outgoing cause : Call κ) =
      (.ok (store.outgoingStatuses cause), store) := Manner.onStore_of_none hmishap ..
  have hlook : Program.Ends (fun call store => Store.respond store manner call)
      (Attempt.calling .store (Program.perform (.outgoing cause)) :
        Attempt κ MessagingError (List Status)) store
      fun outcome _ => outcome = .ok (store.outgoingStatuses cause) := by
    refine Program.Ends.calling ?_
    change (store.respond manner (.outgoing cause : Call κ)).1.mapError _ = _
    rw [hdone]
    rfl
  change Program.Ends _ (causeResolved cause : Attempt κ MessagingError Bool) store fun outcome _ =>
    outcome = .ok ((store.outgoingStatuses cause).all (· == .processed))
  refine Program.Ends.andThen hlook ?_ ?_
  · rintro _ after ⟨⟩
    rfl
  · rintro _ _ ⟨⟩

/-- A program in which the making of envelopes is marked, and where each context is taken from. -/
inductive Plan (κ α : Type) where
  | done (value : α)
  | wrap (typeName : String) (origin : Origin) (next : Metadata → Plan κ α)
  | ask (call : Call κ) (next : call.Answer → Plan κ α)

namespace Plan

def program : Plan κ α → Program κ α
  | .done value => .done value
  | .wrap typeName origin next =>
      (Envelope.wrapAs typeName () origin.context).bind fun envelope => (next envelope.metadata).program
  | .ask call next => .ask call fun answer => (next answer).program

/-- What is left of a plan that has taken the identifier for an envelope. -/
def wrapping (typeName : String) (origin : Origin) (next : Metadata → Plan κ α) (id : Uuid) :
    Plan κ α :=
  .ask .now fun now => next (Metadata.fresh ⟨id⟩ now typeName origin.context)

theorem program_wrap (typeName : String) (origin : Origin) (next : Metadata → Plan κ α) :
    (wrap typeName origin next).program = .ask .mint fun id => (wrapping typeName origin next id).program :=
  rfl

end Plan

/-- Any plans at work on one store that others use, too, though not to stage messages.  Every call may
fail, and the store may be cleared. -/
def planned (κ : Type) : Rules κ (Plan κ Unit) Unit where
  admits _ _ := true
  program := Plan.program
  bystander call := call.draft?.isNone
  mishap _ _ := true
  clears := true

/-- A world, what is left of the plan of each job in it, and the envelopes that were made, latest
first. -/
structure Chronicle (κ : Type) where
  world : World κ (Plan κ Unit) Unit
  left : List (Plan κ Unit)
  made : List Creation

namespace Chronicle

def after (chronicle : Chronicle κ) (action : Action κ (Plan κ Unit)) : Chronicle κ :=
  let world := (planned κ).step chronicle.world action
  match action with
  | .start plan => ⟨world, chronicle.left ++ [plan], chronicle.made⟩
  | .work number manner =>
      match chronicle.left[number]? with
      | some (.wrap typeName origin next) =>
          let metadata := Metadata.fresh ⟨manner.minted⟩ manner.clock typeName origin.context
          ⟨world, chronicle.left.set number (.wrapping typeName origin next manner.minted),
            ⟨origin, metadata.lineage⟩ :: chronicle.made⟩
      | some (.ask call next) =>
          if (planned κ).allows chronicle.world call manner then
            ⟨world, chronicle.left.set number (next (chronicle.world.store.respond manner call).1),
              chronicle.made⟩
          else { chronicle with world := world }
      | _ => { chronicle with world := world }
  | _ => { chronicle with world := world }

def of : List (Action κ (Plan κ Unit)) → Chronicle κ
  | [] => ⟨World.start, [], []⟩
  | action :: earlier => (of earlier).after action

theorem world_after (chronicle : Chronicle κ) (action : Action κ (Plan κ Unit)) :
    (chronicle.after action).world = (planned κ).step chronicle.world action := by
  unfold after
  split
  · rfl
  · split
    · rfl
    · split <;> rfl
    · rfl
  · rfl

theorem world_of (actions : List (Action κ (Plan κ Unit))) :
    (of actions).world = (planned κ).world actions := by
  induction actions with
  | nil => rfl
  | cons action earlier ih =>
      change ((of earlier).after action).world = (planned κ).step _ action
      rw [world_after, ih]

/-- What an action can come to: what is left of the plans, and what is made. -/
inductive Next (chronicle : Chronicle κ) :
    Action κ (Plan κ Unit) → List (Plan κ Unit) → List Creation → Prop where
  | idle (action : Action κ (Plan κ Unit)) :
      Next chronicle action chronicle.left chronicle.made
  | started (plan : Plan κ Unit) :
      Next chronicle (.start plan) (chronicle.left ++ [plan]) chronicle.made
  | wrapped {number : Nat} {typeName : String} {origin : Origin} {next : Metadata → Plan κ Unit}
      (manner : Manner) (hleft : chronicle.left[number]? = some (.wrap typeName origin next)) :
      Next chronicle (.work number manner)
        (chronicle.left.set number (.wrapping typeName origin next manner.minted))
        (⟨origin, .fresh ⟨manner.minted⟩ origin.context⟩ :: chronicle.made)
  | asked {number : Nat} {call : Call κ} {next : call.Answer → Plan κ Unit} (manner : Manner)
      (hleft : chronicle.left[number]? = some (.ask call next))
      (hallows : (planned κ).allows chronicle.world call manner = true) :
      Next chronicle (.work number manner)
        (chronicle.left.set number (next (chronicle.world.store.respond manner call).1)) chronicle.made

theorem after_next (chronicle : Chronicle κ) (action : Action κ (Plan κ Unit)) :
    chronicle.Next action (chronicle.after action).left (chronicle.after action).made := by
  cases action with
  | start plan => exact .started plan
  | work number manner =>
      cases hleft : chronicle.left[number]? with
      | none =>
          simp only [after, hleft]
          exact .idle _
      | some plan =>
          cases plan with
          | done value =>
              simp only [after, hleft]
              exact .idle _
          | wrap typeName origin next =>
              simp only [after, hleft]
              exact .wrapped manner hleft
          | ask call next =>
              simp only [after, hleft]
              split
              · exact .asked manner hleft ‹_›
              · exact .idle _
  | call call manner => exact .idle _
  | clear => exact .idle _

theorem made_after (chronicle : Chronicle κ) (action : Action κ (Plan κ Unit)) :
    chronicle.made ⊆ (chronicle.after action).made := by
  have hnext := chronicle.after_next action
  generalize (chronicle.after action).left = left, (chronicle.after action).made = made at hnext ⊢
  cases hnext with
  | wrapped manner hleft => exact List.subset_cons_self _ _
  | _ => exact List.Subset.refl _

def InStep (chronicle : Chronicle κ) : Prop :=
  chronicle.world.jobs.map Job.rest = chronicle.left.map Plan.program

/-- Nothing keeps anybody from taking an identifier. -/
theorem allows_mint (world : World κ (Plan κ Unit) Unit) (manner : Manner) :
    (planned κ).allows world .mint manner = true := by
  cases hmishap : manner.mishap <;> simp [Rules.allows, World.mayCall, Call.transaction?, planned, hmishap]

namespace InStep

variable {chronicle : Chronicle κ} {number : Nat}

theorem job (h : chronicle.InStep) {plan : Plan κ Unit}
    (hleft : chronicle.left[number]? = some plan) :
    ∃ task, chronicle.world.jobs[number]? = some ⟨task, plan.program⟩ := by
  have hrest := congrArg (·[number]?) h
  simp only [List.getElem?_map, hleft, Option.map_some, Option.map_eq_some_iff] at hrest
  obtain ⟨⟨task, rest⟩, hjob, rfl⟩ := hrest
  exact ⟨task, hjob⟩

theorem plan (h : chronicle.InStep) {task : Plan κ Unit} {rest : Program κ Unit}
    (hjob : chronicle.world.jobs[number]? = some ⟨task, rest⟩) :
    ∃ plan, chronicle.left[number]? = some plan ∧ plan.program = rest := by
  have hrest := congrArg (·[number]?) h
  simp only [List.getElem?_map, hjob, Option.map_some] at hrest
  exact Option.map_eq_some_iff.1 hrest.symm

theorem set (h : chronicle.InStep) (number : Nat) {task : Plan κ Unit} {plan : Plan κ Unit}
    {rest : Program κ Unit} (hrest : rest = plan.program) :
    (chronicle.world.jobs.set number ⟨task, rest⟩).map Job.rest =
      (chronicle.left.set number plan).map Plan.program := by
  rw [List.map_set, List.map_set, hrest]
  exact congrArg (·.set number plan.program) h

theorem after (h : chronicle.InStep) (action : Action κ (Plan κ Unit)) :
    (chronicle.after action).InStep := by
  unfold InStep
  rw [world_after]
  cases action with
  | start plan => simp [Chronicle.after, Rules.step, planned, h.symm]
  | work number manner =>
      cases hleft : chronicle.left[number]? with
      | none =>
          have hjob : chronicle.world.jobs[number]? = none := by
            rw [Option.eq_none_iff_forall_ne_some]
            rintro ⟨task, rest⟩ hjob
            obtain ⟨plan, hplan, _⟩ := h.plan hjob
            cases hleft.symm.trans hplan
          simp only [Chronicle.after, Rules.step, hleft, hjob]
          exact h
      | some plan =>
          obtain ⟨task, hjob⟩ := h.job hleft
          cases plan with
          | done value =>
              simp only [Chronicle.after, Rules.step, hleft, hjob, Plan.program]
              exact h
          | wrap typeName origin next =>
              rw [Plan.program_wrap] at hjob
              simp only [Chronicle.after, Rules.step, hleft, hjob, allows_mint, if_true]
              exact h.set number rfl
          | ask call next =>
              simp only [Chronicle.after, Rules.step, hleft, hjob, Plan.program]
              split
              · exact h.set number rfl
              · exact h
  | call call manner =>
      simp only [Chronicle.after, Rules.step]
      split <;> exact h
  | clear => exact h

/-- A call that is allowed is the latest afterwards. -/
theorem history_after (h : chronicle.InStep) {plan : Plan κ Unit}
    (hleft : chronicle.left[number]? = some plan) {call : Call κ}
    {next : call.Answer → Program κ Unit} (hplan : plan.program = .ask call next) {manner : Manner}
    (hallows : (planned κ).allows chronicle.world call manner = true) :
    ∃ worker, (chronicle.after (.work number manner)).world.history =
      chronicle.world.moment worker call manner :: chronicle.world.history := by
  obtain ⟨task, hjob⟩ := h.job hleft
  rw [hplan] at hjob
  refine ⟨some ⟨number, task⟩, ?_⟩
  rw [world_after]
  simp only [Rules.step, hjob, hallows, if_true]
  rfl

theorem of (actions : List (Action κ (Plan κ Unit))) : (Chronicle.of actions).InStep := by
  induction actions with
  | nil => rfl
  | cons action earlier ih => exact ih.after action

end InStep

/-- Metadata of an envelope that was made, or is restored from the data of a row. -/
inductive Knows (chronicle : Chronicle κ) : Metadata → Prop where
  | made {metadata : Metadata} (hmade : metadata.lineage ∈ chronicle.made.map Creation.lineage) :
      chronicle.Knows metadata
  | restored {row : Row} {raw : RawEnvelope} (hrow : row ∈ chronicle.world.known)
      (hraw : RawEnvelope.ofJson row.data = .ok raw) : chronicle.Knows raw.metadata

/-- Envelopes are made under identifiers that no earlier one has, and in contexts that are roots or taken
from what is known; what is staged is known.  All else is free. -/
def Permits (chronicle : Chronicle κ) : Action κ (Plan κ Unit) → Prop
  | .work number manner =>
      match chronicle.left[number]? with
      | some (.wrap _ origin _) =>
          (∀ metadata, origin = .caused metadata → chronicle.Knows metadata) ∧
            ∀ creation ∈ chronicle.made, creation.lineage.messageId ≠ ⟨manner.minted⟩
      | some (.ask call _) => ∀ draft, call.draft? = some draft → draft.Stores chronicle.Knows
      | _ => True
  | _ => True

def Lawful : List (Action κ (Plan κ Unit)) → Prop
  | [] => True
  | action :: earlier => Lawful earlier ∧ (of earlier).Permits action

structure Kept (chronicle : Chronicle κ) : Prop where
  descent : Descent chronicle.made
  staged : ∀ draft, StagedIn chronicle.world.history draft →
    draft.Stores (·.lineage ∈ chronicle.made.map Creation.lineage)

/-- Whatever was staged was staged before, or it is permitted now. -/
theorem staged_after {chronicle : Chronicle κ} (hstep : chronicle.InStep)
    {action : Action κ (Plan κ Unit)} (hpermits : chronicle.Permits action) {draft : Draft}
    (h : StagedIn (chronicle.after action).world.history draft) :
    StagedIn chronicle.world.history draft ∨ draft.Stores chronicle.Knows := by
  rw [world_after] at h
  rcases (planned κ).step_history chronicle.world action with hsame | ⟨moment, hmakes, hmore, hworker⟩
  · exact Or.inl (hsame ▸ h)
  · rw [hmore] at h
    obtain ⟨staging, hstaging, hdraft⟩ := h
    rcases List.mem_cons.1 hstaging with rfl | hold
    · refine Or.inr ?_
      cases hwho : staging.worker with
      | none =>
          have hnone := Option.isNone_iff_eq_none.1 (hmakes.bystander hwho)
          cases hnone.symm.trans hdraft
      | some worker =>
          obtain ⟨manner, rfl⟩ := hworker worker hwho
          obtain ⟨next, hjob⟩ := hmakes.worker worker hwho
          obtain ⟨plan, hleft, hplan⟩ := hstep.plan hjob
          simp only [Permits, hleft] at hpermits
          cases plan with
          | done value => cases hplan
          | wrap typeName origin next =>
              rw [Plan.program_wrap] at hplan
              injection hplan with hcall
              rw [← hcall] at hdraft
              cases hdraft
          | ask call next =>
              injection hplan with hcall
              exact hpermits draft (hcall ▸ hdraft)
    · exact Or.inl ⟨staging, hold, hdraft⟩

/-- What a row stores is the envelope that was staged. -/
theorem Kept.of_known {actions : List (Action κ (Plan κ Unit))} (h : (of actions).Kept) {row : Row}
    (hrow : row ∈ (of actions).world.known) :
    row.draft.Stores (·.lineage ∈ (of actions).made.map Creation.lineage) := by
  refine h.staged row.draft ?_
  rw [world_of] at hrow ⊢
  exact World.known_stagedIn (planned κ) actions hrow

theorem Kept.lineage_made {actions : List (Action κ (Plan κ Unit))} (h : (of actions).Kept)
    {metadata : Metadata} (hknows : (of actions).Knows metadata) :
    metadata.lineage ∈ (of actions).made.map Creation.lineage := by
  cases hknows with
  | made hmade => exact hmade
  | @restored row raw hrow hraw =>
      obtain ⟨stored, typeName, delivery, hdraft, hmade⟩ := h.of_known hrow
      have hdata : row.data = RawEnvelope.toJson stored := congrArg Draft.data hdraft
      rw [hdata, RawEnvelope.ofJson_toJson] at hraw
      obtain rfl := Except.ok.inj hraw
      exact hmade

theorem Kept.after {earlier : List (Action κ (Plan κ Unit))} (h : (of earlier).Kept)
    {action : Action κ (Plan κ Unit)} (hpermits : (of earlier).Permits action) :
    ((of earlier).after action).Kept where
  descent := by
    have hnext := (of earlier).after_next action
    generalize ((of earlier).after action).left = left, ((of earlier).after action).made = made at hnext ⊢
    cases hnext with
    | @wrapped number typeName origin next manner hleft =>
        simp only [Permits, hleft] at hpermits
        refine .cons h.descent ?_ hpermits.2
        cases origin with
        | root id => exact List.nil_subset _
        | caused metadata =>
            exact List.cons_subset.2 ⟨h.lineage_made (hpermits.1 metadata rfl), List.nil_subset _⟩
    | _ => exact h.descent
  staged draft hdraft := by
    have hmore := List.map_subset Creation.lineage ((of earlier).made_after action)
    rcases staged_after (.of earlier) hpermits hdraft with hold | ⟨raw, typeName, delivery, hnow, hknows⟩
    · obtain ⟨raw, typeName, delivery, hthen, hmade⟩ := h.staged draft hold
      exact ⟨raw, typeName, delivery, hthen, hmore hmade⟩
    · exact ⟨raw, typeName, delivery, hnow, hmore (h.lineage_made hknows)⟩

/-- Along a lawful course of actions what is made is a descent, and what is staged was made. -/
theorem kept {actions : List (Action κ (Plan κ Unit))} (h : Lawful actions) : (of actions).Kept := by
  induction actions with
  | nil =>
      refine ⟨.nil, ?_⟩
      rintro draft ⟨moment, hmoment, _⟩
      cases hmoment
  | cons action earlier ih => exact (ih h.1).after h.2

/-- What can be said of the envelopes that were made, and of the rows that store them. -/
structure Sound (chronicle : Chronicle κ) : Prop where
  /-- No two envelopes share an identifier. -/
  distinct : (chronicle.made.map (·.lineage.messageId)).Nodup
  /-- Every envelope names the one that its context was taken from, if any, as its cause. -/
  traced : ∀ creation ∈ chronicle.made, creation.Traced chronicle.made
  /-- Every envelope belongs to a chain that has started at a root. -/
  started : ∀ creation ∈ chronicle.made, ∃ first id,
    first.origin = .root id ∧ StartedFrom chronicle.made first creation
  /-- It has the correlation of that root. -/
  correlated : ∀ creation first id, first.origin = .root id →
    StartedFrom chronicle.made first creation → creation.lineage.correlationId = id
  /-- Every row has the lineage of such an envelope, in its columns and in its data. -/
  stored : ∀ row ∈ chronicle.world.known, ∃ creation ∈ chronicle.made, row.lineage = creation.lineage ∧
    ∃ raw : RawEnvelope, RawEnvelope.ofJson row.data = .ok raw ∧ raw.metadata.lineage = creation.lineage
  /-- From every row, causes lead to a root. -/
  ends : ∀ row ∈ chronicle.world.known, EndsAtRoot chronicle.made row.causationId
  /-- Causes do not lead back to where they started. -/
  acyclic : ∀ id, ¬ Relation.TransGen (CausedBy chronicle.made) id id
  /-- Of any rows, one is caused by none of them. -/
  unblocked : ∀ rows, rows ≠ [] → (∀ row ∈ rows, row ∈ chronicle.world.known) →
    ∃ row ∈ rows, ∀ other ∈ rows, row.causationId ≠ some other.messageId
  /-- What a row waits for leads to a row that does not wait: its cause, if any, is found resolved. -/
  resolved : ∀ row ∈ chronicle.world.store.rows, ∃ first,
    Relation.ReflTransGen (Row.Blocks chronicle.world.store) first row ∧
      ∀ cause, first.causationId = some cause → ∀ manner : Manner, manner.mishap = none →
        (Program.run (fun call store => store.respond manner call)
          (Custodian.causeResolved cause : Attempt κ MessagingError Bool).run
          chronicle.world.store).1 = .ok true

section kept

variable {actions : List (Action κ (Plan κ Unit))} (h : (of actions).Kept)
include h

theorem Kept.stored {row : Row} (hrow : row ∈ (of actions).world.known) :
    ∃ creation ∈ (of actions).made, row.lineage = creation.lineage ∧
      ∃ raw : RawEnvelope, RawEnvelope.ofJson row.data = .ok raw ∧
        raw.metadata.lineage = creation.lineage := by
  obtain ⟨raw, typeName, delivery, hdraft, hmade⟩ := h.of_known hrow
  obtain ⟨creation, hcreation, hsame⟩ := List.mem_map.1 hmade
  have hcolumns : row.lineage = raw.metadata.lineage :=
    congrArg (fun draft : Draft => Lineage.mk draft.messageId draft.correlationId draft.causationId) hdraft
  have hdata : row.data = RawEnvelope.toJson raw := congrArg Draft.data hdraft
  refine ⟨creation, hcreation, hcolumns.trans hsame.symm, raw, ?_, hsame.symm⟩
  rw [hdata, RawEnvelope.ofJson_toJson]

theorem Kept.causedBy {row cause : Row} (hrow : row ∈ (of actions).world.known)
    (hcause : row.causationId = some cause.messageId) :
    CausedBy (of actions).made cause.messageId row.messageId := by
  obtain ⟨creation, hcreation, hlineage, _⟩ := h.stored hrow
  refine ⟨creation, hcreation, congrArg Lineage.messageId hlineage.symm, ?_⟩
  exact (congrArg Lineage.causationId hlineage.symm).trans hcause

theorem Kept.ends {row : Row} (hrow : row ∈ (of actions).world.known) :
    EndsAtRoot (of actions).made row.causationId := by
  obtain ⟨creation, hcreation, hlineage, _⟩ := h.stored hrow
  have hcause : row.causationId = creation.lineage.causationId := congrArg Lineage.causationId hlineage
  rw [hcause]
  exact h.descent.ends hcreation

theorem Kept.unblocked {rows : List Row} (hsome : rows ≠ [])
    (hknown : ∀ row ∈ rows, row ∈ (of actions).world.known) :
    ∃ row ∈ rows, ∀ other ∈ rows, row.causationId ≠ some other.messageId := by
  obtain ⟨row, hrow⟩ := List.exists_mem_of_ne_nil rows hsome
  obtain ⟨_, ⟨first, hfirst, rfl⟩, hleast⟩ := h.descent.wellFounded.has_min
    {id | ∃ row ∈ rows, row.messageId = id} ⟨row.messageId, row, hrow, rfl⟩
  refine ⟨first, hfirst, fun other hother hcause => ?_⟩
  exact hleast other.messageId ⟨other, hother, rfl⟩ (h.causedBy (hknown first hfirst) hcause)

/-- Going back from a row to what it waits for, one gets to a row whose cause is resolved. -/
theorem Kept.resolved {row : Row} (hrow : row ∈ (of actions).world.store.rows) :
    ∃ first, Relation.ReflTransGen (Row.Blocks (of actions).world.store) first row ∧
      ∀ cause, first.causationId = some cause →
        ((of actions).world.store.outgoingStatuses cause).all (· == .processed) = true := by
  generalize hid : row.messageId = id
  induction id using h.descent.wellFounded.induction generalizing row with
  | _ id ih =>
      by_cases hwaits : ∃ cause, Row.Blocks (of actions).world.store cause row
      · obtain ⟨cause, hblocks⟩ := hwaits
        have hcaused := h.causedBy (World.known_of_committed hrow) hblocks.2.2.2
        obtain ⟨first, hback, hfree⟩ := ih cause.messageId (hid ▸ hcaused) hblocks.1 rfl
        exact ⟨first, hback.tail hblocks, hfree⟩
      · refine ⟨row, .refl, fun cause hcause => List.all_eq_true.2 fun status hstatus => ?_⟩
        obtain ⟨other, hother, ⟨hmessage, hdelivery⟩, rfl⟩ := Store.mem_outgoingStatuses.1 hstatus
        by_contra hopen
        refine hwaits ⟨other, hother, hdelivery, fun heq => hopen (beq_iff_eq.2 heq), ?_⟩
        exact hmessage ▸ hcause

end kept

theorem sound {actions : List (Action κ (Plan κ Unit))} (hlawful : Lawful actions) :
    (of actions).Sound := by
  have h := kept hlawful
  refine ⟨h.descent.distinct, h.descent.traced, fun _ => h.descent.started,
    fun _ _ _ => h.descent.correlationId_of_started, fun _ => h.stored, fun _ => h.ends,
    h.descent.acyclic, fun _ => h.unblocked, fun row hrow => ?_⟩
  obtain ⟨first, hback, hfree⟩ := h.resolved hrow
  refine ⟨first, hback, fun cause hcause manner hmishap => ?_⟩
  rw [Custodian.run_causeResolved _ hmishap, hfree cause hcause]

end Chronicle

end Courier
