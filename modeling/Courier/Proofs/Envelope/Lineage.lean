import Courier.Envelope.Basic
import Mathlib.Data.List.Nodup
import Mathlib.Logic.Relation
import Mathlib.Order.WellFounded
/-
Lineage.  Every envelope is made under a context, and every context but a root is taken from an envelope
that was there before.  So causes lead back in time: from every envelope they lead to the root of its
chain and nowhere else.
-/
namespace Courier

/-- Where a message stands in its chain. -/
structure Lineage where
  messageId : MessageId
  correlationId : CorrelationId
  causationId : Option MessageId
deriving DecidableEq, Repr

def Metadata.lineage (metadata : Metadata) : Lineage :=
  ⟨metadata.messageId, metadata.correlationId, metadata.causationId⟩

/-- Where a context is taken from: it is a root, or the context of messages that an envelope causes. -/
inductive Origin where
  | root (id : CorrelationId)
  | caused (metadata : Metadata)
deriving DecidableEq

namespace Origin

def context : Origin → Context
  | .root id => .ofCorrelation id
  | .caused metadata => .causedBy metadata

/-- The lineage of the envelope that the context is taken from, if there is one. -/
def causes : Origin → List Lineage
  | .root _ => []
  | .caused metadata => [metadata.lineage]

end Origin

/-- An envelope that was made: where its context was taken from, and the lineage that came of it. -/
structure Creation where
  origin : Origin
  lineage : Lineage
deriving DecidableEq

def Lineage.fresh (id : MessageId) (context : Context) : Lineage :=
  ⟨id, context.correlationId, context.causationId⟩

/-- What was made, latest first: every envelope under an identifier of its own, in a context that is a
root or taken from an earlier envelope. -/
inductive Descent : List Creation → Prop where
  | nil : Descent []
  | cons {earlier : List Creation} {origin : Origin} {id : MessageId} (hearlier : Descent earlier)
      (horigin : origin.causes ⊆ earlier.map Creation.lineage)
      (hfresh : ∀ creation ∈ earlier, creation.lineage.messageId ≠ id) :
      Descent (⟨origin, .fresh id origin.context⟩ :: earlier)

/-- How an envelope that was made got its cause: a root has none, and any other names the one envelope
that its context was taken from. -/
inductive Creation.Traced (made : List Creation) (creation : Creation) : Prop where
  | root (id : CorrelationId) (horigin : creation.origin = .root id)
      (hcausation : creation.lineage.causationId = none)
  | caused (metadata : Metadata) (cause : Creation) (horigin : creation.origin = .caused metadata)
      (hcause : cause ∈ made) (hsame : cause.lineage = metadata.lineage)
      (hcausation : creation.lineage.causationId = some cause.lineage.messageId)

/-- A chain leads from one envelope to the other, by the contexts that they were made in. -/
inductive StartedFrom (made : List Creation) (first : Creation) : Creation → Prop where
  | self (hfirst : first ∈ made) : StartedFrom made first first
  | caused {cause creation : Creation} {metadata : Metadata} (hcause : StartedFrom made first cause)
      (hcreation : creation ∈ made) (horigin : creation.origin = .caused metadata)
      (hsame : metadata.lineage = cause.lineage) : StartedFrom made first creation

/-- Causes, followed from here, come to an end at a root. -/
inductive EndsAtRoot (made : List Creation) : Option MessageId → Prop where
  | root : EndsAtRoot made none
  | cause {creation : Creation} (hmade : creation ∈ made)
      (hends : EndsAtRoot made creation.lineage.causationId) :
      EndsAtRoot made (some creation.lineage.messageId)

def CausedBy (made : List Creation) (cause effect : MessageId) : Prop :=
  ∃ creation ∈ made, creation.lineage.messageId = effect ∧ creation.lineage.causationId = some cause

namespace Creation.Traced

variable {made more : List Creation} {creation : Creation}

theorem mono (h : creation.Traced made) (hmore : made ⊆ more) : creation.Traced more := by
  cases h with
  | root id horigin hcausation => exact .root id horigin hcausation
  | caused metadata cause horigin hcause hsame hcausation =>
      exact .caused metadata cause horigin (hmore hcause) hsame hcausation

end Creation.Traced

namespace Descent

variable {made : List Creation}

theorem distinct (h : Descent made) : (made.map (·.lineage.messageId)).Nodup := by
  induction h with
  | nil => exact List.nodup_nil
  | cons _ _ hfresh ih =>
      refine List.nodup_cons.2 ⟨fun hmem => ?_, ih⟩
      obtain ⟨creation, hcreation, hid⟩ := List.mem_map.1 hmem
      exact hfresh creation hcreation hid

theorem traced (h : Descent made) : ∀ creation ∈ made, creation.Traced made := by
  induction h with
  | nil => exact List.forall_mem_nil _
  | @cons earlier origin id _ horigin _ ih =>
      refine List.forall_mem_cons.2
        ⟨?_, fun creation hcreation => (ih creation hcreation).mono (List.subset_cons_self _ _)⟩
      cases origin with
      | root correlation => exact .root correlation rfl rfl
      | caused metadata =>
          obtain ⟨cause, hcause, hsame⟩ := List.mem_map.1 (horigin List.mem_cons_self)
          refine .caused metadata cause rfl (List.mem_cons_of_mem _ hcause) hsame ?_
          exact congrArg (fun lineage : Lineage => some lineage.messageId) hsame.symm

/-- A cause was made. -/
theorem cause_made (h : Descent made) {cause effect : MessageId} (hcaused : CausedBy made cause effect) :
    ∃ creation ∈ made, creation.lineage.messageId = cause := by
  obtain ⟨creation, hcreation, _, hcausation⟩ := hcaused
  cases h.traced creation hcreation with
  | root id _ hnone => cases hnone.symm.trans hcausation
  | caused metadata earlier _ hearlier _ hsome =>
      exact ⟨earlier, hearlier, Option.some.inj (hsome.symm.trans hcausation)⟩

/-- What is made last causes nothing. -/
theorem cause_ne_last {earlier : List Creation} {last : Creation} (h : Descent (last :: earlier))
    {cause effect : MessageId} (hcaused : CausedBy (last :: earlier) cause effect) :
    cause ≠ last.lineage.messageId := by
  rintro rfl
  obtain ⟨creation, hcreation, _, hcausation⟩ := hcaused
  cases h with
  | @cons _ origin id hearlier horigin hfresh =>
      rcases List.mem_cons.1 hcreation with rfl | hold
      · cases origin with
        | root correlation => cases hcausation
        | caused metadata =>
            obtain ⟨other, hother, hsame⟩ := List.mem_map.1 (horigin List.mem_cons_self)
            refine hfresh other hother ?_
            exact (congrArg Lineage.messageId hsame).trans (Option.some.inj hcausation)
      · obtain ⟨other, hother, hid⟩ := hearlier.cause_made ⟨creation, hold, rfl, hcausation⟩
        exact hfresh other hother hid

/-- Causes were made earlier, so they do not lead back for ever. -/
theorem wellFounded (h : Descent made) : WellFounded (CausedBy made) := by
  induction made with
  | nil => exact ⟨fun id => ⟨id, fun cause ⟨creation, hcreation, _⟩ => nomatch hcreation⟩⟩
  | cons last earlier ih =>
      have hearlier : Descent earlier := by
        cases h with
        | cons hearlier => exact hearlier
      have hold : ∀ effect, effect ≠ last.lineage.messageId →
          Acc (CausedBy (last :: earlier)) effect := by
        intro effect
        induction (ih hearlier).apply effect with
        | intro effect _ hacc =>
            refine fun hne => ⟨effect, fun cause hcaused => ?_⟩
            have hother := h.cause_ne_last hcaused
            obtain ⟨creation, hcreation, hid, hcausation⟩ := hcaused
            rcases List.mem_cons.1 hcreation with rfl | hthere
            · exact absurd hid.symm hne
            · exact hacc cause ⟨creation, hthere, hid, hcausation⟩ hother
      exact ⟨fun effect => ⟨effect, fun cause hcaused => hold cause (h.cause_ne_last hcaused)⟩⟩

theorem acyclic (h : Descent made) (id : MessageId) : ¬ Relation.TransGen (CausedBy made) id id :=
  fun hcycle => h.wellFounded.transGen.asymmetric _ _ hcycle hcycle

theorem ends (h : Descent made) {creation : Creation} (hcreation : creation ∈ made) :
    EndsAtRoot made creation.lineage.causationId := by
  generalize hid : creation.lineage.messageId = id
  induction id using h.wellFounded.induction generalizing creation with
  | _ id ih =>
      cases h.traced creation hcreation with
      | root correlation _ hnone =>
          rw [hnone]
          exact .root
      | caused metadata cause _ hcause _ hsome =>
          rw [hsome]
          exact .cause hcause (ih _ ⟨creation, hcreation, hid, hsome⟩ hcause rfl)

/-- Every chain has started at a root. -/
theorem started (h : Descent made) {creation : Creation} (hcreation : creation ∈ made) :
    ∃ first correlation, first.origin = .root correlation ∧ StartedFrom made first creation := by
  generalize hid : creation.lineage.messageId = id
  induction id using h.wellFounded.induction generalizing creation with
  | _ id ih =>
      cases h.traced creation hcreation with
      | root correlation horigin _ => exact ⟨creation, correlation, horigin, .self hcreation⟩
      | caused metadata cause horigin hcause hsame hsome =>
          obtain ⟨first, correlation, hroot, hchain⟩ :=
            ih _ ⟨creation, hcreation, hid, hsome⟩ hcause rfl
          exact ⟨first, correlation, hroot, .caused hchain hcreation horigin hsame.symm⟩

theorem correlationId_eq (h : Descent made) :
    ∀ creation ∈ made, creation.lineage.correlationId = creation.origin.context.correlationId := by
  induction h with
  | nil => exact List.forall_mem_nil _
  | cons _ _ _ ih => exact List.forall_mem_cons.2 ⟨rfl, ih⟩

/-- The correlation of a chain is that of its root. -/
theorem correlationId_of_started (h : Descent made) {first creation : Creation}
    {correlation : CorrelationId} (hroot : first.origin = .root correlation)
    (hchain : StartedFrom made first creation) : creation.lineage.correlationId = correlation := by
  induction hchain with
  | self hfirst =>
      rw [h.correlationId_eq first hfirst, hroot]
      rfl
  | caused _ hcreation horigin hsame ih =>
      rw [h.correlationId_eq _ hcreation, horigin, ← ih]
      exact congrArg Lineage.correlationId hsame

end Descent

end Courier
