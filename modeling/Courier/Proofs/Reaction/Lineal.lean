import Courier.Proofs.Interleaving.Chronicles
import Courier.Proofs.Reaction.Contexts
import Courier.Proofs.Time.Order
/-
Lineal programs.  A program that takes its contexts from roots and from envelopes that it has made or read
itself, and stages no others, keeps the lineage, whatever else is at work.  Staging under a context and
dispatching events are such programs.
-/
namespace Courier

variable {κ α β ε : Type}

def restored (rows : List Row) : List Lineage :=
  rows.filterMap fun row => (RawEnvelope.ofJson? row.data).map (·.metadata.lineage)

/-- The plan takes its contexts from roots and from what is known, and stages only what is known.  What
it wraps, and what rows show, gets known. -/
def Plan.Lineal (ends : List Lineage → α → Prop) : Plan κ α → List Lineage → Prop
  | .done value, known => ends known value
  | .wrap _ origin next, known =>
      origin.causes ⊆ known ∧ ∀ metadata, (next metadata).Lineal ends (metadata.lineage :: known)
  | .ask call next, known =>
      (∀ draft, call.draft? = some draft → draft.Stores (·.lineage ∈ known)) ∧
        ∀ answer, (next answer).Lineal ends (restored (call.shown answer) ++ known)

theorem Plan.Lineal.quiet {ends : List Lineage → α → Prop} {known : List Lineage} {call : Call κ}
    {next : call.Answer → Plan κ α} (hcall : call.draft? = none)
    (hnext : ∀ answer, (next answer).Lineal ends (restored (call.shown answer) ++ known)) :
    (Plan.ask call next).Lineal ends known := by
  refine ⟨fun draft hdraft => ?_, hnext⟩
  rw [hcall] at hdraft
  cases hdraft

/-- The program can be marked so that it takes its contexts from roots and from what is known. -/
def Program.Lineal (ends : List Lineage → α → Prop) (program : Program κ α) (known : List Lineage) :
    Prop :=
  ∃ plan : Plan κ α, plan.program = program ∧ plan.Lineal ends known

namespace Program.Lineal

variable {ends : List Lineage → α → Prop} {goal : List Lineage → β → Prop} {known : List Lineage}

theorem done {value : α} (h : ends known value) : (Program.done value : Program κ α).Lineal ends known :=
  ⟨.done value, rfl, h⟩

theorem ask {call : Call κ} {next : call.Answer → Program κ α}
    (hdraft : ∀ draft, call.draft? = some draft → draft.Stores (·.lineage ∈ known))
    (hnext : ∀ answer, (next answer).Lineal ends (restored (call.shown answer) ++ known)) :
    (Program.ask call next).Lineal ends known := by
  choose plan hplan hlineal using hnext
  exact ⟨.ask call plan, congrArg (Program.ask call) (funext hplan), hdraft, hlineal⟩

/-- A call that stages nothing, and of which only that matters. -/
theorem quiet {call : Call κ} {next : call.Answer → Program κ α} (hcall : call.draft? = none)
    (hnext : ∀ answer later, known ⊆ later → (next answer).Lineal ends later) :
    (Program.ask call next).Lineal ends known := by
  refine ask (fun draft hdraft => ?_) fun answer => hnext answer _ (List.subset_append_right _ _)
  rw [hcall] at hdraft
  cases hdraft

theorem wrap {typeName : String} {message : β} {origin : Origin} {next : Envelope β → Program κ α}
    (horigin : origin.causes ⊆ known)
    (hnext : ∀ metadata, (next ⟨message, metadata⟩).Lineal ends (metadata.lineage :: known)) :
    ((Envelope.wrapAs typeName message origin.context).bind next).Lineal ends known := by
  choose plan hplan hlineal using hnext
  refine ⟨.wrap typeName origin plan, ?_, horigin, hlineal⟩
  have hnext : (fun metadata => (plan metadata).program) = fun metadata => next ⟨message, metadata⟩ :=
    funext hplan
  change ((Envelope.wrapAs typeName () origin.context).bind fun envelope =>
    (fun metadata => (plan metadata).program) envelope.metadata) = _
  rw [hnext]
  rfl

theorem bind {program : Program κ α} {f : α → Program κ β} (h : program.Lineal ends known)
    (hrest : ∀ later value, ends later value → (f value).Lineal goal later) :
    (program.bind f).Lineal goal known := by
  obtain ⟨plan, rfl, hplan⟩ := h
  induction plan generalizing known with
  | done value => exact hrest known value hplan
  | wrap typeName origin next ih =>
      obtain ⟨horigin, hnext⟩ := hplan
      exact @wrap κ β Unit goal known typeName () origin
        (fun envelope => (next envelope.metadata).program.bind f) horigin
        fun metadata => ih metadata (hnext metadata)
  | ask call next ih =>
      obtain ⟨hdraft, hnext⟩ := hplan
      exact ask hdraft fun answer => ih answer (hnext answer)

end Program.Lineal

/-- The work takes its contexts from roots, from these envelopes and from what it makes or reads itself.
What was known stays known. -/
def Work.Lineal (work : Work κ α) (needs : List Lineage) : Prop :=
  ∀ known kept tx, needs ⊆ known → kept ⊆ known →
    (work.inside tx).Lineal (fun later _ => kept ⊆ later) known

namespace Work.Lineal

variable {needs more : List Lineage}

theorem weaken {work : Work κ α} (h : work.Lineal needs) (hmore : needs ⊆ more) : work.Lineal more :=
  fun known kept tx hknown => h known kept tx (List.Subset.trans hmore hknown)

theorem done (outcome : Except MessagingError α) (needs : List Lineage) :
    Work.Lineal (ExceptT.mk (Pure.pure outcome) : Work κ α) needs :=
  fun _ _ _ _ hkept => .done hkept

theorem andThen {work : Work κ α} {next : Except MessagingError α → Work κ β} (hwork : work.Lineal needs)
    (hnext : ∀ outcome, (next outcome).Lineal needs) : (work.andThen next).Lineal needs := by
  intro known kept tx hknown hkept
  refine (hwork known (needs ++ kept) tx hknown (List.append_subset.2 ⟨hknown, hkept⟩)).bind ?_
  intro later result hlater
  obtain ⟨hneeds, hstill⟩ := List.append_subset.1 hlater
  exact hnext result.1 later kept result.2 hneeds hstill

theorem bind {work : Work κ α} {f : α → Work κ β} (hwork : work.Lineal needs)
    (hrest : ∀ value, (f value).Lineal needs) : Work.Lineal (work >>= f) needs := by
  rw [bind_eq_andThen]
  refine hwork.andThen fun outcome => ?_
  cases outcome with
  | ok value => exact hrest value
  | error error => exact done (.error error) needs

/-- What is wrapped is known to what comes after it. -/
theorem wrap {typeName : String} {message : β} {origin : Origin} {f : Envelope β → Work κ α}
    (horigin : origin.causes ⊆ needs)
    (hrest : ∀ metadata, (f ⟨message, metadata⟩).Lineal (metadata.lineage :: needs)) :
    Work.Lineal ((liftM (Envelope.wrapAs typeName message origin.context : Program κ (Envelope β)) :
      Work κ (Envelope β)) >>= f) needs := by
  intro known kept tx hknown hkept
  refine @Program.Lineal.wrap κ _ β _ known typeName message origin
    (fun envelope => (f envelope).inside tx) (List.Subset.trans horigin hknown) fun metadata => ?_
  exact hrest metadata _ kept tx (List.cons_subset_cons _ hknown) (List.subset_cons_of_subset _ hkept)

theorem aside {call : Call κ} (houtside : call.transaction? = none) (needs : List Lineage) :
    (Work.aside call).Lineal needs := by
  intro known kept tx _ hkept
  refine .quiet ?_ fun answer later hlater => .done (List.Subset.trans hkept hlater)
  cases call <;> first | rfl | cases houtside

theorem document (collection key : String) (needs : List Lineage) :
    (Work.document collection key : Work κ _).Lineal needs :=
  fun _ _ _ _ hkept => .quiet rfl fun _ _ hlater => .done (List.Subset.trans hkept hlater)

theorem saveDocument (collection key : String) (body : Json) (expected : Int) (needs : List Lineage) :
    (Work.saveDocument collection key body expected : Work κ _).Lineal needs := by
  intro known kept tx _ hkept
  refine .quiet rfl fun answer later hlater => ?_
  match answer with
  | .ok (written, saved) => exact .done (List.Subset.trans hkept hlater)
  | .error error => exact .done (List.Subset.trans hkept hlater)

theorem stageDraft {raw : RawEnvelope} (hraw : raw.metadata.lineage ∈ needs) (typeName : String)
    (delivery : Delivery) :
    (Staging.stageDraft (Staging.draftOf raw typeName delivery) : Work κ Row).Lineal needs := by
  intro known kept tx hknown hkept
  refine .ask (fun draft hdraft => ?_) fun answer => ?_
  · obtain rfl := Option.some.inj hdraft
    exact ⟨raw, typeName, delivery, rfl, hknown hraw⟩
  · have hlater := List.subset_append_of_subset_right
      (restored (Call.shown (.stage tx (Staging.draftOf raw typeName delivery) : Call κ) answer)) hkept
    match answer with
    | .ok (written, row) => exact .done hlater
    | .error error => exact .done hlater

theorem saveRaw {raw : RawEnvelope} (hraw : raw.metadata.lineage ∈ needs) (delivery : Delivery) :
    (Staging.saveRaw raw delivery : Work κ Row).Lineal needs := by
  unfold Staging.saveRaw
  cases raw.typeName? with
  | none => exact done _ needs
  | some typeName =>
      refine (stageDraft hraw typeName delivery).bind fun row => ?_
      exact (@aside κ (.count (.staged delivery)) rfl needs).bind fun _ => done (.ok row) needs

theorem event [Message α] {origin : Origin} (horigin : origin.causes ⊆ needs) (message : α) :
    (Staging.stageEvent origin.context message : Work κ Row).Lineal needs :=
  wrap horigin fun _ => saveRaw List.mem_cons_self .outbox

theorem commands [Message α] {origin : Origin} (messages : List α) (horigin : origin.causes ⊆ needs) :
    (Staging.schedule origin.context messages : Work κ (List Row)).Lineal needs := by
  induction messages generalizing needs with
  | nil => exact done (.ok []) needs
  | cons message rest ih =>
      refine wrap horigin fun metadata => ?_
      refine (saveRaw List.mem_cons_self .internal).bind fun row => ?_
      refine (ih (List.subset_cons_of_subset _ horigin)).bind fun rows => ?_
      exact done (.ok (row :: rows)) _

/-- Staging under a context keeps the lineage. -/
theorem of_stagesUnder {work : Work κ α} {ctx : Context} (h : work.StagesUnder ctx) {origin : Origin}
    (hctx : origin.context = ctx) : work.Lineal origin.causes := by
  induction h with
  | done outcome => exact done outcome _
  | andThen _ _ hwork hnext => exact hwork.andThen hnext
  | event message => exact hctx ▸ event (List.Subset.refl _) message
  | commands messages => exact hctx ▸ commands messages (List.Subset.refl _)
  | aside call houtside => exact aside houtside _
  | document collection key => exact document collection key _
  | saveDocument collection key body expected => exact saveDocument collection key body expected _

theorem react {reaction : Reaction κ ε} (h : reaction.StagesInContext) (eventType : String)
    (envelope : Envelope ε) :
    (reaction.react eventType (.causedBy envelope.metadata) envelope).Lineal
      [envelope.metadata.lineage] := by
  intro known kept tx hknown hkept
  have hrun : (reaction.run (.causedBy envelope.metadata) envelope).Lineal
      (Origin.caused envelope.metadata).causes := of_stagesUnder (h _ envelope) rfl
  refine (hrun known kept tx hknown hkept).bind fun later result hlater => ?_
  obtain ⟨outcome, written⟩ := result
  cases outcome with
  | ok done => exact .done hlater
  | error error => exact .done hlater

variable {reactions : List (Reaction κ ε)}

theorem reactAll (h : ∀ reaction ∈ reactions, reaction.StagesInContext) (eventType : String)
    (envelope : Envelope ε) :
    (Reaction.reactAll eventType (.causedBy envelope.metadata) envelope reactions).Lineal
      [envelope.metadata.lineage] := by
  induction reactions with
  | nil => exact done (.ok ()) _
  | cons reaction rest ih =>
      obtain ⟨hreaction, hrest⟩ := List.forall_mem_cons.1 h
      exact (react hreaction eventType envelope).bind fun _ => ih hrest

variable [DomainEvent ε]

theorem dispatchInOrder (h : ∀ reaction ∈ reactions, reaction.StagesInContext) {origin : Origin}
    (events : List (RaisedEvent ε)) (horigin : origin.causes ⊆ needs) :
    (Reaction.dispatchInOrder reactions origin.context events).Lineal needs := by
  induction events generalizing needs with
  | nil => exact done (.ok ()) _
  | cons raised rest ih =>
      refine wrap horigin fun metadata => ?_
      refine ((reactAll h _ ⟨raised.event, metadata⟩).weaken ?_).bind fun _ => ?_
      · exact List.cons_subset_cons _ (List.nil_subset _)
      · exact ih (List.subset_cons_of_subset _ horigin)

/-- Dispatching events keeps the lineage. -/
theorem dispatch (h : ∀ reaction ∈ reactions, reaction.StagesInContext) (origin : Origin)
    (events : List (RaisedEvent ε)) :
    (Reaction.dispatch reactions origin.context events).Lineal origin.causes :=
  (dispatchInOrder h (raiseOrder events) (List.Subset.refl _)).bind fun _ => done (.ok events.length) _

end Work.Lineal

def Call.minted? : (call : Call κ) → call.Answer → Option Uuid
  | .mint, id => some id
  | _, _ => none

def minted {τ : Type} (history : List (Moment κ τ)) : List Uuid :=
  history.filterMap fun moment => moment.call.minted? moment.answer

namespace Chronicle

/-- A plan is lineal with what it knows of what was made. -/
def Guides (made : List Creation) (plan : Plan κ Unit) : Prop :=
  ∃ known, known ⊆ made.map Creation.lineage ∧ plan.Lineal (fun _ _ => True) known

theorem Guides.mono {made more : List Creation} {plan : Plan κ Unit} (h : Guides made plan)
    (hmore : made ⊆ more) : Guides more plan := by
  obtain ⟨known, hknown, hlineal⟩ := h
  exact ⟨known, List.Subset.trans hknown (List.map_subset _ hmore), hlineal⟩

/-- What is left of the plans is lineal, and the identifiers of what was made were taken. -/
structure Orderly (chronicle : Chronicle κ) : Prop where
  guided : ∀ plan ∈ chronicle.left, Guides chronicle.made plan
  taken : ∀ creation ∈ chronicle.made,
    creation.lineage.messageId.uuid ∈ minted chronicle.world.history

section

variable {actions earlier : List (Action κ (Plan κ Unit))} {action : Action κ (Plan κ Unit)}

theorem minted_after (chronicle : Chronicle κ) (action : Action κ (Plan κ Unit)) :
    (minted chronicle.world.history).Sublist
      (minted (chronicle.after action).world.history) := by
  rw [world_after]
  rcases (planned κ).step_history chronicle.world action with hsame | ⟨moment, _, hmore, _⟩
  · rw [hsame]
  · rw [hmore]
    exact (List.sublist_cons_self moment _).filterMap _

/-- What rows show that are known was made. -/
theorem Kept.restored_made (h : (of actions).Kept) {rows : List Row}
    (hrows : ∀ row ∈ rows, row ∈ (of actions).world.known) :
    restored rows ⊆ (of actions).made.map Creation.lineage := by
  intro lineage hlineage
  obtain ⟨row, hrow, hshown⟩ := List.mem_filterMap.1 hlineage
  obtain ⟨raw, hraw, rfl⟩ := Option.map_eq_some_iff.1 hshown
  refine h.lineage_made (.restored (hrows row hrow) ?_)
  unfold RawEnvelope.ofJson
  rw [hraw]

theorem Orderly.permits (h : (of earlier).Orderly)
    (hminted : (minted ((of earlier).after action).world.history).Nodup) :
    (of earlier).Permits action := by
  cases action with
  | work number manner =>
      cases hleft : (of earlier).left[number]? with
      | none => simp only [Permits, hleft]
      | some plan =>
          simp only [Permits, hleft]
          obtain ⟨known, hknown, hlineal⟩ := h.guided _ (List.mem_of_getElem? hleft)
          cases plan with
          | done value => trivial
          | wrap typeName origin next =>
              refine ⟨?_, fun creation hcreation hid => ?_⟩
              · rintro metadata rfl
                exact .made (hknown (hlineal.1 List.mem_cons_self))
              · obtain ⟨worker, hhistory⟩ := (InStep.of earlier).history_after hleft (Plan.program_wrap ..)
                  (allows_mint (of earlier).world manner)
                rw [hhistory] at hminted
                have htaken := h.taken creation hcreation
                rw [hid] at htaken
                exact (List.nodup_cons.1 hminted).1 htaken
          | ask call next =>
              intro draft hcall
              obtain ⟨raw, typeName, delivery, hstored, hraw⟩ := hlineal.1 draft hcall
              exact ⟨raw, typeName, delivery, hstored, .made (hknown hraw)⟩
  | _ => trivial

/-- What is left of a plan after its turn is lineal with what it has made or was shown. -/
theorem Orderly.guided_after (h : (of earlier).Orderly) (hkept : (of (action :: earlier)).Kept)
    (hstart : ∀ plan, action = .start plan → plan.Lineal (fun _ _ => True) []) :
    ∀ plan ∈ ((of earlier).after action).left, Guides ((of earlier).after action).made plan := by
  intro plan hplan
  have hold : plan ∈ (of earlier).left → Guides ((of earlier).after action).made plan :=
    fun hthere => (h.guided plan hthere).mono ((of earlier).made_after action)
  have hnext := (of earlier).after_next action
  generalize hleft : ((of earlier).after action).left = left at hnext hplan
  generalize hmade : ((of earlier).after action).made = made at hnext hold ⊢
  cases hnext with
  | idle => exact hold hplan
  | started fresh =>
      rcases List.mem_append.1 hplan with hthere | hnew
      · exact hold hthere
      · obtain rfl := List.mem_singleton.1 hnew
        exact ⟨[], List.nil_subset _, hstart _ rfl⟩
  | @wrapped number typeName origin next manner hturn =>
      rcases List.mem_or_eq_of_mem_set hplan with hthere | rfl
      · exact hold hthere
      · obtain ⟨known, hknown, _, hnext⟩ := h.guided _ (List.mem_of_getElem? hturn)
        refine ⟨.fresh ⟨manner.minted⟩ origin.context :: known, List.cons_subset_cons _ hknown, ?_⟩
        exact .quiet rfl fun now => hnext (Metadata.fresh ⟨manner.minted⟩ now typeName origin.context)
  | @asked number call next manner hturn hallows =>
      rcases List.mem_or_eq_of_mem_set hplan with hthere | rfl
      · exact hold hthere
      · obtain ⟨known, hknown, _, hnext⟩ := h.guided _ (List.mem_of_getElem? hturn)
        refine ⟨_, List.append_subset.2 ⟨?_, hknown⟩, hnext _⟩
        rw [← hmade]
        refine hkept.restored_made fun row hrow => ?_
        obtain ⟨worker, hhistory⟩ := (InStep.of earlier).history_after hturn rfl hallows
        refine World.mem_known.2 (Or.inr (Or.inr ?_))
        change row ∈ ((of earlier).after _).world.history.flatMap Moment.shown
        rw [hhistory]
        exact List.mem_append_left _ hrow

/-- The identifier of what is made was taken just now. -/
theorem Orderly.taken_after (h : (of earlier).Orderly) :
    ∀ creation ∈ ((of earlier).after action).made,
      creation.lineage.messageId.uuid ∈ minted ((of earlier).after action).world.history := by
  intro creation hcreation
  have hold : creation ∈ (of earlier).made →
      creation.lineage.messageId.uuid ∈ minted ((of earlier).after action).world.history :=
    fun hthere => ((of earlier).minted_after action).subset (h.taken creation hthere)
  have hnext := (of earlier).after_next action
  generalize ((of earlier).after action).left = left at hnext
  generalize hmade : ((of earlier).after action).made = made at hnext hcreation
  cases hnext with
  | @wrapped number typeName origin next manner hturn =>
      rcases List.mem_cons.1 hcreation with rfl | hthere
      · obtain ⟨worker, hhistory⟩ := (InStep.of earlier).history_after hturn (Plan.program_wrap ..)
          (allows_mint (of earlier).world manner)
        rw [hhistory]
        exact List.mem_cons_self
      · exact hold hthere
  | _ => exact hold hcreation

/-- Lineal plans keep to the law, if no identifier is taken twice. -/
theorem lawful
    (hstarts : ∀ plan, .start plan ∈ actions → plan.Lineal (fun _ _ => True) [])
    (hminted : (minted (of actions).world.history).Nodup) :
    Lawful actions ∧ (of actions).Orderly := by
  induction actions with
  | nil => exact ⟨trivial, List.forall_mem_nil _, List.forall_mem_nil _⟩
  | cons action earlier ih =>
      obtain ⟨hearlier, horderly⟩ := ih (fun plan hplan => hstarts plan (List.mem_cons_of_mem _ hplan))
        (hminted.sublist ((of earlier).minted_after action))
      have hlawful : Lawful (action :: earlier) := ⟨hearlier, horderly.permits hminted⟩
      refine ⟨hlawful, horderly.guided_after (kept hlawful) fun plan hplan => ?_, horderly.taken_after⟩
      exact hstarts plan (hplan ▸ List.mem_cons_self)

end

end Chronicle

/-- As long as contexts are roots or taken from envelopes that were made before, be they at hand or read
from a row, and no two envelopes are made under one identifier, the lineage of all envelopes is sound:
each has the correlation of the root that its chain has started from, and names the envelope that its
context was taken from as its cause, and no other.  From every row, causes lead to a root, so that rows
never wait for one another in a circle.  Plans keep to this if they take contexts from what they have
made or read themselves, and so do staging under a context and the dispatch of events. -/
theorem lineage_sound :
    (∀ actions : List (Action κ (Plan κ Unit)),
      (Chronicle.of actions).world = (planned κ).world actions ∧ (Chronicle.of actions).InStep ∧
        (Chronicle.Lawful actions → (Chronicle.of actions).Sound) ∧
        ((∀ plan, .start plan ∈ actions → plan.Lineal (fun _ _ => True) []) →
          (minted ((planned κ).world actions).history).Nodup → Chronicle.Lawful actions)) ∧
      (∀ (origin : Origin) (α : Type) (work : Work κ α), work.StagesUnder origin.context →
        work.Lineal origin.causes) ∧
      ∀ (ε : Type) [DomainEvent ε] (reactions : List (Reaction κ ε)),
        (∀ reaction ∈ reactions, reaction.StagesInContext) →
        ∀ (origin : Origin) (events : List (RaisedEvent ε)),
          (Reaction.dispatch reactions origin.context events).Lineal origin.causes := by
  refine ⟨fun actions => ⟨Chronicle.world_of actions, .of actions, Chronicle.sound, ?_⟩, ?_, ?_⟩
  · intro hstarts hminted
    rw [← Chronicle.world_of] at hminted
    exact (Chronicle.lawful hstarts hminted).1
  · exact fun origin α work h => .of_stagesUnder h rfl
  · exact fun ε _ reactions h => .dispatch h

/-- Stage a message with this metadata, in a transaction of its own. -/
def sending (typeName : String) (metadata : Metadata) : Plan Unit Unit :=
  .ask .begin fun (opened : Except StoreError Transaction) =>
    match opened with
    | .error _ => .done ()
    | .ok tx =>
        .ask (.stage tx (Staging.draftOf ⟨.null, metadata⟩ typeName .outbox))
          fun (staged : Except StoreError (Transaction × Row)) =>
            match staged with
            | .error _ => .done ()
            | .ok (tx, _) => .ask (.commit tx) fun _ => .done ()

theorem sending_lineal (typeName : String) {metadata : Metadata} {known : List Lineage}
    (h : metadata.lineage ∈ known) : (sending typeName metadata).Lineal (fun _ _ => True) known := by
  refine .quiet rfl fun (opened : Except StoreError Transaction) => ?_
  match opened with
  | .error error => trivial
  | .ok tx =>
      refine ⟨fun draft hdraft => ?_, fun (staged : Except StoreError (Transaction × Row)) => ?_⟩
      · obtain rfl := Option.some.inj hdraft
        exact ⟨⟨.null, metadata⟩, typeName, .outbox, rfl, h⟩
      · match staged with
        | .error error => trivial
        | .ok written => exact .quiet rfl fun _ => trivial

/-- An event is wrapped, and a message that it causes is staged. -/
def announcing : Plan Unit Unit :=
  .wrap "OrderPlaced" (.root ⟨Uuid.ofNat 7⟩) fun placed =>
    .wrap "OrderPlacedV1" (.caused placed) fun announced => sending "OrderPlacedV1" announced

theorem announcing_lineal : announcing.Lineal (fun _ _ => True) [] :=
  ⟨List.nil_subset _, fun _ => ⟨List.Subset.refl _, fun _ => sending_lineal _ List.mem_cons_self⟩⟩

/-- A message is staged that the first row causes. -/
def following : Plan Unit Unit :=
  .ask (.find {}) fun (found : Except StoreError (List Row)) =>
    match found with
    | .ok (row :: _) =>
        match RawEnvelope.ofJson? row.data with
        | none => .done ()
        | some raw => .wrap "InvoiceSentV1" (.caused raw.metadata) fun sent => sending "InvoiceSentV1" sent
    | _ => .done ()

theorem following_lineal : following.Lineal (fun _ _ => True) [] := by
  refine .quiet rfl fun (found : Except StoreError (List Row)) => ?_
  match found with
  | .error error => trivial
  | .ok [] => trivial
  | .ok (row :: rest) =>
      cases hraw : RawEnvelope.ofJson? row.data with
      | none => simp only [hraw, Plan.Lineal]
      | some raw =>
          simp only [hraw]
          refine ⟨List.cons_subset.2 ⟨?_, List.nil_subset _⟩, fun _ => sending_lineal _ List.mem_cons_self⟩
          refine List.mem_append_left _ (List.mem_filterMap.2 ⟨row, List.mem_cons_self, ?_⟩)
          rw [hraw]
          rfl

/-- One after the other, each job to its end. -/
def announcedAndFollowed : List (Action Unit (Plan Unit Unit)) :=
  let turn (number id : Nat) : Action Unit (Plan Unit Unit) :=
    .work number { clock := epoch, minted := Uuid.ofNat id }
  (Action.start announcing :: .start following :: ((List.range 7).map (turn 0) ++
    (List.range 6).map fun n => turn 1 (n + 10))).reverse

/-- Two jobs work on one chain, the second of which knows it from a row only. -/
theorem announcedAndFollowed_sound :
    (∀ plan, .start plan ∈ announcedAndFollowed → plan.Lineal (fun _ _ => True) []) ∧
      (minted ((planned Unit).world announcedAndFollowed).history).Nodup ∧
      Chronicle.Lawful announcedAndFollowed ∧ (Chronicle.of announcedAndFollowed).Sound ∧
      (Chronicle.of announcedAndFollowed).made.map Creation.lineage =
        [⟨⟨Uuid.ofNat 11⟩, ⟨Uuid.ofNat 7⟩, some ⟨Uuid.ofNat 2⟩⟩,
          ⟨⟨Uuid.ofNat 2⟩, ⟨Uuid.ofNat 7⟩, some ⟨Uuid.ofNat 0⟩⟩, ⟨⟨Uuid.ofNat 0⟩, ⟨Uuid.ofNat 7⟩, none⟩] ∧
      ((planned Unit).world announcedAndFollowed).store.rows.map Row.lineage =
        [⟨⟨Uuid.ofNat 2⟩, ⟨Uuid.ofNat 7⟩, some ⟨Uuid.ofNat 0⟩⟩,
          ⟨⟨Uuid.ofNat 11⟩, ⟨Uuid.ofNat 7⟩, some ⟨Uuid.ofNat 2⟩⟩] ∧
      (Staging.stageEvent (Origin.root ⟨Uuid.ofNat 7⟩).context (OrderPlaced.mk ⟨7⟩ "ada" 100) :
        Work Unit Row).Lineal [] ∧
      (∀ reaction ∈ (OrderReaction.all : List (Reaction Unit OrderEvent)), reaction.StagesInContext) ∧
      (Reaction.dispatch OrderReaction.all (Origin.root ⟨Uuid.ofNat 7⟩).context
        [⟨.placed ⟨7⟩ "ada" 100, epoch, 0⟩] : Work Unit Nat).Lineal [] := by
  have hstarts : ∀ plan, .start plan ∈ announcedAndFollowed → plan.Lineal (fun _ _ => True) [] := by
    intro plan hplan
    have hwhich : plan = following ∨ plan = announcing := by
      simpa [announcedAndFollowed] using hplan
    rcases hwhich with rfl | rfl
    · exact following_lineal
    · exact announcing_lineal
  have hminted : (minted ((planned Unit).world announcedAndFollowed).history).Nodup := by
    have htaken : minted ((planned Unit).world announcedAndFollowed).history =
        [Uuid.ofNat 11, Uuid.ofNat 2, Uuid.ofNat 0] := by decide +kernel
    rw [htaken]
    decide
  obtain ⟨hruns, hstages, hdispatches⟩ := @lineage_sound Unit
  obtain ⟨_, _, hsound, hlawful⟩ := hruns announcedAndFollowed
  refine ⟨hstarts, hminted, hlawful hstarts hminted, hsound (hlawful hstarts hminted),
    by decide +kernel, by decide +kernel, ?_, OrderReaction.all_inContext, ?_⟩
  · exact hstages (.root ⟨Uuid.ofNat 7⟩) Row _ (.event _)
  · exact hdispatches OrderEvent _ OrderReaction.all_inContext (.root ⟨Uuid.ofNat 7⟩) _

end Courier
