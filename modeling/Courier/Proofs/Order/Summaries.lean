import Courier.Order.Registration
import Courier.Order.Summary
import Courier.Proofs.Order.Wire
import Courier.Proofs.Publishing.Handovers
import Courier.Proofs.Publishing.Publications
import Courier.Proofs.Reaction.Notices
/-
Summaries along a history.  Each update that a handler takes over is applied, and whatever came
before it, the summary then shows the state that this update names.
-/
namespace Courier

variable {κ τ : Type}

def updatesOf (id : OrderId) (updates : List (SummaryUpdate × Instant)) : List SummaryUpdate :=
  (updates.map Prod.fst).filter (·.orderId == id)

namespace OrderSummaries

def state? (all : OrderSummaries) (id : OrderId) : Option OrderState :=
  (all.get? id).map (·.state)

/-- An update sets the state of its own order's summary and of no other. -/
theorem state?_apply (all : OrderSummaries) (update : SummaryUpdate) (time : Instant) (id : OrderId) :
    (all.apply update time).state? id =
      if update.orderId = id then some update.state else all.state? id := by
  obtain ⟨summaries, applied⟩ := all
  simp only [state?, get?, apply]
  induction summaries with
  | nil =>
      by_cases hid : update.orderId = id
      · simp [applyTo, OrderSummary.apply, SummaryUpdate.blank, hid]
      · simp [applyTo, OrderSummary.apply, SummaryUpdate.blank, hid]
  | cons summary rest ih =>
      simp only [applyTo]
      split
      · by_cases hid : update.orderId = id
        · simp [OrderSummary.apply, SummaryUpdate.blank, hid]
        · simp [OrderSummary.apply, SummaryUpdate.blank, hid]
      · split
        · rename_i hsame
          by_cases hid : update.orderId = id
          · simp [OrderSummary.apply, hsame, hid]
          · simp [OrderSummary.apply, hsame, hid]
        · rename_i hother
          by_cases hid : summary.orderId = id
          · have hne : update.orderId ≠ id := fun heq => hother (hid.trans heq.symm)
            simp [hid, hne]
          · simpa [List.find?_cons, hid] using ih

/-- What comes of updates, given latest first. -/
def ofUpdates : List (SummaryUpdate × Instant) → OrderSummaries
  | [] => empty
  | (update, time) :: earlier => (ofUpdates earlier).apply update time

/-- A summary shows the state that the latest update of its order names. -/
theorem state?_ofUpdates (updates : List (SummaryUpdate × Instant)) (id : OrderId) :
    (ofUpdates updates).state? id = (updatesOf id updates).head?.map (·.state) := by
  induction updates with
  | nil => rfl
  | cons entry earlier ih =>
      obtain ⟨update, time⟩ := entry
      rw [ofUpdates, state?_apply, ih]
      by_cases hid : update.orderId = id
      · simp [updatesOf, hid]
      · simp [updatesOf, hid]

end OrderSummaries

/-- The commands that update summaries, among all that the handlers of a service take. -/
structure SummaryCommands (κ : Type) where
  command : SummaryUpdate → κ
  update? : κ → Option SummaryUpdate
  update?_command : ∀ update, update? (command update) = some update

/-- The update that a handler has taken over, with the time of its envelope. -/
def Call.update? (commands : SummaryCommands κ) :
    (call : Call κ) → call.Answer → Option (SummaryUpdate × Instant)
  | .handle command, Except.ok _ =>
      (commands.update? command.message).map (·, command.metadata.createdAt)
  | _, _ => none

def Moment.update? (commands : SummaryCommands κ) (moment : Moment κ τ) :
    Option (SummaryUpdate × Instant) :=
  moment.call.update? commands moment.answer

def updates (commands : SummaryCommands κ) (history : List (Moment κ τ)) :
    List (SummaryUpdate × Instant) :=
  history.filterMap (Moment.update? commands)

def summaries (commands : SummaryCommands κ) (history : List (Moment κ τ)) : OrderSummaries :=
  OrderSummaries.ofUpdates (updates commands history)

theorem mem_updatesOf {commands : SummaryCommands κ} {history : List (Moment κ τ)} {id : OrderId}
    {update : SummaryUpdate} :
    update ∈ updatesOf id (updates commands history) ↔
      (∃ moment ∈ history, ∃ time, moment.update? commands = some (update, time)) ∧
        update.orderId = id := by
  simp only [updatesOf, updates, List.mem_filter, List.mem_map, List.mem_filterMap, Prod.exists,
    exists_and_right, exists_eq_right, beq_iff_eq]
  refine and_congr_left fun _ => ⟨?_, ?_⟩
  · rintro ⟨time, moment, hmoment, hupdate⟩
    exact ⟨moment, hmoment, time, hupdate⟩
  · rintro ⟨moment, hmoment, time, hupdate⟩
    exact ⟨time, moment, hmoment, hupdate⟩

/-- An update is taken over by a handler. -/
theorem Moment.of_update? {commands : SummaryCommands κ} {moment : Moment κ τ}
    {update : SummaryUpdate} {time : Instant} (h : moment.update? commands = some (update, time)) :
    moment.delivers = true ∧ ∃ command, moment.call = .handle command ∧
      commands.update? command.message = some update := by
  obtain ⟨worker, call, answer, before, after⟩ := moment
  cases call with
  | handle command =>
      match answer with
      | .error error => cases h
      | .ok value =>
          obtain ⟨taken, htaken, heq⟩ := Option.map_eq_some_iff.1 h
          obtain ⟨rfl, rfl⟩ := Prod.mk.inj heq
          exact ⟨rfl, command, rfl, htaken⟩
  | _ => cases h

/-- Whoever reads an object as an envelope finds its payload in it. -/
theorem RawEnvelope.message_of_ofJson {data payload : Json} {envelope : RawEnvelope}
    (h : ofJson data = .ok envelope) (hpayload : data.get? "message" = some payload) :
    envelope.message = payload := by
  cases data with
  | obj members =>
      have hmessage : findEntry? "message" members = some payload := hpayload
      have hfields : (Json.obj members).record? fieldNames 2 =
          some [some payload, findEntry? "metadata" members] := by
        rw [← hmessage]
        rfl
      unfold ofJson at h
      split at h
      · rename_i read hread
        obtain rfl := Except.ok.inj h
        simp only [ofJson?, hfields, neededField?, Option.bind_eq_bind, Option.bind_some,
          Option.bind_eq_some_iff, Option.pure_def, Option.some.injEq] at hread
        obtain ⟨metadata, _, rfl⟩ := hread
        rfl
      · cases h
  | _ => cases hpayload

/-- A row that tells of an update has the update in its envelope. -/
theorem Row.payload_of_notice {row : Row} {update : SummaryUpdate}
    (h : row.notice = Notice.of .internal update) :
    row.data.get? "message" = some update.toJson := by
  have hpayload : (row.data.get? "message").getD .null = update.toJson :=
    congrArg Notice.payload h
  cases hfound : row.data.get? "message" with
  | none =>
      rw [hfound] at hpayload
      cases hpayload
  | some payload =>
      rw [hfound] at hpayload
      exact congrArg some hpayload

namespace SummaryCommands

variable {commands : SummaryCommands κ} {registry : Registry κ}

/-- A registry has updates of summaries become their commands. -/
def HandledBy (commands : SummaryCommands κ) (registry : Registry κ) : Prop :=
  ∃ name, registry.entries.get? (Message.typeName SummaryUpdate) =
    some ⟨Registry.decodeAs SummaryUpdate,
      some ⟨name, Registry.commandAs SummaryUpdate commands.command⟩⟩

theorem handledBy_registerOrders (commands : SummaryCommands κ) (registry : Registry κ) :
    commands.HandledBy (registry.registerOrders commands.command) :=
  ⟨_, Table.get?_insert_self ..⟩

theorem HandledBy.command_eq (h : commands.HandledBy registry) {envelope : RawEnvelope}
    {update : SummaryUpdate} (htype : envelope.typeName? = some (Message.typeName SummaryUpdate))
    (hmessage : envelope.message = update.toJson) :
    registry.command envelope = .ok ⟨commands.command update, envelope.metadata⟩ := by
  obtain ⟨name, hentry⟩ := h
  have hread : Message.ofJson? (α := SummaryUpdate) envelope.message = some update := by
    rw [hmessage]
    exact SummaryUpdate.ofJson?_toJson update
  have hunwrap : Envelope.unwrap SummaryUpdate envelope = .ok ⟨update, envelope.metadata⟩ := by
    simp only [Envelope.unwrap, htype, Option.getD_some, ↓reduceIte, hread]
  simp only [Registry.command, Registry.lookup, htype, Option.getD_some, hentry]
  change Registry.commandAs SummaryUpdate commands.command envelope = _
  rw [Registry.commandAs, hunwrap]
  rfl

end SummaryCommands

/-- To hand over a row that tells of an update is to have the update applied. -/
theorem Shift.HandsOver.updates {shift : Shift κ} {row : Row} {call : Call κ}
    (h : shift.HandsOver row call) {commands : SummaryCommands κ}
    (hhandled : commands.HandledBy shift.publisher.router.registry) {update : SummaryUpdate}
    (hnotice : row.notice = Notice.of .internal update) :
    ∃ metadata, call = .handle ⟨commands.command update, metadata⟩ := by
  obtain ⟨envelope, hread, htype, ⟨hdelivery, _⟩ | ⟨_, command, hcommand, hcall⟩⟩ := h.cases
  · have hinternal : row.delivery = .internal := congrArg Notice.delivery hnotice
    rw [hinternal] at hdelivery
    cases hdelivery
  · have hname : row.dataType = Message.typeName SummaryUpdate := congrArg Notice.dataType hnotice
    have hmessage := RawEnvelope.message_of_ofJson hread (Row.payload_of_notice hnotice)
    rw [hname] at htype
    obtain rfl := Except.ok.inj (hcommand.symm.trans (hhandled.command_eq htype hmessage))
    exact ⟨envelope.metadata, hcall⟩

theorem Moment.HandedOver.update? {shift? : τ → Option (Shift κ)} {moment : Moment κ τ} {row : Row}
    (h : moment.HandedOver shift? row) {commands : SummaryCommands κ}
    (hhandled : ∀ worker shift, moment.worker = some worker → shift? worker.task = some shift →
      commands.HandledBy shift.publisher.router.registry)
    {update : SummaryUpdate} (hnotice : row.notice = Notice.of .internal update) :
    ∃ time, moment.update? commands = some (update, time) := by
  obtain ⟨htaken, worker, shift, hworker, hshift, hhands⟩ := h
  obtain ⟨metadata, hcall⟩ := hhands.updates (hhandled worker shift hworker hshift) hnotice
  obtain ⟨worker, call, answer, before, after⟩ := moment
  change call = _ at hcall
  subst hcall
  refine ⟨metadata.createdAt, ?_⟩
  match answer with
  | .error error => cases htaken
  | .ok value => exact congrArg (Option.map _) (commands.update?_command update)

end Courier
