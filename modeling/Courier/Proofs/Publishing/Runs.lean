import Courier.Publishing.Publisher
/-
Runs of a program that is alone with its surroundings.  From every state there is one run; where it
leads is found out piece by piece, in the way the program is put together.
-/
namespace Courier

variable {κ σ α β δ ε : Type} {answer : (call : Call κ) → σ → call.Answer × σ} {state : σ}

namespace Program

def Ends (answer : (call : Call κ) → σ → call.Answer × σ) (program : Program κ α) (state : σ)
    (goal : α → σ → Prop) : Prop :=
  goal (run answer program state).1 (run answer program state).2

namespace Ends

theorem mono {program : Program κ α} {goal other : α → σ → Prop}
    (h : program.Ends answer state goal)
    (hgoal : ∀ value after, goal value after → other value after) :
    program.Ends answer state other :=
  hgoal _ _ h

theorem bind {program : Program κ α} {f : α → Program κ β} {goal : β → σ → Prop}
    (h : program.Ends answer state fun value after => (f value).Ends answer after goal) :
    (program.bind f).Ends answer state goal := by
  unfold Ends
  rw [run_bind]
  exact h

theorem andThen {first : Attempt κ ε α} {f : α → Attempt κ ε β} {middle : Except ε α → σ → Prop}
    {goal : Except ε β → σ → Prop} (h : Program.Ends answer first state middle)
    (hrest : ∀ value after, middle (.ok value) after → Program.Ends answer (f value) after goal)
    (hfails : ∀ error after, middle (.error error) after → goal (.error error) after) :
    Program.Ends answer (first >>= f : Attempt κ ε β) state goal := by
  refine bind (mono h fun outcome after hmiddle => ?_)
  cases outcome with
  | ok value => exact hrest value after hmiddle
  | error error => exact hfails error after hmiddle

theorem map {f : α → β} {attempt : Attempt κ ε α} {goal : Except ε β → σ → Prop}
    (h : Program.Ends answer attempt state fun outcome => goal (outcome.map f)) :
    Program.Ends answer (f <$> attempt : Attempt κ ε β) state goal := by
  refine bind (mono h fun outcome after hgoal => ?_)
  cases outcome with
  | ok value => exact hgoal
  | error error => exact hgoal

/-- What comes after a program that cannot fail may depend on its value. -/
theorem lifting {program : Program κ α} {f : α → Attempt κ ε β} {goal : Except ε β → σ → Prop}
    (h : program.Ends answer state fun value after => Program.Ends answer (f value) after goal) :
    Program.Ends answer ((liftM program : Attempt κ ε α) >>= f : Attempt κ ε β) state goal :=
  bind (bind (mono h fun _ _ hrest => hrest))

theorem calling {wrap : δ → ε} {program : Program κ (Except δ α)} {goal : Except ε α → σ → Prop}
    (h : program.Ends answer state fun outcome => goal (outcome.mapError wrap)) :
    Program.Ends answer (Attempt.calling wrap program) state goal := by
  refine bind (mono h fun outcome after hgoal => ?_)
  cases outcome with
  | ok value => exact hgoal
  | error error => exact hgoal

end Ends

end Program

/-- The run of a step ends as it should, with its outcome, its report and what is left. -/
def TickStep.Ends (answer : (call : Call κ) → σ → call.Answer × σ) (step : TickStep κ α)
    (report : TickReport) (state : σ)
    (goal : Except MessagingError α → TickReport → σ → Prop) : Prop :=
  (step.runFrom report).Ends answer state fun result => goal result.1 result.2

namespace TickStep.Ends

variable {report : TickReport}

theorem mono {step : TickStep κ α} {goal other : Except MessagingError α → TickReport → σ → Prop}
    (h : step.Ends answer report state goal)
    (hgoal : ∀ outcome last after, goal outcome last after → other outcome last after) :
    step.Ends answer report state other :=
  Program.Ends.mono h fun _ => hgoal _ _

theorem andThen {first : TickStep κ α} {f : α → TickStep κ β}
    {middle : Except MessagingError α → TickReport → σ → Prop}
    {goal : Except MessagingError β → TickReport → σ → Prop}
    (h : first.Ends answer report state middle)
    (hrest : ∀ value last after, middle (.ok value) last after → (f value).Ends answer last after goal)
    (hfails : ∀ error last after, middle (.error error) last after → goal (.error error) last after) :
    TickStep.Ends answer (first >>= f) report state goal := by
  refine Program.Ends.bind (Program.Ends.mono h fun result after hmiddle => ?_)
  obtain ⟨outcome, last⟩ := result
  cases outcome with
  | ok value => exact hrest value last after hmiddle
  | error error => exact hfails error last after hmiddle

/-- The report is changed first. -/
theorem modifying {change : TickReport → TickReport} {step : TickStep κ α}
    {goal : Except MessagingError α → TickReport → σ → Prop}
    (h : step.Ends answer (change report) state goal) :
    TickStep.Ends answer (modify change >>= fun _ => step) report state goal :=
  h

/-- An attempt reports nothing. -/
theorem of {attempt : Attempt κ MessagingError α} {f : α → TickStep κ β}
    {middle : Except MessagingError α → σ → Prop}
    {goal : Except MessagingError β → TickReport → σ → Prop}
    (h : Program.Ends answer attempt state middle)
    (hrest : ∀ value after, middle (.ok value) after → (f value).Ends answer report after goal)
    (hfails : ∀ error after, middle (.error error) after → goal (.error error) report after) :
    TickStep.Ends answer (TickStep.of attempt >>= f) report state goal := by
  refine Program.Ends.bind (Program.Ends.bind (Program.Ends.mono h fun outcome after hmiddle => ?_))
  cases outcome with
  | ok value => exact hrest value after hmiddle
  | error error => exact hfails error after hmiddle

/-- A program that cannot fail reports nothing. -/
theorem lifting {program : Program κ α} {f : α → TickStep κ β}
    {goal : Except MessagingError β → TickReport → σ → Prop}
    (h : program.Ends answer state fun value after => (f value).Ends answer report after goal) :
    TickStep.Ends answer ((liftM program : TickStep κ α) >>= f) report state goal :=
  Program.Ends.bind (Program.Ends.bind (Program.Ends.bind (Program.Ends.mono h fun _ _ hrest => hrest)))

end TickStep.Ends

namespace Publisher

def batchQuery (publisher : Publisher κ) (now : Instant) : DueQuery :=
  DueQuery.all now publisher.settings.maxRetries publisher.settings.batchSize

/-- A tick that has fetched its batch goes through it to the end. -/
theorem ends_tick {publisher : Publisher κ} {now : Instant} {rows : List Row}
    {goal : Except PublisherError TickReport → σ → Prop}
    (hfetch : (answer (.due (publisher.batchQuery now)) state).1 = .ok rows)
    (h : (publisher.processAll now rows { fetched := rows.length }).Ends answer
      (answer (.due (publisher.batchQuery now)) state).2
      fun report after => goal (.ok report) (answer (.count .tickDone) after).2) :
    Program.Ends answer (publisher.tickAt now) state goal := by
  have hrows : Program.Ends answer
      (Attempt.calling .messaging (publisher.custodian.due now publisher.settings.batchSize).run :
        Attempt κ PublisherError (List Row)) state
      fun outcome after => outcome = .ok rows ∧
        after = (answer (.due (publisher.batchQuery now)) state).2 := by
    refine Program.Ends.calling (Program.Ends.calling ?_)
    change ((((answer (.due (publisher.batchQuery now)) state).1).mapError _).mapError _) = _ ∧ _
    rw [hfetch]
    exact ⟨rfl, rfl⟩
  refine Program.Ends.andThen hrows ?_ ?_
  · rintro _ _ ⟨⟨⟩, rfl⟩
    exact Program.Ends.lifting (Program.Ends.mono h fun report after hgoal => hgoal)
  · rintro _ _ ⟨⟨⟩, _⟩

end Publisher

end Courier
