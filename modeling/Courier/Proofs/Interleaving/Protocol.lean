import Courier.Proofs.Interleaving.Snapshots
/-
Protocols: which calls a program may make in which phase, and the phase that every answer leads to.
A program that keeps to a protocol on its own keeps to it in every interleaving, so that what a job
has called and been answered so far tells what it may call next.
-/
namespace Courier

variable {κ τ ρ σ α β ε : Type}

/-- What an answer can be, whoever else is at work on the store. -/
def Call.Plausible : (call : Call κ) → call.Answer → Prop
  | .due query, Except.ok rows => ∀ row ∈ rows, query.selects row = true
  | .swap change, Except.ok (some row) => ∃ old, change.fits old = true ∧ row = old.apply change
  | .get id, Except.ok (some row) => row.id = id
  | .begin, Except.ok tx => tx = Transaction.empty
  | .stage tx draft, Except.ok (written, row) =>
      (∃ id now, row = Row.fresh id draft now) ∧ written = { tx with rows := tx.rows ++ [row] }
  | .saveDocument tx collection key body expected, Except.ok (written, saved) =>
      (∃ now, saved = ⟨collection, key, expected + 1, body, now⟩) ∧
        written = { tx with documents := tx.documents ++ [⟨expected, saved⟩] }
  | _, _ => True

theorem plausible_get {store : Store} {manner : Manner} {id : RowId} :
    Call.Plausible (.get id : Call κ) (store.respond manner (.get id : Call κ)).1 := by
  rcases manner.onStore_look store (.ok (store.get? id)) with h | ⟨error, h⟩
  · change Call.Plausible (.get id : Call κ) (manner.onStore store (.ok (store.get? id), store)).1
    rw [h]
    cases hrow : store.get? id with
    | none => trivial
    | some row => exact (Store.mem_of_get? hrow).2
  · change Call.Plausible (.get id : Call κ) (manner.onStore store (.ok (store.get? id), store)).1
    rw [h]
    trivial

theorem plausible_due {store : Store} {manner : Manner} {query : DueQuery} :
    Call.Plausible (.due query : Call κ) (store.respond manner (.due query : Call κ)).1 := by
  change Call.Plausible (.due query : Call κ) (manner.onStore store (.ok (store.due query), store)).1
  rcases manner.onStore_look store (.ok (store.due query)) with h | ⟨error, h⟩
  · rw [h]
    intro row hrow
    exact (Store.mem_due hrow).2
  · rw [h]
    trivial

theorem plausible_swap {store : Store} {manner : Manner} {change : Change} :
    Call.Plausible (.swap change : Call κ) (store.respond manner (.swap change : Call κ)).1 := by
  change Call.Plausible (.swap change : Call κ) (manner.onStore store (store.swap change).swap).1
  have hresponse := swap_response (κ := κ) (manner.onStore_cases store (store.swap change).swap)
  generalize manner.onStore store (store.swap change).swap = response at hresponse ⊢
  obtain ⟨answer, after⟩ := response
  match answer with
  | .ok (some found) =>
      rcases hresponse with ⟨_, hnone⟩ | ⟨row, _, hfits, _, hshown⟩
      · cases hnone
      · exact ⟨row, hfits, hshown found (List.mem_singleton_self found)⟩
  | .ok none => trivial
  | .error error => trivial

theorem plausible_stage {store : Store} {manner : Manner} {tx : Transaction} {draft : Draft} :
    Call.Plausible (.stage tx draft : Call κ)
      (store.respond manner (.stage tx draft : Call κ)).1 := by
  refine manner.onStore_answer store (Call.Plausible (.stage tx draft : Call κ)) (fun _ => trivial) ?_
  rcases store.stage_cases tx draft manner.clock with ⟨error, hstage⟩ | hstage
  · rw [hstage]
    trivial
  · rw [hstage]
    exact ⟨⟨_, _, rfl⟩, rfl⟩

theorem plausible_saveDocument {store : Store} {manner : Manner} {tx : Transaction}
    {collection key : String} {body : Json} {expected : Int} :
    Call.Plausible (.saveDocument tx collection key body expected : Call κ)
      (store.respond manner (.saveDocument tx collection key body expected : Call κ)).1 := by
  refine manner.onStore_answer store
    (Call.Plausible (.saveDocument tx collection key body expected : Call κ)) (fun _ => trivial) ?_
  cases hsave : store.saveDocument tx collection key body expected manner.clock with
  | error error => trivial
  | ok saved =>
      obtain ⟨hsaved, hwritten⟩ := Store.saveDocument_ok hsave
      exact ⟨⟨_, hsaved⟩, hwritten⟩

theorem Store.respond_plausible (store : Store) (manner : Manner) (call : Call κ) :
    call.Plausible (store.respond manner call).1 := by
  cases call with
  | get id => exact plausible_get
  | due query => exact plausible_due
  | swap change => exact plausible_swap
  | begin =>
      exact manner.onStore_answer store (Call.Plausible (.begin : Call κ)) (fun _ => trivial) rfl
  | stage tx draft => exact plausible_stage
  | saveDocument tx collection key body expected => exact plausible_saveDocument
  | _ => trivial

/-- The calls that are allowed in a phase, and the phase that an answer leads to. -/
structure Protocol (κ σ : Type) where
  allows : σ → Call κ → Prop
  next : σ → (call : Call κ) → call.Answer → σ

namespace Program

/-- Every run of a program from a phase, whatever it is answered, makes allowed calls only, and ends
as it should. -/
def Keeps (protocol : Protocol κ σ) (ends : α → σ → Prop) : Program κ α → σ → Prop
  | .done value, phase => ends value phase
  | .ask call next, phase =>
      protocol.allows phase call ∧ ∀ answer, call.Plausible answer →
        (next answer).Keeps protocol ends (protocol.next phase call answer)

theorem Keeps.mono {protocol : Protocol κ σ} {ends others : α → σ → Prop} {program : Program κ α}
    {phase : σ} (h : program.Keeps protocol ends phase)
    (hends : ∀ value phase, ends value phase → others value phase) :
    program.Keeps protocol others phase := by
  induction program generalizing phase with
  | done value => exact hends value phase h
  | ask call next ih =>
      obtain ⟨hallows, hnext⟩ := h
      exact ⟨hallows, fun answer hplausible => ih answer (hnext answer hplausible)⟩

/-- A program that keeps to a protocol keeps to one that allows more. -/
theorem Keeps.weaken {protocol other : Protocol κ σ} {ends : α → σ → Prop} {program : Program κ α}
    {phase : σ} (h : program.Keeps protocol ends phase) (hnext : other.next = protocol.next)
    (hallows : ∀ phase call, protocol.allows phase call → other.allows phase call) :
    program.Keeps other ends phase := by
  induction program generalizing phase with
  | done value => exact h
  | ask call next ih =>
      refine ⟨hallows phase call h.1, fun answer hplausible => ?_⟩
      rw [hnext]
      exact ih answer (h.2 answer hplausible)

/-- A program makes its calls under another protocol as well that allows them in every phase. -/
theorem Keeps.elsewhere {π : Type} {protocol : Protocol κ σ} {other : Protocol κ π}
    {ends : α → σ → Prop} {program : Program κ α} {phase : σ} (h : program.Keeps protocol ends phase)
    (hallows : ∀ phase call, protocol.allows phase call → ∀ place, other.allows place call)
    (place : π) : program.Keeps other (fun _ _ => True) place := by
  induction program generalizing phase place with
  | done value => trivial
  | ask call next ih =>
      refine ⟨hallows phase call h.1 place, fun answer hplausible => ?_⟩
      exact ih answer (h.2 answer hplausible) (other.next place call answer)

theorem Keeps.bind {protocol : Protocol κ σ} {ends : β → σ → Prop} {program : Program κ α}
    {f : α → Program κ β} {phase : σ}
    (h : program.Keeps protocol (fun value phase => (f value).Keeps protocol ends phase) phase) :
    (program.bind f).Keeps protocol ends phase := by
  induction program generalizing phase with
  | done value => exact h
  | ask call next ih =>
      obtain ⟨hallows, hnext⟩ := h
      exact ⟨hallows, fun answer hplausible => ih answer (hnext answer hplausible)⟩

theorem Keeps.andThen {protocol : Protocol κ σ} {ends : Except ε β → σ → Prop}
    {first : Attempt κ ε α} {f : α → Attempt κ ε β} {phase : σ}
    (h : Program.Keeps protocol (fun outcome phase =>
      (∀ value, outcome = .ok value → Program.Keeps protocol ends (f value) phase) ∧
        ∀ error, outcome = .error error → ends (.error error) phase) first phase) :
    Program.Keeps protocol ends (first >>= f : Attempt κ ε β) phase := by
  refine Keeps.bind (h.mono fun outcome phase houtcome => ?_)
  cases outcome with
  | ok value => exact houtcome.1 value rfl
  | error error => exact houtcome.2 error rfl

section after

variable {protocol : Protocol κ σ} {ends : Except ε β → σ → Prop} {f : α → Attempt κ ε β} {phase : σ}

/-- What `andThen` asks for after a success: the rest goes on with the value. -/
theorem Keeps.succeeded {value : α} (h : Program.Keeps protocol ends (f value) phase) :
    (∀ given, (.ok value : Except ε α) = .ok given → Program.Keeps protocol ends (f given) phase) ∧
      ∀ error, (.ok value : Except ε α) = .error error → ends (.error error) phase := by
  refine ⟨fun given hgiven => ?_, fun error herror => ?_⟩
  · cases hgiven
    exact h
  · cases herror

/-- What `andThen` asks for after a failure: it ends the whole. -/
theorem Keeps.failed {error : ε} (h : ends (.error error) phase) :
    (∀ value, (.error error : Except ε α) = .ok value → Program.Keeps protocol ends (f value) phase) ∧
      ∀ given, (.error error : Except ε α) = .error given → ends (.error given) phase := by
  refine ⟨fun value hvalue => ?_, fun given hgiven => ?_⟩
  · cases hvalue
  · cases hgiven
    exact h

end after

theorem Keeps.ofExcept {protocol : Protocol κ σ} {ends : Except ε α → σ → Prop}
    {outcome : Except ε α} {phase : σ} (h : ends outcome phase) :
    Program.Keeps protocol ends (Attempt.ofExcept outcome) phase :=
  h

/-- What comes after a program that cannot fail may depend on its value. -/
theorem Keeps.lifting {protocol : Protocol κ σ} {ends : Except ε β → σ → Prop}
    {program : Program κ α} {f : α → Attempt κ ε β} {phase : σ}
    (h : program.Keeps protocol (fun value phase => Program.Keeps protocol ends (f value) phase)
      phase) :
    Program.Keeps protocol ends ((liftM program : Attempt κ ε α) >>= f : Attempt κ ε β) phase :=
  Keeps.bind (Keeps.bind (h.mono fun _ _ hrest => hrest))

/-- Work in a transaction goes on with the value of a program that has none. -/
theorem Keeps.working {protocol : Protocol κ σ}
    {ends : Except MessagingError β × Transaction → σ → Prop} {program : Program κ α}
    {f : α → Work κ β} {tx : Transaction} {phase : σ}
    (h : program.Keeps protocol
      (fun value phase => ((f value).inside tx).Keeps protocol ends phase) phase) :
    (((liftM program : Work κ α) >>= f).inside tx).Keeps protocol ends phase :=
  Keeps.bind (Keeps.bind (Keeps.bind (h.mono fun _ _ hrest => hrest)))

theorem Keeps.calling {δ : Type} {protocol : Protocol κ σ} {ends : Except ε α → σ → Prop}
    {wrap : δ → ε} {program : Program κ (Except δ α)} {phase : σ}
    (h : program.Keeps protocol (fun outcome phase => ends (outcome.mapError wrap) phase) phase) :
    Program.Keeps protocol ends (Attempt.calling wrap program) phase := by
  refine Keeps.bind (h.mono fun outcome phase houtcome => ?_)
  cases outcome with
  | ok value => exact houtcome
  | error error => exact houtcome

end Program

def Protocol.phase (protocol : Protocol κ σ) (first : σ) (number : Nat) :
    List (Moment κ τ) → σ
  | [] => first
  | moment :: past =>
      if moment.isBy number then
        protocol.next (protocol.phase first number past) moment.call moment.answer
      else protocol.phase first number past

@[simp]
theorem Protocol.phase_cons_by {protocol : Protocol κ σ} {first : σ} {number : Nat}
    {moment : Moment κ τ} {past : List (Moment κ τ)} (h : moment.isBy number = true) :
    protocol.phase first number (moment :: past) =
      protocol.next (protocol.phase first number past) moment.call moment.answer :=
  if_pos h

@[simp]
theorem Protocol.phase_cons_other {protocol : Protocol κ σ} {first : σ} {number : Nat}
    {moment : Moment κ τ} {past : List (Moment κ τ)} (h : moment.isBy number = false) :
    protocol.phase first number (moment :: past) = protocol.phase first number past :=
  if_neg (ne_true_of_eq_false h)

/-- The phase depends on what answers lead to, and not on what is allowed. -/
theorem Protocol.phase_congr {protocol other : Protocol κ σ} (h : protocol.next = other.next)
    (first : σ) (number : Nat) (history : List (Moment κ τ)) :
    protocol.phase first number history = other.phase first number history := by
  induction history with
  | nil => rfl
  | cons moment past ih => simp only [phase, ih, h]

/-- Every task's program keeps to the protocol of its task, and ends as it should. -/
def Rules.FollowsTo (rules : Rules κ τ ρ) (protocol : τ → Protocol κ σ) (ends : τ → ρ → σ → Prop)
    (first : τ → σ) : Prop :=
  ∀ task, (rules.program task).Keeps (protocol task) (ends task) (first task)

def Rules.Follows (rules : Rules κ τ ρ) (protocol : τ → Protocol κ σ) (first : τ → σ) : Prop :=
  rules.FollowsTo protocol (fun _ _ _ => True) first

namespace World

def phase (world : World κ τ ρ) (protocol : τ → Protocol κ σ) (first : τ → σ) (worker : Worker τ) : σ :=
  (protocol worker.task).phase (first worker.task) worker.number world.history

theorem phase_record (world : World κ τ ρ) (protocol : τ → Protocol κ σ) (first : τ → σ)
    (worker : Worker τ) (moment : Moment κ τ) :
    (world.record moment).phase protocol first worker =
      if moment.isBy worker.number then
        (protocol worker.task).next (world.phase protocol first worker) moment.call moment.answer
      else world.phase protocol first worker :=
  rfl

theorem Protocol.phase_eq_first {protocol : Protocol κ σ} {first : σ} {number : Nat}
    {past : List (Moment κ τ)} (h : ∀ moment ∈ past, moment.isBy number = false) :
    protocol.phase first number past = first := by
  induction past with
  | nil => rfl
  | cons moment past ih =>
      obtain ⟨hmoment, hpast⟩ := List.forall_mem_cons.1 h
      rw [Courier.Protocol.phase_cons_other hmoment, ih hpast]

/-- Workers are jobs, and what is left of each keeps to its protocol. -/
structure Keeping (protocol : τ → Protocol κ σ) (ends : τ → ρ → σ → Prop) (first : τ → σ)
    (world : World κ τ ρ) : Prop where
  worker : ∀ moment ∈ world.history, ∀ worker, moment.worker = some worker →
    ∃ rest, world.jobs[worker.number]? = some ⟨worker.task, rest⟩
  rest : ∀ worker : Worker τ, ∀ rest, world.jobs[worker.number]? = some ⟨worker.task, rest⟩ →
    rest.Keeps (protocol worker.task) (ends worker.task) (world.phase protocol first worker)

variable {protocol : τ → Protocol κ σ} {ends : τ → ρ → σ → Prop} {first : τ → σ}
  {world : World κ τ ρ}

/-- Nobody has called under a number that no job has yet. -/
theorem Keeping.isBy_eq_false (h : world.Keeping protocol ends first) {number : Nat}
    (hnew : world.jobs.length ≤ number) : ∀ moment ∈ world.history, moment.isBy number = false := by
  intro moment hmoment
  cases hby : moment.worker with
  | none => simp [Moment.isBy, hby]
  | some other =>
      obtain ⟨rest, hjob⟩ := h.worker moment hmoment other hby
      have hlt := (List.getElem?_eq_some_iff.1 hjob).1
      have hne : other.number ≠ number := by omega
      simp [Moment.isBy, hby, hne]

theorem Keeping.start (h : world.Keeping protocol ends first) {task : τ} {program : Program κ ρ}
    (hprogram : program.Keeps (protocol task) (ends task) (first task)) :
    World.Keeping protocol ends first { world with jobs := world.jobs ++ [⟨task, program⟩] } := by
  constructor
  · intro moment hmoment worker hworker
    obtain ⟨rest, hrest⟩ := h.worker moment hmoment worker hworker
    have hlt := (List.getElem?_eq_some_iff.1 hrest).1
    exact ⟨rest, (List.getElem?_append_left hlt).trans hrest⟩
  · intro worker rest hrest
    change (world.jobs ++ [⟨task, program⟩])[worker.number]? = _ at hrest
    rcases Nat.lt_or_ge worker.number world.jobs.length with hlt | hge
    · rw [List.getElem?_append_left hlt] at hrest
      exact h.rest worker rest hrest
    · rw [List.getElem?_append_right hge, List.getElem?_singleton] at hrest
      split at hrest
      · obtain ⟨rfl, rfl⟩ := Job.mk.inj (Option.some.inj hrest)
        change program.Keeps _ _ (world.phase protocol first worker)
        rw [phase, Protocol.phase_eq_first (h.isBy_eq_false hge)]
        exact hprogram
      · cases hrest

theorem Keeping.work (h : world.Keeping protocol ends first) {worker : Worker τ} {call : Call κ}
    {next : call.Answer → Program κ ρ} (manner : Manner)
    (hjob : world.jobs[worker.number]? = some ⟨worker.task, .ask call next⟩) :
    World.Keeping protocol ends first { world.record (world.moment (some worker) call manner) with
      jobs := world.jobs.set worker.number
        ⟨worker.task, next (world.moment (some worker) call manner).answer⟩ } := by
  have hlt := (List.getElem?_eq_some_iff.1 hjob).1
  constructor
  · intro moment hmoment other hother
    change ∃ rest, (world.jobs.set worker.number _)[other.number]? = some ⟨other.task, rest⟩
    rcases List.mem_cons.1 hmoment with rfl | hmoment
    · obtain rfl := Option.some.inj hother
      exact ⟨_, List.getElem?_set_self hlt⟩
    · obtain ⟨rest, hrest⟩ := h.worker moment hmoment other hother
      by_cases heq : worker.number = other.number
      · rw [← heq, hjob] at hrest
        have htask := congrArg Job.task (Option.some.inj hrest)
        simp only at htask
        rw [← heq, ← htask]
        exact ⟨_, List.getElem?_set_self hlt⟩
      · exact ⟨rest, (List.getElem?_set_ne heq).trans hrest⟩
  · intro other rest hrest
    change (world.jobs.set worker.number _)[other.number]? = _ at hrest
    change rest.Keeps _ _ ((world.record (world.moment (some worker) call manner)).phase _ _ other)
    rw [phase_record]
    by_cases heq : worker.number = other.number
    · rw [← heq, List.getElem?_set_self hlt] at hrest
      obtain ⟨htask, hnext⟩ := Job.mk.inj (Option.some.inj hrest)
      obtain ⟨number, task⟩ := other
      simp only at heq htask
      subst heq htask hnext
      have hby : (world.moment (some worker) call manner).isBy worker.number = true := by
        simp [World.moment, Moment.isBy]
      rw [if_pos hby]
      exact (h.rest worker _ hjob).2 _ (world.store.respond_plausible manner call)
    · rw [List.getElem?_set_ne heq] at hrest
      have hby : (world.moment (some worker) call manner).isBy other.number = false := by
        simp [World.moment, Moment.isBy, heq]
      rw [hby]
      exact h.rest other rest hrest

theorem keeping {rules : Rules κ τ ρ} (hfollows : rules.FollowsTo protocol ends first)
    (actions : List (Action κ τ)) : (rules.world actions).Keeping protocol ends first := by
  refine Rules.world_induction (World.Keeping protocol ends first) ?_ ?_ actions
  · constructor
    · intro moment hmoment
      cases hmoment
    · intro worker rest hrest
      cases hrest
  · intro earlier next h hnext
    generalize rules.world earlier = world at h hnext
    cases hnext with
    | idle => exact h
    | started task hadmits => exact h.start (hfollows task)
    | worked worker call next manner hjob hallows => exact h.work manner hjob
    | called call manner hbystander hallows =>
        constructor
        · intro moment hmoment worker hworker
          rcases List.mem_cons.1 hmoment with rfl | hmoment
          · cases hworker
          · exact h.worker moment hmoment worker hworker
        · exact h.rest
    | cleared hclears => exact ⟨h.worker, h.rest⟩

/-- The next call of a job is allowed in the phase that it is in. -/
theorem Keeping.allows (h : world.Keeping protocol ends first) {worker : Worker τ} {call : Call κ}
    {next : call.Answer → Program κ ρ}
    (hjob : world.jobs[worker.number]? = some ⟨worker.task, .ask call next⟩) :
    (protocol worker.task).allows (world.phase protocol first worker) call :=
  (h.rest worker _ hjob).1

/-- A job that is done has ended as it should. -/
theorem Keeping.ended (h : world.Keeping protocol ends first) {worker : Worker τ} {value : ρ}
    (hjob : world.jobs[worker.number]? = some ⟨worker.task, .done value⟩) :
    ends worker.task value (world.phase protocol first worker) :=
  h.rest worker _ hjob

end World

end Courier
