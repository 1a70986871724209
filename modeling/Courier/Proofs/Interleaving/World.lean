import Courier.Program.Basic
/-
Several programs at work on one store.  Each program is a job; an action lets one job make its next
call, or somebody else a call of his own, and whatever order the actions come in is an interleaving.
A job that is never given another turn has stopped where it stands.
-/
namespace Courier

inductive Mishap where
  /-- It fails without effect. -/
  | refused (error : StoreError)
  /-- It takes effect, but its answer is lost. -/
  | lost (error : StoreError)
deriving DecidableEq

/-- How a call is answered: what the clock shows, whether the store fails, and what everything but
the store answers. -/
structure Manner where
  clock : Instant
  mishap : Option Mishap := none
  published : Except BusError Unit := .ok ()
  handled : Except MessagingError Unit := .ok ()
  minted : Uuid := Uuid.nil
  samples : List String := []

/-- The answer of a store, and the store afterwards, to a call that comes to `done` unless it
fails. -/
def Manner.onStore {α : Type} (manner : Manner) (store : Store)
    (done : Except StoreError α × Store) : Except StoreError α × Store :=
  match manner.mishap with
  | none => done
  | some (.refused error) => (.error error, store)
  | some (.lost error) => (.error error, done.2)

@[simp]
theorem Manner.onStore_of_none {α : Type} {manner : Manner} (h : manner.mishap = none)
    (store : Store) (done : Except StoreError α × Store) : manner.onStore store done = done := by
  simp only [onStore, h]

/-- A commit that leaves the store alone when it fails. -/
def Store.commitOrLeave (store : Store) (tx : Transaction) : Except StoreError Unit × Store :=
  match store.commit tx with
  | .ok committed => (.ok (), committed)
  | .error error => (.error error, store)

variable {κ τ ρ : Type}

def Store.respond (store : Store) (manner : Manner) : (call : Call κ) → call.Answer × Store
  | .begin => manner.onStore store (.ok Transaction.empty, store)
  | .get id => manner.onStore store (.ok (store.get? id), store)
  | .find filter => manner.onStore store (.ok (store.find filter), store)
  | .due query => manner.onStore store (.ok (store.due query), store)
  | .swap change => manner.onStore store (store.swap change).swap
  | .outgoing id => manner.onStore store (.ok (store.outgoingStatuses id), store)
  | .document collection key => manner.onStore store (.ok (store.document? collection key), store)
  | .stage tx draft => manner.onStore store (store.stage tx draft manner.clock).swap
  | .documentIn tx collection key =>
      manner.onStore store (.ok (store.documentIn? tx collection key), store)
  | .saveDocument tx collection key body expected =>
      manner.onStore store (store.saveDocument tx collection key body expected manner.clock, store)
  | .commit tx => manner.onStore store (store.commitOrLeave tx)
  | .publish _ _ => (manner.published, store)
  | .handle _ => (manner.handled, store)
  | .now => (manner.clock, store)
  | .mint => (manner.minted, store)
  | .count _ => ((), store)
  | .samples => (manner.samples, store)

namespace Call

def shown : (call : Call κ) → call.Answer → List Row
  | .get _, Except.ok (some row) => [row]
  | .find _, Except.ok rows => rows
  | .due _, Except.ok rows => rows
  | .swap _, Except.ok (some row) => [row]
  | .stage _ _, Except.ok (_, row) => [row]
  | _, _ => []

def transaction? : Call κ → Option Transaction
  | .stage tx _ => some tx
  | .documentIn tx _ _ => some tx
  | .saveDocument tx _ _ _ _ => some tx
  | .commit tx => some tx
  | _ => none

/-- The open transactions after a call.  A commit ends its transaction, whatever becomes of it. -/
def leaves (opened : List Transaction) : (call : Call κ) → call.Answer → List Transaction
  | .begin, Except.ok tx => tx :: opened
  | .stage tx _, Except.ok (written, _) => written :: opened.erase tx
  | .saveDocument tx _ _ _ _, Except.ok (written, _) => written :: opened.erase tx
  | .commit tx, _ => opened.erase tx
  | _, _ => opened

def isSwap : Call κ → Bool
  | .swap _ => true
  | _ => false

def isHandOver : Call κ → Bool
  | .publish _ _ => true
  | .handle _ => true
  | _ => false

theorem isSwap_of_isHandOver {call : Call κ} (h : call.isHandOver = true) : call.isSwap = false := by
  cases call <;> first | rfl | cases h

end Call

structure Job (κ τ ρ : Type) where
  task : τ
  rest : Program κ ρ

/-- Who makes a call: the number of a job and its task. -/
structure Worker (τ : Type) where
  number : Nat
  task : τ

/-- A call that was made, by a worker or by somebody else, with the store before and after. -/
structure Moment (κ τ : Type) where
  worker : Option (Worker τ)
  call : Call κ
  answer : call.Answer
  before : Store
  after : Store

namespace Moment

def shown (moment : Moment κ τ) : List Row :=
  moment.call.shown moment.answer

def isBy (moment : Moment κ τ) (number : Nat) : Bool :=
  moment.worker.any (·.number == number)

end Moment

/-- A store, the open transactions, the jobs under way, and all that has happened so far, latest
first.  A transaction that is never used again has been dropped. -/
structure World (κ τ ρ : Type) where
  store : Store
  transactions : List Transaction
  jobs : List (Job κ τ ρ)
  history : List (Moment κ τ)

namespace World

def start : World κ τ ρ := ⟨Store.empty, [], [], []⟩

def handedOut (world : World κ τ ρ) : List Row :=
  world.history.flatMap Moment.shown

def staged (world : World κ τ ρ) : List Row :=
  world.transactions.flatMap (·.rows)

def mayCall (world : World κ τ ρ) (call : Call κ) : Bool :=
  call.transaction?.all (world.transactions.contains ·)

def moment (world : World κ τ ρ) (worker : Option (Worker τ)) (call : Call κ) (manner : Manner) :
    Moment κ τ :=
  let response := world.store.respond manner call
  ⟨worker, call, response.1, world.store, response.2⟩

def record (world : World κ τ ρ) (moment : Moment κ τ) : World κ τ ρ :=
  { world with
    store := moment.after
    transactions := moment.call.leaves world.transactions moment.answer
    history := moment :: world.history }

end World

structure Rules (κ τ ρ : Type) where
  /-- The tasks that may be started, given the rows that were handed out. -/
  admits : List Row → τ → Bool
  program : τ → Program κ ρ
  /-- The calls that are made by others. -/
  bystander : Call κ → Bool
  /-- The ways in which the store fails. -/
  mishap : Call κ → Mishap → Bool
  /-- The store may be cleared. -/
  clears : Bool

inductive Action (κ τ : Type) where
  | start (task : τ)
  /-- A job makes its next call. -/
  | work (number : Nat) (manner : Manner)
  /-- Somebody else makes a call. -/
  | call (call : Call κ) (manner : Manner)
  | clear

namespace Rules

def allows (rules : Rules κ τ ρ) (world : World κ τ ρ) (call : Call κ) (manner : Manner) : Bool :=
  world.mayCall call && manner.mishap.all (rules.mishap call)

/-- An action takes place, or nothing happens when the rules are against it. -/
def step (rules : Rules κ τ ρ) (world : World κ τ ρ) : Action κ τ → World κ τ ρ
  | .start task =>
      if rules.admits world.handedOut task then
        { world with jobs := world.jobs ++ [⟨task, rules.program task⟩] }
      else world
  | .work number manner =>
      match world.jobs[number]? with
      | some ⟨task, .ask call next⟩ =>
          if rules.allows world call manner then
            let moment := world.moment (some ⟨number, task⟩) call manner
            { world.record moment with jobs := world.jobs.set number ⟨task, next moment.answer⟩ }
          else world
      | _ => world
  | .call call manner =>
      if rules.bystander call && rules.allows world call manner then
        world.record (world.moment none call manner)
      else world
  | .clear => if rules.clears then { world with store := world.store.clear } else world

def world (rules : Rules κ τ ρ) : List (Action κ τ) → World κ τ ρ
  | [] => World.start
  | action :: earlier => rules.step (rules.world earlier) action

inductive Next (rules : Rules κ τ ρ) (world : World κ τ ρ) : World κ τ ρ → Prop where
  | idle : Next rules world world
  | started (task : τ) (hadmits : rules.admits world.handedOut task = true) :
      Next rules world { world with jobs := world.jobs ++ [⟨task, rules.program task⟩] }
  | worked (worker : Worker τ) (call : Call κ) (next : call.Answer → Program κ ρ)
      (manner : Manner) (hjob : world.jobs[worker.number]? = some ⟨worker.task, .ask call next⟩)
      (hallows : rules.allows world call manner = true) :
      Next rules world { world.record (world.moment (some worker) call manner) with
        jobs := world.jobs.set worker.number
          ⟨worker.task, next (world.moment (some worker) call manner).answer⟩ }
  | called (call : Call κ) (manner : Manner) (hbystander : rules.bystander call = true)
      (hallows : rules.allows world call manner = true) :
      Next rules world (world.record (world.moment none call manner))
  | cleared (hclears : rules.clears = true) :
      Next rules world { world with store := world.store.clear }

theorem step_next (rules : Rules κ τ ρ) (world : World κ τ ρ) (action : Action κ τ) :
    rules.Next world (rules.step world action) := by
  cases action with
  | start task =>
      simp only [step]
      split
      · exact .started task ‹_›
      · exact .idle
  | work number manner =>
      simp only [step]
      split
      · rename_i task call next hjob
        split
        · exact .worked ⟨number, task⟩ call next manner hjob ‹_›
        · exact .idle
      · exact .idle
  | call call manner =>
      simp only [step]
      split
      · rename_i hcalled
        obtain ⟨hbystander, hallows⟩ := Bool.and_eq_true_iff.1 hcalled
        exact .called call manner hbystander hallows
      · exact .idle
  | clear =>
      simp only [step]
      split
      · exact .cleared ‹_›
      · exact .idle

theorem world_induction {rules : Rules κ τ ρ} (holds : World κ τ ρ → Prop)
    (hstart : holds World.start)
    (hstep : ∀ earlier next, holds (rules.world earlier) →
      rules.Next (rules.world earlier) next → holds next)
    (actions : List (Action κ τ)) : holds (rules.world actions) := by
  induction actions with
  | nil => exact hstart
  | cons action earlier ih => exact hstep earlier _ ih (rules.step_next _ action)

/-- Whatever is under way was started. -/
theorem started {rules : Rules κ τ ρ} {actions : List (Action κ τ)} {job : Job κ τ ρ}
    (hjob : job ∈ (rules.world actions).jobs) : .start job.task ∈ actions := by
  induction actions generalizing job with
  | nil => cases hjob
  | cons action earlier ih =>
      change job ∈ (rules.step (rules.world earlier) action).jobs at hjob
      cases action with
      | start task =>
          simp only [step] at hjob
          split at hjob
          · rcases List.mem_append.1 hjob with hold | hnew
            · exact List.mem_cons_of_mem _ (ih hold)
            · obtain rfl := List.mem_singleton.1 hnew
              exact List.mem_cons_self
          · exact List.mem_cons_of_mem _ (ih hjob)
      | work number manner =>
          refine List.mem_cons_of_mem _ ?_
          simp only [step] at hjob
          split at hjob
          · rename_i task call next hworking
            split at hjob
            · rcases List.mem_or_eq_of_mem_set hjob with hold | rfl
              · exact ih hold
              · have hthere := ih (List.mem_of_getElem? hworking)
                exact hthere
            · exact ih hjob
          · exact ih hjob
      | call call manner =>
          refine List.mem_cons_of_mem _ (ih ?_)
          simp only [step] at hjob
          split at hjob <;> exact hjob
      | clear =>
          refine List.mem_cons_of_mem _ (ih ?_)
          simp only [step] at hjob
          split at hjob <;> exact hjob

end Rules

end Courier
