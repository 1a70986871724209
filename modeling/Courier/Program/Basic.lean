import Courier.Program.Call
/-
Programs: operations as the calls they make, one at a time, each choosing the next step by the
answer.  A program does nothing by itself.  Running it against answers gives its result; stepping
several programs in turn gives their interleavings.
-/
namespace Courier

/-- An operation: finished with a value, or about to make a call. -/
inductive Program (κ : Type) (α : Type) where
  | done (value : α)
  | ask (call : Call κ) (next : call.Answer → Program κ α)

namespace Program

variable {κ α β : Type}

/-- One program after another. -/
def bind : Program κ α → (α → Program κ β) → Program κ β
  | .done value, f => f value
  | .ask call next, f => .ask call fun answer => (next answer).bind f

instance : Monad (Program κ) where
  pure := .done
  bind := bind

@[simp]
theorem bind_done (program : Program κ α) : program.bind .done = program := by
  induction program with
  | done value => rfl
  | ask call next ih => simp only [bind, ih]

@[simp]
theorem bind_assoc {γ : Type} (program : Program κ α) (f : α → Program κ β)
    (g : β → Program κ γ) : (program.bind f).bind g = program.bind fun a => (f a).bind g := by
  induction program with
  | done value => rfl
  | ask call next ih => simp only [bind, ih]

instance : LawfulMonad (Program κ) :=
  LawfulMonad.mk' (Program κ) (fun program => bind_done program) (fun _ _ => rfl)
    (fun program f g => bind_assoc program f g)

/-- A single call. -/
def perform (call : Call κ) : Program κ call.Answer :=
  .ask call .done

def now (κ : Type) : Program κ Instant := perform .now

def mint (κ : Type) : Program κ Uuid := perform .mint

def count (κ : Type) (sample : Sample) : Program κ Unit := perform (.count sample)

/-- Run a program against surroundings in a state `σ` that answer one call at a time. -/
def run {σ : Type} (answer : (call : Call κ) → σ → call.Answer × σ) :
    Program κ α → σ → α × σ
  | .done value, state => (value, state)
  | .ask call next, state =>
      let (reply, state) := answer call state
      run answer (next reply) state

@[simp]
theorem run_bind {σ : Type} (answer : (call : Call κ) → σ → call.Answer × σ)
    (program : Program κ α) (f : α → Program κ β) (state : σ) :
    run answer (program.bind f) state =
      run answer (f (run answer program state).1) (run answer program state).2 := by
  induction program generalizing state with
  | done value => rfl
  | ask call next ih => simp only [bind, run, ih]

end Program

/-- A program that may end in a failure. -/
abbrev Attempt (κ ε α : Type) := ExceptT ε (Program κ) α

/-- A program inside a transaction.  What it has written stays in the transaction also when it ends
in a failure. -/
abbrev Work (κ α : Type) := ExceptT MessagingError (StateT Transaction (Program κ)) α

namespace Attempt

variable {κ ε δ α : Type}

/-- A program as an attempt, its failures reported in the words of `wrap`. -/
def calling (wrap : δ → ε) (program : Program κ (Except δ α)) : Attempt κ ε α :=
  ExceptT.mk do
    match ← program with
    | .ok value => return .ok value
    | .error error => return .error (wrap error)

/-- The outcome of a pure step. -/
def ofExcept (outcome : Except ε α) : Attempt κ ε α :=
  ExceptT.mk (.done outcome)

end Attempt

namespace Work

variable {κ α : Type}

/-- Run the work in a transaction; answers the transaction as the work leaves it. -/
def inside (work : Work κ α) (tx : Transaction) :
    Program κ (Except MessagingError α × Transaction) :=
  work.run.run tx

/-- An operation on a transaction as work in it. -/
def of (step : Transaction → Program κ (Except MessagingError α × Transaction)) : Work κ α :=
  ExceptT.mk step

end Work

end Courier
