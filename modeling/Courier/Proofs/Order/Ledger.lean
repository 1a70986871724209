import Courier.Proofs.Order.Standings
import Courier.Proofs.Time.Order
import Mathlib.Logic.ExistsUnique
/-
Orders and their announcements stay in step.  Commands on orders and ticks of publishers run in any
interleaving, and may fail or stop at any call.  What moves an order on is a commit of the command
that asks for it, and nothing else; the command succeeds exactly if it has made that commit.
-/
namespace Courier

variable {κ : Type}

namespace OrderTask

inductive Turns : OrderTask κ → Standing → Standing → Prop where
  | place (ctx : Context) (id : OrderId) (placement : Placement) :
      Turns (.place ctx id placement.customer placement.totalCents) .absent (.placed placement)
  | cancel (ctx : Context) (id : OrderId) (placement : Placement) (reason : String) :
      Turns (.cancel ctx id reason) (.placed placement) (.cancelled placement reason)

variable {task : OrderTask κ}

theorem Turns.leadsTo {one two : Standing} (h : task.Turns one two) : one.LeadsTo two := by
  cases h with
  | place ctx id placement => exact .place (.placed placement)
  | cancel ctx id placement reason => exact .cancel placement reason

theorem Turns.ne {one two : Standing} (h : task.Turns one two) : one ≠ two := by
  rintro rfl
  cases h

/-- An order that becomes cancelled was placed. -/
theorem Turns.placed {one : Standing} {placement : Placement} {reason : String}
    (h : task.Turns one (.cancelled placement reason)) : one = .placed placement := by
  cases h
  rfl

/-- From one store to the next, the order of a command has made the command's step. -/
def Advances (task : OrderTask κ) (before after : Store) : Prop :=
  ∃ id one two, task.orderId? = some id ∧ before.Stands id one ∧ after.Stands id two ∧
    task.Turns one two

namespace Phase

variable {phase : Phase} {number : Nat} {history : List (Moment κ (OrderTask κ))}

theorem found_next {call : Call κ} {answer : call.Answer} {document : Document}
    (h : (phase.next call answer).found = some document) :
    call.found? answer = some document ∨ phase.found = some document := by
  cases call with
  | documentIn tx collection key =>
      match answer with
      | .ok found => exact Or.inl h
      | .error error => exact Or.inr h
  | commit tx =>
      match answer with
      | .ok value => exact Or.inr h
      | .error error => exact Or.inr h
  | _ => exact Or.inr h

theorem committed_next (phase : Phase) (call : Call κ) (answer : call.Answer) :
    (phase.next call answer).committed = (call.commits answer || phase.committed) := by
  cases call with
  | documentIn tx collection key =>
      match answer with
      | .ok found => rfl
      | .error error => rfl
  | commit tx =>
      match answer with
      | .ok value => rfl
      | .error error => rfl
  | _ => rfl

/-- What a command has found, it was shown. -/
theorem found_shown {document : Document}
    (h : (task.protocol.phase Phase.start number history).found = some document) :
    ∃ moment ∈ history, moment.isBy number = true ∧ moment.found? = some document := by
  induction history with
  | nil => cases h
  | cons moment past ih =>
      have hpast : (task.protocol.phase Phase.start number past).found = some document →
          ∃ shown ∈ moment :: past, shown.isBy number = true ∧ shown.found? = some document := by
        intro hold
        obtain ⟨shown, hshown, hboth⟩ := ih hold
        exact ⟨shown, List.mem_cons_of_mem _ hshown, hboth⟩
      simp only [Protocol.phase] at h
      split at h
      · rename_i hby
        rcases found_next h with hnow | hold
        · exact ⟨moment, List.mem_cons_self .., hby, hnow⟩
        · exact hpast hold
      · exact hpast h

/-- A command has committed if one of its calls has. -/
theorem committed_iff :
    (task.protocol.phase Phase.start number history).committed = true ↔
      ∃ moment ∈ history, moment.isBy number = true ∧ moment.commits = true := by
  induction history with
  | nil => simp [Protocol.phase, start]
  | cons moment past ih =>
      rw [List.exists_mem_cons_iff, ← ih, Protocol.phase]
      cases hby : moment.isBy number with
      | false => simp
      | true =>
          have hnext := committed_next (task.protocol.phase Phase.start number past) moment.call
            moment.answer
          simp only [↓reduceIte, true_and]
          exact (Bool.eq_iff_iff.1 hnext).trans Bool.or_eq_true_iff

end Phase

end OrderTask

/-- Commands on orders and ticks of publishers run side by side.  The store may fail at any call, but a
commit that takes effect is always answered as done.  Others may look at the store and change the
status of messages. -/
def ordering (κ : Type) : Rules κ (OrderTask κ) OrderTask.Outcome where
  admits _ _ := true
  program := OrderTask.program
  bystander call := call.transaction?.isNone
  mishap
    | .commit _, .lost _ => false
    | _, _ => true
  clears := false

section ordering

open OrderTask

theorem ordering_followsTo :
    (ordering κ).FollowsTo OrderTask.protocol OrderTask.ends fun _ => OrderTask.Phase.start :=
  keeps_program

theorem ordering_follows : (ordering κ).Follows OrderTask.protocol fun _ => OrderTask.Phase.start :=
  fun task => (keeps_program task).mono fun _ _ _ => trivial

/-- In the world that these actions lead to. -/
abbrev ordered (actions : List (Action κ (OrderTask κ))) : World κ (OrderTask κ) Outcome :=
  (ordering κ).world actions

/-- How the orders stand, and have stood. -/
structure Ledger (store : Store) (history : List (Moment κ (OrderTask κ))) : Prop where
  standing : ∀ id, ∃ standing, store.Stands id standing
  onward : ∀ moment ∈ history, ∀ id, ∃ one two, moment.before.Stands id one ∧
    store.Stands id two ∧ one.LeadsTo two
  placed : ∀ id placement reason, store.Stands id (.cancelled placement reason) →
    ∃ moment ∈ history, moment.before.Stands id (.placed placement)

variable {earlier : List (Action κ (OrderTask κ))} {moment : Moment κ (OrderTask κ)}

/-- The document that a command has found was the one of its order. -/
theorem found_of_order (hmakes : (ordering κ).Makes (ordered earlier) moment)
    {worker : Worker (OrderTask κ)} (hworker : moment.worker = some worker) {document : Document}
    (hfound : ((ordered earlier).phase OrderTask.protocol
      (fun _ => OrderTask.Phase.start) worker).found = some document) :
    ∃ shown ∈ (ordered earlier).history, ∃ id, worker.task.orderId? = some id ∧
      shown.before.document? OrderDesk.collection id.text = some document := by
  obtain ⟨shown, hshown, hby, hdocument⟩ := OrderTask.Phase.found_shown hfound
  obtain ⟨other, hother, hnumber⟩ := Moment.isBy_iff.1 hby
  obtain rfl := World.worker_unique ordering_follows hmakes (List.mem_cons_of_mem _ hshown)
    (List.mem_cons_self ..) hother hworker hnumber
  obtain ⟨later, past, hsplit⟩ := List.append_of_mem hshown
  obtain ⟨prior, _, hmade⟩ := World.made_earlier rfl earlier hsplit
  have hallows := hmade.allows ordering_follows hother
  obtain ⟨tx, collection, key, hcall, hthere⟩ := hmade.of_found hdocument
  rw [hcall] at hallows
  obtain ⟨id, hid, rfl, rfl, rfl⟩ := hallows
  exact ⟨shown, hshown, id, hid, hthere⟩

/-- A commit is made by a command, and files what the command asks for. -/
theorem files_of_commit (hmakes : (ordering κ).Makes (ordered earlier) moment) {tx : Transaction}
    (hcall : moment.call = .commit tx) :
    ∃ worker, moment.worker = some worker ∧ worker.task.Files ((ordered earlier).phase
      OrderTask.protocol (fun _ => OrderTask.Phase.start) worker).found tx := by
  cases hworker : moment.worker with
  | none =>
      have hbystander := hmakes.bystander hworker
      rw [hcall] at hbystander
      cases hbystander
  | some worker =>
      have hfiles := hmakes.allows ordering_follows hworker
      rw [hcall] at hfiles
      exact ⟨worker, rfl, hfiles⟩

/-- A commit is the step of a command, and no other order is touched by it. -/
theorem advances_of_commit (hledger : Ledger (ordered earlier).store (ordered earlier).history)
    (hmakes : (ordering κ).Makes (ordered earlier) moment) {tx : Transaction}
    (hcall : moment.call = .commit tx) (hcommit : (ordered earlier).store.commit tx = .ok moment.after)
    (hrows : moment.after.rows.Perm ((ordered earlier).store.rows ++ tx.rows)) :
    ∃ worker id one two, moment.worker = some worker ∧ worker.task.orderId? = some id ∧
      (ordered earlier).store.Stands id one ∧ moment.after.Stands id two ∧ worker.task.Turns one two ∧
      ∀ other ≠ id, ∀ others, (ordered earlier).store.Stands other others →
        moment.after.Stands other others := by
  obtain ⟨⟨number, task⟩, hworker, hfiles⟩ := files_of_commit hmakes hcall
  cases task with
  | place ctx id customer totalCents =>
      obtain ⟨order, now, hplace, hfiles⟩ := hfiles
      obtain ⟨one, hone⟩ := hledger.standing id
      obtain ⟨rfl, hplaced, hothers⟩ := hone.place hcommit hrows hplace hfiles
      exact ⟨_, id, _, _, hworker, rfl, hone, hplaced, .place ctx id ⟨customer, totalCents, now⟩,
        hothers⟩
  | cancel ctx id reason =>
      obtain ⟨document, order, now, cancelled, hfound, horder, hcancel, hfiles⟩ := hfiles
      obtain ⟨shown, hshown, same, hsame, hdocument⟩ := found_of_order hmakes hworker hfound
      obtain rfl := Option.some.inj hsame
      obtain ⟨was, one, hwas, hone, hleads⟩ := hledger.onward shown hshown id
      have hread := hwas.order?_of_document hdocument horder
      obtain ⟨placement, rfl, hcancelled, hothers⟩ :=
        hone.cancel hcommit hrows hread hcancel hfiles hleads
      exact ⟨_, id, _, _, hworker, rfl, hone, hcancelled, .cancel ctx id placement reason, hothers⟩
  | tick shift => exact hfiles.elim

/-- A call leaves an order as it stands, or it is the step of a command. -/
theorem standing_after (hledger : Ledger (ordered earlier).store (ordered earlier).history)
    (hmakes : (ordering κ).Makes (ordered earlier) moment) (id : OrderId) :
    ∃ one two, (ordered earlier).store.Stands id one ∧ moment.after.Stands id two ∧
      (two = one ∨ ∃ task : OrderTask κ, task.Turns one two) := by
  obtain ⟨standing, hstanding⟩ := hledger.standing id
  rcases hmakes.stores with ⟨hdocuments, hdrafts⟩ | ⟨tx, _, hcall, hcommit, hrows⟩
  · exact ⟨standing, standing, hstanding, hstanding.of_same hdocuments hdrafts, Or.inl rfl⟩
  · obtain ⟨worker, own, one, two, _, _, hone, htwo, hturns, hothers⟩ :=
      advances_of_commit hledger hmakes hcall hcommit hrows
    by_cases hid : id = own
    · subst hid
      exact ⟨one, two, hone, htwo, Or.inr ⟨worker.task, hturns⟩⟩
    · exact ⟨standing, standing, hstanding, hothers id hid standing hstanding, Or.inl rfl⟩

theorem ledger (actions : List (Action κ (OrderTask κ))) :
    Ledger (ordered actions).store (ordered actions).history := by
  refine Rules.call_induction rfl (fun store _ history => Ledger store history) ?_ ?_ actions
  · constructor
    · exact fun id => ⟨.absent, rfl, .nil⟩
    · intro moment hmoment
      cases hmoment
    · intro id placement reason h
      cases h.document
  · intro earlier moment ih hmakes
    have hbefore := hmakes.before
    constructor
    · intro id
      obtain ⟨_, two, _, htwo, _⟩ := standing_after ih hmakes id
      exact ⟨two, htwo⟩
    · intro made hmade id
      obtain ⟨one, two, hone, htwo, hstep⟩ := standing_after ih hmakes id
      have hleads : one.LeadsTo two := by
        rcases hstep with rfl | ⟨task, hturns⟩
        · exact .stay two
        · exact hturns.leadsTo
      rcases List.mem_cons.1 hmade with rfl | hold
      · rw [hbefore]
        exact ⟨one, two, hone, htwo, hleads⟩
      · obtain ⟨was, now, hwas, hnow, hled⟩ := ih.onward made hold id
        obtain rfl := hnow.unique hone
        exact ⟨was, two, hwas, htwo, hled.trans hleads⟩
    · intro id placement reason hcancelled
      obtain ⟨one, two, hone, htwo, hstep⟩ := standing_after ih hmakes id
      obtain rfl := htwo.unique hcancelled
      rcases hstep with rfl | ⟨task, hturns⟩
      · obtain ⟨made, hmade, hplaced⟩ := ih.placed id placement reason hone
        exact ⟨made, List.mem_cons_of_mem _ hmade, hplaced⟩
      · rw [hturns.placed, ← hbefore] at hone
        exact ⟨moment, List.mem_cons_self .., hone⟩

/-- A commit of a command that is answered as done has made the command's step. -/
theorem advances_of_commits {actions : List (Action κ (OrderTask κ))}
    (hmoment : moment ∈ (ordered actions).history) {worker : Worker (OrderTask κ)}
    (hworker : moment.worker = some worker) (hcommits : moment.commits = true) :
    (∃ tx, moment.call = .commit tx) ∧ worker.task.Advances moment.before moment.after := by
  obtain ⟨later, past, hsplit⟩ := List.append_of_mem hmoment
  obtain ⟨prior, _, hmakes⟩ := World.made_earlier rfl actions hsplit
  obtain ⟨tx, hcall, hcommit⟩ := hmakes.of_commits hcommits
  rw [hmakes.before] at hcommit ⊢
  have hopen : tx ∈ (ordered prior).transactions := by
    refine World.tx_mem_of_mayCall hmakes.may ?_
    rw [hcall]
    rfl
  have hrows := (World.sound (ordering κ) prior).committed_perm hopen hcommit
  obtain ⟨own, id, one, two, hown, hid, hone, htwo, hturns, _⟩ :=
    advances_of_commit (ledger prior) hmakes hcall hcommit hrows
  obtain rfl := Option.some.inj (hworker.symm.trans hown)
  exact ⟨⟨tx, hcall⟩, id, one, two, hid, hone, htwo, hturns⟩

/-- A commit that has made a step is answered as done. -/
theorem commits_of_advances {actions : List (Action κ (OrderTask κ))}
    (hmoment : moment ∈ (ordered actions).history) {tx : Transaction}
    (hcall : moment.call = .commit tx) {task : OrderTask κ}
    (hadvances : task.Advances moment.before moment.after) : moment.commits = true := by
  obtain ⟨later, past, hsplit⟩ := List.append_of_mem hmoment
  obtain ⟨prior, _, hmakes⟩ := World.made_earlier rfl actions hsplit
  by_contra hfailed
  have hsame := hmakes.unchanged hcall (fun _ => rfl) (Bool.eq_false_iff.2 hfailed)
  obtain ⟨id, one, two, _, hone, htwo, hturns⟩ := hadvances
  rw [hsame] at htwo
  exact hturns.ne (hone.unique htwo)

/-- What is so of the orders of a world and of the commands on them. -/
structure World.InStep (world : World κ (OrderTask κ) Outcome) : Prop where
  /-- Each order stands in exactly one of the three ways. -/
  stands : ∀ id, ∃! standing, world.store.Stands id standing
  /-- A cancelled order is as it was placed. -/
  placed : ∀ id placement reason, world.store.Stands id (.cancelled placement reason) →
    ∃ moment ∈ world.history, moment.before.Stands id (.placed placement)
  /-- A command succeeds exactly if a commit of its own has made its step. -/
  succeeded : ∀ (worker : Worker (OrderTask κ)) (outcome : Except DeskError Order),
    world.jobs[worker.number]? = some ⟨worker.task, .done (.order outcome)⟩ →
    (outcome.isOk = true ↔ ∃ moment ∈ world.history, moment.worker = some worker ∧
      (∃ tx, moment.call = .commit tx) ∧ worker.task.Advances moment.before moment.after)

/-- Whatever order the calls of commands and of ticks come in, wherever the store fails and wherever a
command is left off, no order is stored without the messages that announce it and no message names an
order without the change that it announces. -/
theorem orders_in_step (actions : List (Action κ (OrderTask κ))) : (ordered actions).InStep := by
  have hledger := ledger actions
  constructor
  · intro id
    obtain ⟨standing, hstanding⟩ := hledger.standing id
    exact ⟨standing, hstanding, fun other hother => hother.unique hstanding⟩
  · exact hledger.placed
  · intro worker outcome hjob
    have hkeeping := World.keeping ordering_followsTo actions
    have hends : outcome.isOk = ((ordered actions).phase OrderTask.protocol
      (fun _ => OrderTask.Phase.start) worker).committed := hkeeping.ended hjob
    rw [hends]
    refine OrderTask.Phase.committed_iff.trans ⟨?_, ?_⟩
    · rintro ⟨moment, hmoment, hby, hcommits⟩
      obtain ⟨other, hother, hnumber⟩ := Moment.isBy_iff.1 hby
      obtain ⟨rest, hrest⟩ := hkeeping.worker moment hmoment other hother
      obtain rfl := Worker.eq_of_jobs hrest hjob hnumber
      exact ⟨moment, hmoment, hother, advances_of_commits hmoment hother hcommits⟩
    · rintro ⟨moment, hmoment, hworker, ⟨tx, hcall⟩, hadvances⟩
      exact ⟨moment, hmoment, Moment.isBy_iff.2 ⟨worker, hworker, rfl⟩,
        commits_of_advances hmoment hcall hadvances⟩

/-- Order 7 is placed by the fifteen calls of one command. -/
def placing : List (Action Unit (OrderTask Unit)) :=
  List.replicate 15 (.work 0 { clock := epoch }) ++
    [.start (.place ⟨⟨Uuid.nil⟩, none⟩ ⟨7⟩ "Ada" 100)]

def Job.succeeded {τ : Type} (job : Job κ τ Outcome) : Bool :=
  match job.rest with
  | .done (.order outcome) => outcome.isOk
  | _ => false

example : (ordered placing).store.documents.map (·.version) = [1] ∧
    ((ordered placing).store.noticesOf ⟨7⟩).length = 2 ∧
    (ordered placing).jobs.map Job.succeeded = [true] := by
  decide +kernel

end ordering

end Courier
