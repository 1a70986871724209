import Courier.Proofs.Interleaving.Protocol
/-
What a program can know about a store that does not fail.  Its calls are answered by the store as it
is, and between two of them others move the store on as they may.  The phases are all that the store
may be by then.
-/
namespace Courier

variable {κ τ α β δ ε : Type}

/-- What the store may be, after each answer and after whatever others have done since. -/
def sight (others : Store → Store → Prop) : Protocol κ (Store → Prop) where
  allows _ _ := True
  next before call answer := fun store =>
    ∃ earlier manner left, before earlier ∧ manner.mishap = none ∧
      earlier.respond manner call = (answer, left) ∧ others left store

/-- Whatever others do, it is among what the store may be. -/
theorem sight_closed {others : Store → Store → Prop} {first : Store → Prop} {number : Nat}
    {history : List (Moment κ τ)}
    (htrans : ∀ {one two three}, others one two → others two three → others one three)
    (hfirst : ∀ {store more}, first store → others store more → first more) {store more : Store}
    (h : (sight others).phase first number history store) (hmore : others store more) :
    (sight others).phase first number history more := by
  induction history with
  | nil => exact hfirst h hmore
  | cons moment past ih =>
      simp only [Protocol.phase] at h ⊢
      by_cases hby : moment.isBy number = true
      · rw [if_pos hby] at h ⊢
        obtain ⟨earlier, manner, left, hearlier, hmishap, hresponse, hothers⟩ := h
        exact ⟨earlier, manner, left, hearlier, hmishap, hresponse, htrans hothers hmore⟩
      · rw [if_neg hby] at h ⊢
        exact ih h

namespace Program

variable {others : Store → Store → Prop} {before : Store → Prop}

/-- From any store that is as it should be before, the program leads to one that is as it should be
afterwards. -/
def Leads (others : Store → Store → Prop) (before : Store → Prop) (program : Program κ α)
    (ends : α → Store → Prop) : Prop :=
  ∀ seen : Store → Prop, (∀ store, seen store → before store) →
    program.Keeps (sight others) (fun value after => ∀ store, after store → ends value store) seen

namespace Leads

theorem done {value : α} {ends : α → Store → Prop} (h : ∀ store, before store → ends value store) :
    Leads (κ := κ) others before (.done value) ends :=
  fun _ hseen store hstore => h store (hseen store hstore)

theorem ask {call : Call κ} {next : call.Answer → Program κ α} {ends : α → Store → Prop}
    (middle : call.Answer → Store → Prop)
    (hcall : ∀ earlier manner, before earlier → manner.mishap = none →
      ∀ store, others (earlier.respond manner call).2 store →
        middle (earlier.respond manner call).1 store)
    (hnext : ∀ answer, (next answer).Leads others (middle answer) ends) :
    Leads others before (.ask call next) ends := by
  intro seen hseen
  refine ⟨trivial, fun answer _ => hnext answer _ ?_⟩
  rintro store ⟨earlier, manner, left, hearlier, hmishap, hresponse, hothers⟩
  have hmiddle := hcall earlier manner (hseen earlier hearlier) hmishap store
  rw [hresponse] at hmiddle
  exact hmiddle hothers

theorem perform {call : Call κ} {ends : call.Answer → Store → Prop}
    (h : ∀ earlier manner, before earlier → manner.mishap = none →
      ∀ store, others (earlier.respond manner call).2 store →
        ends (earlier.respond manner call).1 store) :
    (Program.perform call).Leads others before ends :=
  ask ends h fun _ => done fun _ => id

theorem weaken {program : Program κ α} {ends later : α → Store → Prop} {earlier : Store → Prop}
    (h : program.Leads others before ends) (hbefore : ∀ store, earlier store → before store)
    (hends : ∀ value store, ends value store → later value store) :
    program.Leads others earlier later :=
  fun seen hseen => (h seen fun store hstore => hbefore store (hseen store hstore)).mono
    fun value _ hafter store hstore => hends value store (hafter store hstore)

/-- Nothing need be shown of what cannot be. -/
theorem never {program : Program κ α} {ends : α → Store → Prop} (h : ∀ store, ¬ before store) :
    program.Leads others before ends := by
  induction program generalizing before with
  | done value => exact done fun store hstore => absurd hstore (h store)
  | ask call next ih =>
      exact ask (fun _ _ => False) (fun earlier _ hearlier => absurd hearlier (h earlier))
        fun answer => ih answer fun _ => id

/-- What is so of every store that may be is so. -/
theorem since {program : Program κ α} {ends : α → Store → Prop} {fact : Prop}
    (hfact : ∀ store, before store → fact) (h : fact → program.Leads others before ends) :
    program.Leads others before ends := by
  by_cases hso : fact
  · exact h hso
  · exact never fun store hstore => hso (hfact store hstore)

theorem bind {program : Program κ α} {f : α → Program κ β} {middle : α → Store → Prop}
    {ends : β → Store → Prop} (h : program.Leads others before middle)
    (hrest : ∀ value, (f value).Leads others (middle value) ends) :
    (program.bind f).Leads others before ends :=
  fun seen hseen => Keeps.bind ((h seen hseen).mono fun value after hafter => hrest value after hafter)

theorem andThen {first : Attempt κ ε α} {f : α → Attempt κ ε β}
    {middle : Except ε α → Store → Prop} {ends : Except ε β → Store → Prop}
    (h : Program.Leads others before first middle)
    (hrest : ∀ value, Program.Leads others (middle (.ok value)) (f value) ends)
    (hfails : ∀ error store, middle (.error error) store → ends (.error error) store) :
    Program.Leads others before (first >>= f : Attempt κ ε β) ends := by
  refine bind h fun outcome => ?_
  cases outcome with
  | ok value => exact hrest value
  | error error => exact done (hfails error)

theorem lifting {program : Program κ α} {f : α → Attempt κ ε β} {middle : α → Store → Prop}
    {ends : Except ε β → Store → Prop} (h : program.Leads others before middle)
    (hrest : ∀ value, Program.Leads others (middle value) (f value) ends) :
    Program.Leads others before ((liftM program : Attempt κ ε α) >>= f : Attempt κ ε β) ends :=
  fun seen hseen =>
    Keeps.lifting ((h seen hseen).mono fun value after hafter => hrest value after hafter)

theorem calling {wrap : δ → ε} {program : Program κ (Except δ α)}
    {ends : Except ε α → Store → Prop}
    (h : program.Leads others before fun outcome => ends (outcome.mapError wrap)) :
    Program.Leads others before (Attempt.calling wrap program) ends :=
  fun seen hseen => Keeps.calling (h seen hseen)

end Leads

end Program

end Courier
