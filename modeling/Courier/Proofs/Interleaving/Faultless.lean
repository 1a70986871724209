import Courier.Proofs.Interleaving.Narrower
/-
Runs in which the store never fails.  Each of them is also a run in which it might have failed, so
that whatever holds in spite of failures holds in them; and all that was asked of the store was done.
-/
namespace Courier

variable {κ τ ρ : Type}

/-- The same goings-on around a store that never fails. -/
def Rules.faultless (rules : Rules κ τ ρ) : Rules κ τ ρ :=
  { rules with mishap := fun _ _ => false }

/-- The store has done and answered as it was asked to. -/
def Moment.Faithful (moment : Moment κ τ) : Prop :=
  ∃ manner : Manner, manner.mishap = none ∧
    (moment.answer, moment.after) = moment.before.respond manner moment.call

namespace Rules

variable {rules : Rules κ τ ρ}

theorem faultless_within (rules : Rules κ τ ρ) : rules.faultless.Within rules where
  admits _ _ h := h
  program := rfl
  bystander _ h := h
  mishap _ _ h := nomatch h
  clears h := h

theorem Makes.faithful {world : World κ τ ρ} {moment : Moment κ τ}
    (h : rules.faultless.Makes world moment) : moment.Faithful := by
  obtain ⟨manner, hmishap, hresponse⟩ := h.mishap
  refine ⟨manner, ?_, hresponse⟩
  cases hnone : manner.mishap with
  | none => rfl
  | some mishap =>
      rw [hnone] at hmishap
      cases hmishap

/-- Every run of a store that never fails is a run of one that may fail, and whatever was asked of the
store is done. -/
theorem faultless_world (rules : Rules κ τ ρ) (actions : List (Action κ τ)) :
    (∃ others, rules.faultless.world actions = rules.world others) ∧
      ∀ moment ∈ (rules.faultless.world actions).history, moment.Faithful := by
  refine ⟨rules.faultless_within.world actions, ?_⟩
  refine Rules.history_induction (fun _ history => ∀ moment ∈ history, moment.Faithful) ?_ ?_ actions
  · intro moment hmoment
    cases hmoment
  · intro earlier latest h hmakes
    exact List.forall_mem_cons.2 ⟨hmakes.faithful, h⟩

end Rules

/-- A change that finds its row takes place. -/
theorem Moment.Faithful.changed {moment : Moment κ τ} (h : moment.Faithful) {change : Change}
    (hcall : moment.call = .swap change) {row : Row}
    (hrow : moment.before.get? change.id = some row) (hfits : change.fits row = true) :
    moment.after =
        { moment.before with rows := Store.changeRow moment.before.rows (row.apply change) } ∧
      moment.shown = [row.apply change] := by
  obtain ⟨worker, call, answer, before, after⟩ := moment
  obtain ⟨manner, hmishap, hresponse⟩ := h
  simp only at hcall hrow hresponse
  subst hcall
  have hdone : before.respond manner (.swap change : Call κ) = (before.swap change).swap :=
    Manner.onStore_of_none hmishap ..
  rw [hdone, Store.swap_of_fits hrow hfits] at hresponse
  obtain ⟨rfl, rfl⟩ := Prod.mk.inj hresponse
  exact ⟨rfl, rfl⟩

end Courier
