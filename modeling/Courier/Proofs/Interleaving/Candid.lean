import Courier.Proofs.Interleaving.Narrower
/-
Runs in which whatever fails has no effect.  Whoever asks for a change of a row is then told whether
it took place.
-/
namespace Courier

variable {κ τ ρ : Type}

namespace Rules

/-- The same goings-on around a store that does nothing when it fails. -/
def candid (rules : Rules κ τ ρ) : Rules κ τ ρ :=
  { rules with
    mishap := fun call mishap =>
      match mishap with
      | .refused _ => rules.mishap call mishap
      | .lost _ => false }

theorem candid_within (rules : Rules κ τ ρ) : rules.candid.Within rules where
  admits _ _ h := h
  program := rfl
  bystander _ h := h
  mishap call mishap h := by
    cases mishap with
    | refused error => exact h
    | lost error => cases h
  clears h := h

variable {rules : Rules κ τ ρ} {world : World κ τ ρ} {moment : Moment κ τ}

/-- A change takes place and shows the changed row, or nothing happens and nothing is shown. -/
theorem Makes.told (h : rules.candid.Makes world moment) {change : Change}
    (hcall : moment.call = .swap change) :
    (moment.after = moment.before ∧ moment.shown = []) ∨
      ∃ row, moment.before.get? change.id = some row ∧ change.fits row = true ∧
        moment.after =
          { moment.before with rows := Store.changeRow moment.before.rows (row.apply change) } ∧
        moment.shown = [row.apply change] := by
  obtain ⟨worker, call, answer, before, after⟩ := moment
  obtain ⟨manner, hmishap, hresponse⟩ := h.mishap
  change call = _ at hcall
  subst hcall
  change (answer, after) = manner.onStore before (before.swap change).swap at hresponse
  unfold Manner.onStore at hresponse
  split at hresponse
  · rcases before.swap_cases change with ⟨given, hgiven, hswap⟩ | ⟨row, hrow, hfits⟩
    · rw [hswap] at hresponse
      obtain ⟨rfl, rfl⟩ := Prod.mk.inj hresponse
      refine Or.inl ⟨rfl, ?_⟩
      match answer with
      | .ok (some found) => exact absurd rfl (hgiven found)
      | .ok none => rfl
      | .error error => rfl
    · rw [Store.swap_of_fits hrow hfits] at hresponse
      obtain ⟨rfl, rfl⟩ := Prod.mk.inj hresponse
      exact Or.inr ⟨row, hrow, hfits, rfl, rfl⟩
  · obtain ⟨rfl, rfl⟩ := Prod.mk.inj hresponse
    exact Or.inl ⟨rfl, rfl⟩
  · rename_i error hlost
    rw [hlost] at hmishap
    cases hmishap

end Rules

end Courier
