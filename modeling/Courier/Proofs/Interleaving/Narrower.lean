import Courier.Proofs.Interleaving.Histories
/-
Narrower rules.  Where less may go on around a store, nothing goes on that could not go on anyway, so
that whatever holds of all goings-on holds of them.
-/
namespace Courier

variable {κ τ ρ : Type}

namespace Rules

/-- What may go on under these rules may go on under others as well. -/
structure Within (rules wider : Rules κ τ ρ) : Prop where
  admits : ∀ handed task, rules.admits handed task = true → wider.admits handed task = true
  program : rules.program = wider.program
  bystander : ∀ call, rules.bystander call = true → wider.bystander call = true
  mishap : ∀ call mishap, rules.mishap call mishap = true → wider.mishap call mishap = true
  clears : rules.clears = true → wider.clears = true

variable {rules wider : Rules κ τ ρ}

theorem Within.allows (h : rules.Within wider) {world : World κ τ ρ} {call : Call κ}
    {manner : Manner} (hallows : rules.allows world call manner = true) :
    wider.allows world call manner = true := by
  obtain ⟨hmay, hmishap⟩ := Bool.and_eq_true_iff.1 hallows
  refine Bool.and_eq_true_iff.2 ⟨hmay, ?_⟩
  cases hsome : manner.mishap with
  | none => rfl
  | some mishap =>
      rw [hsome] at hmishap
      exact h.mishap call mishap hmishap

/-- What comes about by a step can be brought about under the wider rules, or nothing happens. -/
theorem Within.step (h : rules.Within wider) (world : World κ τ ρ) (action : Action κ τ) :
    rules.step world action = world ∨ rules.step world action = wider.step world action := by
  cases action with
  | start task =>
      simp only [Rules.step]
      split
      · rw [if_pos (h.admits _ _ ‹_›), h.program]
        exact Or.inr rfl
      · exact Or.inl rfl
  | work number manner =>
      simp only [Rules.step]
      split
      · split
        · rw [if_pos (h.allows ‹_›)]
          exact Or.inr rfl
        · exact Or.inl rfl
      · exact Or.inl rfl
  | call call manner =>
      simp only [Rules.step]
      split
      · rename_i hcalled
        obtain ⟨hbystander, hallows⟩ := Bool.and_eq_true_iff.1 hcalled
        have hboth := Bool.and_eq_true_iff.2 ⟨h.bystander call hbystander, h.allows hallows⟩
        rw [if_pos hboth]
        exact Or.inr rfl
      · exact Or.inl rfl
  | clear =>
      simp only [Rules.step]
      split
      · rw [if_pos (h.clears ‹_›)]
        exact Or.inr rfl
      · exact Or.inl rfl

theorem Within.world (h : rules.Within wider) (actions : List (Action κ τ)) :
    ∃ others, rules.world actions = wider.world others := by
  induction actions with
  | nil => exact ⟨[], rfl⟩
  | cons action earlier ih =>
      obtain ⟨others, hothers⟩ := ih
      rcases h.step (rules.world earlier) action with hidle | hstep
      · exact ⟨others, hidle.trans hothers⟩
      · refine ⟨action :: others, hstep.trans ?_⟩
        rw [hothers]
        rfl

/-- A call that may be made may be made under wider rules. -/
theorem Makes.of_within {world : World κ τ ρ} {moment : Moment κ τ}
    (h : rules.Makes world moment) (hwithin : rules.Within wider) : wider.Makes world moment where
  made := h.made
  may := h.may
  mishap := by
    obtain ⟨manner, hmishap, hresponse⟩ := h.mishap
    refine ⟨manner, ?_, hresponse⟩
    cases hsome : manner.mishap with
    | none => rfl
    | some mishap =>
        rw [hsome] at hmishap
        exact hwithin.mishap moment.call mishap hmishap
  worker := h.worker
  bystander hnone := hwithin.bystander moment.call (h.bystander hnone)

/-- A call that may be made in a world may be made in the same world of the wider rules. -/
theorem Within.makes (h : rules.Within wider) {earlier : List (Action κ τ)} {moment : Moment κ τ}
    (hmakes : rules.Makes (rules.world earlier) moment) :
    ∃ others, rules.world earlier = wider.world others ∧ wider.Makes (wider.world others) moment := by
  obtain ⟨others, hothers⟩ := h.world earlier
  have hwide := hmakes.of_within h
  rw [hothers] at hwide
  exact ⟨others, hothers, hwide⟩

end Rules

end Courier
