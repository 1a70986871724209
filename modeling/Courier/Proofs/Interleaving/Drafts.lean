import Courier.Proofs.Interleaving.Versions
/-
Drafts.  Whatever row is there or was handed out, somebody has asked for its message to be staged; no
other call brings a message into the world.
-/
namespace Courier

variable {κ τ ρ : Type}

/-- A call that only looks at the store leaves it as it is. -/
theorem Manner.store_of_look {α : Type} (manner : Manner) (store : Store)
    (answer : Except StoreError α) : (manner.onStore store (answer, store)).2 = store := by
  rcases manner.onStore_look store answer with h | ⟨error, h⟩
  · rw [h]
  · rw [h]

namespace Rules

variable {rules : Rules κ τ ρ} {world : World κ τ ρ} {moment : Moment κ τ}

/-- Without a message to stage no number is handed out. -/
theorem Makes.issued_eq (h : rules.Makes world moment) (hcall : moment.call.draft? = none) :
    moment.after.issued = moment.before.issued := by
  obtain ⟨worker, call, manner, rfl⟩ := h.made
  cases call with
  | stage tx draft => cases hcall
  | swap change =>
      rcases swap_response (κ := κ) (manner.onStore_cases world.store (world.store.swap change).swap)
        with ⟨hsame, _⟩ | ⟨_, _, _, hchanged, _⟩
      · exact congrArg Store.issued hsame
      · have hissued := congrArg Store.issued hchanged
        exact hissued
  | commit tx =>
      have hdone : (world.store.commitOrLeave tx).2.issued = world.store.issued := by
        unfold Store.commitOrLeave
        cases hcommit : world.store.commit tx with
        | error error => rfl
        | ok committed => exact (Store.commit_rows hcommit).2
      rcases manner.onStore_cases world.store (world.store.commitOrLeave tx) with h | ⟨error, h | h⟩
      · exact (congrArg (·.2.issued) h).trans hdone
      · exact congrArg (·.2.issued) h
      · exact (congrArg (·.2.issued) h).trans hdone
  | publish routingKey envelope => rfl
  | handle command => rfl
  | now => rfl
  | mint => rfl
  | count sample => rfl
  | samples => rfl
  | begin => exact congrArg Store.issued (manner.store_of_look world.store _)
  | get id => exact congrArg Store.issued (manner.store_of_look world.store _)
  | find filter => exact congrArg Store.issued (manner.store_of_look world.store _)
  | due query => exact congrArg Store.issued (manner.store_of_look world.store _)
  | outgoing id => exact congrArg Store.issued (manner.store_of_look world.store _)
  | document collection key => exact congrArg Store.issued (manner.store_of_look world.store _)
  | documentIn tx collection key => exact congrArg Store.issued (manner.store_of_look world.store _)
  | saveDocument tx collection key body expected =>
      exact congrArg Store.issued (manner.store_of_look world.store _)

/-- A row that is shown is a version of a committed one, or the call has staged it. -/
theorem Makes.shown_cases (h : rules.Makes world moment) {row : Row} (hrow : row ∈ moment.shown) :
    (∃ old ∈ world.store.rows, old.draft = row.draft) ∨ moment.call.draft? = some row.draft := by
  cases hcall : moment.call.draft? with
  | none =>
      refine Or.inl ?_
      cases h.effect with
      | quiet _ hshown _ => exact ⟨row, h.before ▸ hshown row hrow, rfl⟩
      | changed change old _ hold _ _ hshown _ =>
          rw [h.before] at hold
          exact ⟨old, (Store.mem_of_get? hold).1, by rw [hshown row hrow]; rfl⟩
      | staged draft now hafter _ _ =>
          have hissued := h.issued_eq hcall
          rw [hafter] at hissued
          exact absurd hissued (Nat.succ_ne_self _)
      | committed tx _ _ hnone _ _ =>
          rw [hnone] at hrow
          cases hrow
  | some draft =>
      refine Or.inr ?_
      have hplausible := h.plausible
      obtain ⟨worker, call, answer, before, after⟩ := moment
      cases call with
      | stage tx asked =>
          match answer with
          | .error error => cases hrow
          | .ok (written, staged) =>
              obtain ⟨⟨id, now, rfl⟩, _⟩ := hplausible
              rw [List.mem_singleton.1 hrow]
              exact hcall.symm
      | _ => cases hcall

end Rules

namespace World

/-- In every world, whatever the rules are, all that is known was staged as it says. -/
theorem known_stagedIn (rules : Rules κ τ ρ) (actions : List (Action κ τ)) {row : Row}
    (hrow : row ∈ (rules.world actions).known) :
    StagedIn (rules.world actions).history row.draft := by
  have hall := @Rules.store_induction κ τ ρ rules (fun store transactions history =>
    (∀ draft ∈ store.rows.map Row.draft, StagedIn history draft) ∧
      (∀ tx ∈ transactions, ∀ row ∈ tx.rows, StagedIn history row.draft) ∧
        ∀ row ∈ history.flatMap Moment.shown, StagedIn history row.draft) ?_ ?_ ?_ actions
  · obtain ⟨hcommitted, hstaged, hshown⟩ := hall
    rcases mem_known.1 hrow with hthere | hopen | hseen
    · exact hcommitted row.draft (List.mem_map_of_mem hthere)
    · obtain ⟨tx, htx, hmem⟩ := List.mem_flatMap.1 hopen
      exact hstaged tx htx row hmem
    · exact hshown row hseen
  · refine ⟨fun draft hdraft => ?_, fun tx htx => ?_, fun row hrow => ?_⟩
    · cases hdraft
    · cases htx
    · cases hrow
  · intro earlier moment ⟨hcommitted, hstaged, hshown⟩ hmakes
    refine ⟨fun draft hdraft => ?_, fun tx htx row hrow => ?_, fun row hrow => ?_⟩
    · refine StagedIn.later ?_ moment
      rcases hmakes.stores with ⟨_, hsame⟩ | ⟨tx, hopen, _, _, hperm⟩
      · rw [hsame] at hdraft
        exact hcommitted draft hdraft
      · obtain ⟨row, hrow, rfl⟩ := List.mem_map.1 hdraft
        rcases List.mem_append.1 (hperm.mem_iff.1 hrow) with hold | hnew
        · exact hcommitted _ (List.mem_map_of_mem hold)
        · exact hstaged tx hopen row hnew
    · cases hmakes.writes htx with
      | kept hopen => exact (hstaged tx hopen row hrow).later moment
      | begun => cases hrow
      | staged added hopen hcall hnew =>
          rcases List.mem_append.1 hrow with hold | hadded
          · exact (hstaged _ hopen row hold).later moment
          · rw [List.mem_singleton.1 hadded]
            exact ⟨moment, List.mem_cons_self, by rw [hcall]; rfl⟩
      | saved pending hopen => exact (hstaged _ hopen row hrow).later moment
    · rcases List.mem_append.1 hrow with hnow | hbefore
      · rcases hmakes.shown_cases hnow with ⟨old, hold, hsame⟩ | hcall
        · exact hsame ▸ (hcommitted old.draft (List.mem_map_of_mem hold)).later moment
        · exact ⟨moment, List.mem_cons_self, hcall⟩
      · exact (hshown row hbefore).later moment
  · intro _ store transactions history ⟨_, hstaged, hshown⟩
    refine ⟨fun draft hdraft => ?_, hstaged, hshown⟩
    cases hdraft

end World

end Courier
