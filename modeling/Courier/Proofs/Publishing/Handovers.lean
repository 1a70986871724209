import Courier.Proofs.Interleaving.Transactions
import Courier.Proofs.Publishing.Deliveries
/-
Hand-overs.  Wherever publishers are at work, whatever else goes on and however often claims are
outlived, what a bus or a handler takes over is the message of a committed row, and a row that is
processed was taken over before.  How often it was, and in which order with others, is left open.
-/
namespace Courier

variable {κ τ ρ : Type}

def Store.Has (store : Store) (draft : Draft) : Prop :=
  draft ∈ store.rows.map Row.draft

theorem Store.has_of_mem {store : Store} {row : Row} (h : row ∈ store.rows) : store.Has row.draft :=
  List.mem_map_of_mem h

/-- What is committed stays. -/
theorem Rules.Makes.has_after {rules : Rules κ τ ρ} {earlier : List (Action κ τ)}
    {moment : Moment κ τ} (h : rules.Makes (rules.world earlier) moment) {draft : Draft}
    (hhas : (rules.world earlier).store.Has draft) : moment.after.Has draft := by
  rcases h.stores with ⟨_, hsame⟩ | ⟨tx, _, _, _, hrows⟩
  · rw [Store.Has, hsame]
    exact hhas
  · refine (hrows.map Row.draft).mem_iff.2 ?_
    rw [List.map_append]
    exact List.mem_append_left _ hhas

/-- What the calls so far tell of the messages that were taken over. -/
structure Handovers (shift? : τ → Option (Shift κ)) (store : Store) (history : List (Moment κ τ)) :
    Prop where
  held : ∀ number row, held number history = some row → store.Has row.draft
  handed : ∀ number row, (phaseOf number history).hold = .handed row true →
    ∃ moment ∈ history, moment.HandedOver shift? row
  processed : ∀ row ∈ store.rows, row.status = .processed →
    ∃ moment ∈ history, ∃ handed : Row, handed.draft = row.draft ∧ moment.HandedOver shift? handed
  committed : ∀ moment ∈ history, moment.delivers = true →
    ∃ row : Row, store.Has row.draft ∧ moment.HandedOver shift? row

namespace Handovers

variable {rules : Rules κ τ ρ} {shift? : τ → Option (Shift κ)} {earlier : List (Action κ τ)}
  {moment : Moment κ τ}
  (h : Handovers shift? (rules.world earlier).store (rules.world earlier).history)
  (hpublishes : rules.Publishes shift?) (hmakes : rules.Makes (rules.world earlier) moment)

include h hmakes in
theorem held_after {number : Nat} {row : Row}
    (hheld : Courier.held number (moment :: (rules.world earlier).history) = some row) :
    moment.after.Has row.draft := by
  rcases held_cons hheld with ⟨_, hswap, hshown, _⟩ | ⟨hold, _⟩
  · have hrow := (World.get?_of_shown hmakes hswap hshown).2.1
    exact Store.has_of_mem (Store.mem_of_get? hrow).1
  · exact hmakes.has_after (h.held number row hold)

include h hpublishes hmakes

theorem handed_after {number : Nat} {row : Row}
    (hhold : (phaseOf number (moment :: (rules.world earlier).history)).hold = .handed row true) :
    ∃ made ∈ moment :: (rules.world earlier).history, made.HandedOver shift? row := by
  rcases hpublishes.handed_cases hmakes hhold with ⟨hnow, _⟩ | hbefore
  · exact ⟨moment, List.mem_cons_self .., hnow⟩
  · obtain ⟨made, hmade, hhanded⟩ := h.handed number row hbefore
    exact ⟨made, List.mem_cons_of_mem _ hmade, hhanded⟩

/-- A row becomes processed only by the turn of a tick that has handed it over. -/
theorem processed_after {row : Row} (hrow : row ∈ moment.after.rows)
    (hstatus : row.status = .processed) :
    ∃ made ∈ (rules.world earlier).history, ∃ handed : Row, handed.draft = row.draft ∧
      made.HandedOver shift? handed := by
  rcases (World.sound rules earlier).row_before hmakes.before hmakes.effect hrow with
    hold | hstaged | ⟨change, old, hold, hcall, hfits, rfl⟩
  · exact h.processed row hold hstatus
  · obtain ⟨id, draft, now, rfl⟩ := World.staged_fresh hpublishes.lasting earlier hstaged
    cases hstatus
  · obtain ⟨worker, shift, _, _, hturn⟩ := hpublishes.turn hmakes hcall hold hfits
    obtain ⟨made, hmade, hhanded⟩ :=
      h.handed worker.number old (hturn.outcome.of_processed hstatus)
    exact ⟨made, hmade, old, (old.draft_apply change).symm, hhanded⟩

theorem committed_after (hdelivers : moment.delivers = true) :
    ∃ row : Row, moment.after.Has row.draft ∧ moment.HandedOver shift? row := by
  obtain ⟨worker, shift, claimed, hworker, hshift, hclaimed, hhands⟩ :=
    hpublishes.hands_over hmakes (Call.isHandOver_of_delivers hdelivers)
  refine ⟨claimed, ?_, hdelivers, worker, shift, hworker, hshift, hhands⟩
  exact hmakes.has_after (h.held worker.number claimed (held_of_hold hclaimed))

theorem step : Handovers shift? moment.after (moment :: (rules.world earlier).history) := by
  constructor
  · exact fun number row hheld => h.held_after hmakes hheld
  · exact fun number row hhold => h.handed_after hpublishes hmakes hhold
  · intro row hrow hstatus
    obtain ⟨made, hmade, hhanded⟩ := h.processed_after hpublishes hmakes hrow hstatus
    exact ⟨made, List.mem_cons_of_mem _ hmade, hhanded⟩
  · intro made hmade hdelivers
    rcases List.mem_cons.1 hmade with rfl | hold
    · exact h.committed_after hpublishes hmakes hdelivers
    · obtain ⟨row, hhas, hhanded⟩ := h.committed made hold hdelivers
      exact ⟨row, hmakes.has_after hhas, hhanded⟩

end Handovers

theorem Rules.Publishes.handovers {rules : Rules κ τ ρ} {shift? : τ → Option (Shift κ)}
    (h : rules.Publishes shift?) (actions : List (Action κ τ)) :
    Handovers shift? (rules.world actions).store (rules.world actions).history := by
  refine Rules.call_induction h.lasting (fun store _ history => Handovers shift? store history)
    ?_ (fun earlier moment ih hmakes => ih.step h hmakes) actions
  constructor
  · intro number row hheld
    cases hheld
  · intro number row hhold
    cases hhold
  · intro row hrow
    cases hrow
  · intro moment hmoment
    cases hmoment

end Courier
