import Courier.Proofs.Interleaving.Faultless
/-
Changes of rows are made in one stroke, whoever else is at work.  The version of a row tells its
contents, each version of a row is the outcome of one change at most, and a change that is not made
leaves no trace.  Numbers are not given out again when a store is cleared, so none of this needs the
rows to stay.
-/
namespace Courier

variable {κ τ ρ : Type}

/-- The row that a change was made to, and the version that it was based on. -/
def Call.won? : (call : Call κ) → call.Answer → Option (RowId × Int)
  | .swap change, Except.ok (some _) => some (change.id, change.expectedVersion)
  | _, _ => none

def Moment.won? (moment : Moment κ τ) : Option (RowId × Int) :=
  moment.call.won? moment.answer

def World.wins (world : World κ τ ρ) : List (RowId × Int) :=
  world.history.filterMap Moment.won?

/-- The change was made in full: to the row that it names, as it expects that row, and to nothing
else.  Who made it is shown the row as it is now. -/
def Moment.Changes (moment : Moment κ τ) (change : Change) : Prop :=
  ∃ row, moment.before.get? change.id = some row ∧ change.fits row = true ∧
    moment.after =
      { moment.before with rows := Store.changeRow moment.before.rows (row.apply change) } ∧
    moment.shown = [row.apply change]

/-- Rows are changed as if one writer at a time had the store to himself. -/
structure World.Linear (world : World κ τ ρ) : Prop where
  /-- A row that was ever handed out is the committed row of its number and version. -/
  current : ∀ seen ∈ world.handedOut, ∀ row ∈ world.store.rows,
    row.id = seen.id → row.version = seen.version → row = seen
  /-- Of all changes of a row that are based on one version, one is made at most. -/
  once : world.wins.Nodup
  /-- A change is made in full and answered with its row, or it is not made at all. -/
  made : ∀ moment ∈ world.history, ∀ change, moment.call = .swap change →
    (moment.won? = some (change.id, change.expectedVersion) ∧ moment.Changes change) ∨
      (moment.won? = none ∧ moment.shown = [] ∧ moment.after = moment.before)

/-- Whoever is told of a change is shown the next version of its row, whose version was the one that
the change was based on. -/
theorem Rules.Makes.of_won {rules : Rules κ τ ρ} {world : World κ τ ρ} {moment : Moment κ τ}
    (h : rules.Makes world moment) {id : RowId} {version : Int}
    (hwon : moment.won? = some (id, version)) :
    ∃ old ∈ world.store.rows, old.id = id ∧ old.version = version ∧
      ∃ row ∈ moment.shown, row.id = id ∧ row.version = version + 1 := by
  have hbefore := h.before
  obtain ⟨worker, call, answer, before, after⟩ := moment
  obtain ⟨manner, _, hresponse⟩ := h.mishap
  change before = world.store at hbefore
  cases call with
  | swap change =>
      match answer with
      | .error error => cases hwon
      | .ok none => cases hwon
      | .ok (some row) =>
          obtain ⟨rfl, rfl⟩ := Prod.mk.inj (Option.some.inj hwon)
          change (_, after) = manner.onStore before (before.swap change).swap at hresponse
          have hdone := Manner.onStore_eq_of_ok (congrArg Prod.fst hresponse).symm
          rw [hdone] at hresponse
          rcases before.swap_cases change with ⟨given, hgiven, hswap⟩ | ⟨old, hold, hfits⟩
          · rw [hswap] at hresponse
            exact absurd (Prod.mk.inj hresponse).1.symm (hgiven row)
          · rw [Store.swap_of_fits hold hfits] at hresponse
            have hrow : row = old.apply change :=
              Option.some.inj (Except.ok.inj (Prod.mk.inj hresponse).1)
            obtain ⟨hmem, hid⟩ := Store.mem_of_get? hold
            have hexpected : old.version = change.expectedVersion := (Change.fits_iff.1 hfits).2.1
            have hversion : row.version = change.expectedVersion + 1 := by
              rw [hrow, ← hexpected]
              rfl
            rw [hbefore] at hmem
            refine ⟨old, hmem, hid, hexpected, row, List.mem_singleton_self row, ?_, hversion⟩
            rw [hrow]
            exact hid
  | _ => cases hwon

namespace World

variable {rules : Rules κ τ ρ}

/-- No change is made twice, and each was shown to whoever made it. -/
theorem wins_once (rules : Rules κ τ ρ) (actions : List (Action κ τ)) :
    (rules.world actions).wins.Nodup ∧
      ∀ win ∈ (rules.world actions).wins, ∃ row ∈ (rules.world actions).handedOut,
        row.id = win.1 ∧ row.version = win.2 + 1 := by
  refine Rules.history_induction (fun _ history => (history.filterMap Moment.won?).Nodup ∧
    ∀ win ∈ history.filterMap Moment.won?, ∃ row ∈ history.flatMap Moment.shown,
      row.id = win.1 ∧ row.version = win.2 + 1) ?_ ?_ actions
  · refine ⟨List.nodup_nil, fun win hwin => ?_⟩
    cases hwin
  · intro earlier moment ⟨honce, hshown⟩ hmakes
    have hlater : ∀ win ∈ (rules.world earlier).wins,
        ∃ row ∈ (moment :: (rules.world earlier).history).flatMap Moment.shown,
          row.id = win.1 ∧ row.version = win.2 + 1 := by
      intro win hwin
      obtain ⟨row, hrow, htells⟩ := hshown win hwin
      exact ⟨row, List.mem_append_right _ hrow, htells⟩
    cases hwon : moment.won? with
    | none =>
        rw [List.filterMap_cons_none hwon]
        exact ⟨honce, hlater⟩
    | some win =>
        obtain ⟨old, hold, hid, hversion, row, hrow, htells⟩ := hmakes.of_won hwon
        rw [List.filterMap_cons_some hwon]
        constructor
        · refine List.nodup_cons.2 ⟨fun hbefore => ?_, honce⟩
          obtain ⟨seen, hseen, hsame, hahead⟩ := hshown win hbefore
          have hbehind := ((sound rules earlier).current seen hseen old
            (List.mem_append_left _ hold) (hid.trans hsame.symm)).1
          omega
        · intro other hother
          rcases List.mem_cons.1 hother with rfl | hbefore
          · exact ⟨row, List.mem_append_left _ hrow, htells⟩
          · exact hlater other hbefore

end World

/-- A store that does as it is asked makes a change in full or not at all. -/
theorem Moment.Faithful.made {moment : Moment κ τ} (h : moment.Faithful) {change : Change}
    (hcall : moment.call = .swap change) :
    (moment.won? = some (change.id, change.expectedVersion) ∧ moment.Changes change) ∨
      (moment.won? = none ∧ moment.shown = [] ∧ moment.after = moment.before) := by
  obtain ⟨worker, call, answer, before, after⟩ := moment
  change call = _ at hcall
  subst hcall
  obtain ⟨manner, hmishap, hresponse⟩ := h
  have hdone : (answer, after) = (before.swap change).swap :=
    hresponse.trans (Manner.onStore_of_none hmishap ..)
  rcases before.swap_cases change with ⟨given, hgiven, hswap⟩ | ⟨row, hrow, hfits⟩
  · rw [hswap] at hdone
    obtain ⟨rfl, rfl⟩ := Prod.mk.inj hdone
    rcases answer with error | _ | row
    · exact Or.inr ⟨rfl, rfl, rfl⟩
    · exact Or.inr ⟨rfl, rfl, rfl⟩
    · exact absurd rfl (hgiven row)
  · rw [Store.swap_of_fits hrow hfits] at hdone
    obtain ⟨rfl, rfl⟩ := Prod.mk.inj hdone
    exact Or.inl ⟨rfl, row, hrow, hfits, rfl, rfl⟩

/-- Whatever is done to a store that never fails, by anyone in any order, its rows are changed as if
one writer at a time had it to himself. -/
theorem rows_linear (rules : Rules κ τ ρ) (actions : List (Action κ τ)) :
    (rules.faultless.world actions).Linear where
  current seen hseen row hrow hid hversion :=
    (((World.sound rules.faultless actions).current seen hseen row
      (List.mem_append_left _ hrow) hid).2 hversion.symm).symm
  once := (World.wins_once rules.faultless actions).1
  made moment hmoment _ hcall := ((rules.faultless_world actions).2 moment hmoment).made hcall

end Courier
