import Courier.Proofs.Custody.Moves
import Courier.Proofs.Interleaving.Histories
/-
Orderly rules: every change is one that a custodian makes after a look at a row that was handed out,
however stale that row is by then.  Such a change finds the row as it was looked at or does nothing,
so that the guards of the look hold of the row that is changed.
-/
namespace Courier

variable {κ τ ρ σ : Type}

namespace Lawful

variable {row : Row} {change : Change}

theorem expects (h : Lawful row change) :
    change.id = row.id ∧ change.expectedVersion = row.version := by
  cases h with
  | reclaim custodian now hlook =>
      rcases custodian.reclaimChange_cases row now with ⟨_, heq⟩ | ⟨_, heq⟩
      · rw [heq]
        exact ⟨rfl, rfl⟩
      · rw [heq]
        exact ⟨rfl, rfl⟩
  | postpone custodian next hlook =>
      rcases custodian.deferChange_cases row next with ⟨_, heq⟩ | ⟨_, heq⟩
      · rw [heq]
        exact ⟨rfl, rfl⟩
      · rw [heq]
        exact ⟨rfl, rfl⟩
  | _ => exact ⟨rfl, rfl⟩

end Lawful

namespace Custodian

variable {custodian : Custodian} {row : Row}

theorem check_eq_ok {next : Status} {value : Unit} (h : custodian.check row next = .ok value) :
    row.refusal? next custodian.maxRetries = none := by
  unfold check at h
  split at h
  · assumption
  · cases h

/-- What follows a check may rely on it. -/
theorem keeps_checked {α : Type} {protocol : Protocol κ σ}
    {ends : Except MessagingError α → σ → Prop} {phase : σ} {next : Status}
    {rest : Unit → Attempt κ MessagingError α}
    (hrest : row.refusal? next custodian.maxRetries = none →
      Program.Keeps protocol ends (rest ()) phase)
    (herror : ∀ error, ends (.error error) phase) :
    Program.Keeps protocol ends
      (Attempt.ofExcept (custodian.check row next) >>= rest : Attempt κ MessagingError α) phase := by
  refine Program.Keeps.andThen (Program.Keeps.ofExcept ⟨fun value hvalue => ?_, ?_⟩)
  · exact hrest (check_eq_ok hvalue)
  · exact fun error _ => herror error

end Custodian

/-- A change made after a look at a row that was handed out finds that very row or none. -/
theorem World.Sound.eq_of_fits {world : World κ τ ρ} (h : world.Sound) {seen row : Row}
    {change : Change} (hlawful : Lawful seen change) (hseen : seen ∈ world.handedOut)
    (hrow : row ∈ world.store.rows) (hfits : change.fits row = true) : seen = row := by
  obtain ⟨hid, hversion⟩ := hlawful.expects
  obtain ⟨hrowid, hrowversion, _⟩ := Change.fits_iff.1 hfits
  have hcurrent := h.current seen hseen row (List.mem_append_left _ hrow) (hrowid.trans hid)
  exact hcurrent.2 (hversion.symm.trans hrowversion.symm)

/-- Every change is a lawful one of a row that was handed out, and nothing is cleared. -/
structure Rules.Orderly (rules : Rules κ τ ρ) : Prop where
  lasting : rules.clears = false
  lawful : ∀ earlier moment change, rules.Makes (rules.world earlier) moment →
    moment.call = .swap change → ∃ seen ∈ (rules.world earlier).handedOut, Lawful seen change

/-- A row stays, or it is changed lawfully. -/
def Row.Turns (before after : Row) : Prop :=
  after = before ∨ ∃ change, Lawful before change ∧ after = before.apply change

theorem Row.Turns.regular {before after : Row} (h : before.Turns after) (hregular : before.Regular) :
    after.Regular := by
  rcases h with rfl | ⟨change, hlawful, rfl⟩
  · exact hregular
  · exact hlawful.regular hregular

theorem Row.Turns.eq_of_terminal {before after : Row} (h : before.Turns after)
    (hterminal : before.isTerminal = true) : after = before := by
  rcases h with heq | ⟨change, hlawful, _⟩
  · exact heq
  · rw [hlawful.not_terminal] at hterminal
    cases hterminal

namespace Rules.Orderly

variable {rules : Rules κ τ ρ}

theorem turns (h : rules.Orderly) {earlier : List (Action κ τ)} {moment : Moment κ τ}
    (hmakes : rules.Makes (rules.world earlier) moment) {id : RowId} {row : Row}
    (hrow : (rules.world earlier).store.get? id = some row) :
    ∃ after, moment.after.get? id = some after ∧ row.Turns after := by
  obtain ⟨after, hafter, heq | ⟨change, hcall, hfits, heq⟩⟩ := World.get?_after hmakes hrow
  · exact ⟨after, hafter, Or.inl heq⟩
  · obtain ⟨seen, hseen, hlawful⟩ := h.lawful earlier moment change hmakes hcall
    have hsame : seen = row := (World.sound rules earlier).eq_of_fits hlawful hseen
      (Store.mem_of_get? hrow).1 hfits
    subst hsame
    exact ⟨after, hafter, Or.inr ⟨change, hlawful, heq⟩⟩

/-- The same for a step, whatever it does. -/
theorem turns_in_step (h : rules.Orderly) (action : Action κ τ) {earlier : List (Action κ τ)}
    {id : RowId} {row : Row} (hrow : (rules.world earlier).store.get? id = some row) :
    ∃ after, (rules.world (action :: earlier)).store.get? id = some after ∧ row.Turns after := by
  have hnext := rules.step_next (rules.world earlier) action
  change ∃ after, (rules.step (rules.world earlier) action).store.get? id = some after ∧ _
  rcases hnext.call_or_none h.lasting with ⟨jobs, heq⟩ | ⟨moment, jobs, hmakes, heq⟩
  · rw [heq]
    exact ⟨row, hrow, Or.inl rfl⟩
  · rw [heq]
    exact h.turns hmakes hrow

/-- Once a row is done for good, nothing that comes later changes it. -/
theorem terminal_stays (h : rules.Orderly) (later : List (Action κ τ)) {earlier : List (Action κ τ)}
    {id : RowId} {row : Row} (hrow : (rules.world earlier).store.get? id = some row)
    (hterminal : row.isTerminal = true) :
    (rules.world (later ++ earlier)).store.get? id = some row := by
  induction later with
  | nil => exact hrow
  | cons action later ih =>
      obtain ⟨after, hafter, hturns⟩ := h.turns_in_step action ih
      rw [hturns.eq_of_terminal hterminal] at hafter
      exact hafter

theorem regular (h : rules.Orderly) (actions : List (Action κ τ)) {id : RowId} {row : Row}
    (hrow : (rules.world actions).store.get? id = some row) : row.Regular := by
  refine Rules.call_induction h.lasting
    (fun store _ _ => ∀ id row, store.get? id = some row → row.Regular) ?_ ?_ actions id row hrow
  · intro id row hrow
    cases hrow
  · intro earlier moment ih hmakes id row hrow
    cases hbefore : (rules.world earlier).store.get? id with
    | none =>
        obtain ⟨draft, now, heq⟩ := World.get?_new h.lasting hmakes hbefore hrow
        rw [heq]
        exact Row.fresh_regular id draft now
    | some before =>
        obtain ⟨after, hafter, hturns⟩ := h.turns hmakes hbefore
        rw [hafter] at hrow
        obtain rfl := Option.some.inj hrow
        exact hturns.regular (ih id before hbefore)

end Rules.Orderly

/-- The rows a worker has seen are among those handed out, if those it starts with are. -/
theorem World.known_handedOut {protocol : τ → Protocol κ σ} {first : τ → σ} (known : σ → List Row)
    (hnext : ∀ task phase call answer, ∀ row ∈ known ((protocol task).next phase call answer),
      row ∈ call.shown answer ∨ row ∈ known phase)
    (world : World κ τ ρ) (worker : Worker τ) {row : Row}
    (hrow : row ∈ known (world.phase protocol first worker)) :
    row ∈ known (first worker.task) ∨ row ∈ world.handedOut := by
  unfold World.handedOut
  unfold World.phase at hrow
  generalize world.history = history at hrow ⊢
  induction history with
  | nil => exact Or.inl hrow
  | cons moment past ih =>
      simp only [Protocol.phase] at hrow
      rw [List.flatMap_cons, List.mem_append]
      split at hrow
      · rcases hnext worker.task _ _ _ row hrow with hshown | hknown
        · exact Or.inr (Or.inl hshown)
        · exact (ih hknown).imp id Or.inr
      · exact (ih hrow).imp id Or.inr

/-- What holds of a task when it is admitted, and whatever else is handed out later, holds of every
job. -/
theorem Rules.admitted {rules : Rules κ τ ρ} (holds : List Row → τ → Prop)
    (hadmits : ∀ handed task, rules.admits handed task = true → holds handed task)
    (hmore : ∀ shown handed task, holds handed task → holds (shown ++ handed) task)
    (actions : List (Action κ τ)) {job : Job κ τ ρ} (hjob : job ∈ (rules.world actions).jobs) :
    holds (rules.world actions).handedOut job.task := by
  refine Rules.world_induction (fun world => ∀ job ∈ world.jobs, holds world.handedOut job.task)
    ?_ ?_ actions job hjob
  · intro job hjob
    cases hjob
  · intro earlier next h hnext job hjob
    generalize rules.world earlier = world at h hnext
    cases hnext with
    | idle => exact h job hjob
    | started task hadmitted =>
        rcases List.mem_append.1 hjob with hold | hnew
        · exact h job hold
        · obtain rfl := List.mem_singleton.1 hnew
          exact hadmits _ task hadmitted
    | worked worker call next manner hworking hallows =>
        rcases List.mem_or_eq_of_mem_set hjob with hold | rfl
        · exact hmore _ _ _ (h job hold)
        · exact hmore _ _ worker.task (h _ (List.mem_of_getElem? hworking))
    | called call manner hbystander hallows => exact hmore _ _ _ (h job hjob)
    | cleared hclears => exact h job hjob

/-- Where workers keep to protocols that allow certain changes of known rows only, every change is
such a one, of a row that was handed out. -/
theorem Rules.change_of_follows {rules : Rules κ τ ρ} (protocol : τ → Protocol κ σ) (first : τ → σ)
    (hfollows : rules.Follows protocol first) (known : σ → List Row)
    (allowed : τ → Row → Change → Prop)
    (hallows : ∀ task phase change, (protocol task).allows phase (.swap change) →
      ∃ row ∈ known phase, allowed task row change)
    (hnext : ∀ task phase call answer, ∀ row ∈ known ((protocol task).next phase call answer),
      row ∈ call.shown answer ∨ row ∈ known phase)
    (hadmits : ∀ handed task, rules.admits handed task = true →
      ∀ row ∈ known (first task), row ∈ handed)
    (hbystander : ∀ change, rules.bystander (.swap change) = false)
    {earlier : List (Action κ τ)} {moment : Moment κ τ} {change : Change}
    (hmakes : rules.Makes (rules.world earlier) moment) (hcall : moment.call = .swap change) :
    ∃ worker, moment.worker = some worker ∧
      ∃ seen ∈ (rules.world earlier).handedOut, allowed worker.task seen change := by
  cases hby : moment.worker with
  | none =>
      have hcalled := hmakes.bystander hby
      rw [hcall, hbystander change] at hcalled
      cases hcalled
  | some worker =>
      have hallowed := hmakes.allows hfollows hby
      rw [hcall] at hallowed
      obtain ⟨row, hrow, hchange⟩ := hallows worker.task _ change hallowed
      refine ⟨worker, rfl, row, ?_, hchange⟩
      rcases World.known_handedOut known hnext _ worker hrow with hfirst | hshown
      · obtain ⟨next, hjob⟩ := hmakes.worker worker hby
        have hstarted := Rules.admitted
          (fun handed task => ∀ row ∈ known (first task), row ∈ handed) hadmits
          (fun shown handed task h row hrow => List.mem_append_right shown (h row hrow))
          earlier (List.mem_of_getElem? hjob)
        exact hstarted row hfirst
      · exact hshown

/-- Rules are orderly when workers keep to a protocol that allows lawful changes of known rows
only. -/
theorem Rules.orderly_of_follows {rules : Rules κ τ ρ} (protocol : τ → Protocol κ σ) (first : τ → σ)
    (hfollows : rules.Follows protocol first) (known : σ → List Row)
    (hallows : ∀ task phase change, (protocol task).allows phase (.swap change) →
      ∃ row ∈ known phase, Lawful row change)
    (hnext : ∀ task phase call answer, ∀ row ∈ known ((protocol task).next phase call answer),
      row ∈ call.shown answer ∨ row ∈ known phase)
    (hadmits : ∀ handed task, rules.admits handed task = true →
      ∀ row ∈ known (first task), row ∈ handed)
    (hbystander : ∀ change, rules.bystander (.swap change) = false)
    (hlasting : rules.clears = false) : rules.Orderly := by
  refine ⟨hlasting, fun earlier moment change hmakes hcall => ?_⟩
  obtain ⟨_, _, hseen⟩ := Rules.change_of_follows protocol first hfollows known
    (fun _ => Lawful) hallows hnext hadmits hbystander hmakes hcall
  exact hseen

end Courier
