import Courier.Proofs.Publishing.Deliveries
/-
Ticks one after another.  A tick that is over has no claim at hand, and so it has settled all that it
made.  When no tick begins before the one before it is over, no claim is outlived.
-/
namespace Courier

variable {κ τ ρ : Type}

/-- The job with a number is done, or it has not made a call yet. -/
def World.Resting (world : World κ τ ρ) (number : Nat) : Prop :=
  ∀ job, world.jobs[number]? = some job →
    (∃ value, job.rest = .done value) ∨ ∀ moment ∈ world.history, moment.isBy number = false

/-- No job goes on while another one is in the middle of its calls. -/
def Rules.InTurn (rules : Rules κ τ ρ) : List (Action κ τ) → Prop
  | [] => True
  | action :: earlier => rules.InTurn earlier ∧
      ∀ number manner, action = .work number manner →
        ∀ other, other ≠ number → (rules.world earlier).Resting other

theorem World.resting_of_length_le {world : World κ τ ρ} {number : Nat}
    (h : world.jobs.length ≤ number) : world.Resting number := by
  intro job hjob
  rw [List.getElem?_eq_none h] at hjob
  cases hjob

instance (world : World κ τ ρ) (number : Nat) : Decidable (world.Resting number) :=
  match hjob : world.jobs[number]? with
  | none => isTrue fun job h => nomatch hjob.symm.trans h
  | some ⟨_, .done value⟩ => isTrue fun job h => by
      obtain rfl := Option.some.inj (hjob.symm.trans h)
      exact Or.inl ⟨value, rfl⟩
  | some ⟨_, .ask _ _⟩ =>
      decidable_of_iff (∀ moment ∈ world.history, moment.isBy number = false) <| by
        constructor
        · exact fun hnever _ _ => Or.inr hnever
        · intro hresting
          refine (hresting _ hjob).resolve_left ?_
          rintro ⟨_, hdone⟩
          cases hdone

instance (world : World κ τ ρ) : Decidable (∀ number, world.Resting number) :=
  decidable_of_iff (∀ number < world.jobs.length, world.Resting number) <| by
    constructor
    · intro h number
      by_cases hlt : number < world.jobs.length
      · exact h number hlt
      · exact World.resting_of_length_le (Nat.le_of_not_lt hlt)
    · exact fun h number _ => h number

theorem Rules.inTurn_work {rules : Rules κ τ ρ} {number : Nat} {manner : Manner}
    {earlier : List (Action κ τ)} :
    rules.InTurn (.work number manner :: earlier) ↔ rules.InTurn earlier ∧
      ∀ other < (rules.world earlier).jobs.length, other ≠ number →
        (rules.world earlier).Resting other := by
  constructor
  · exact fun h => ⟨h.1, fun other _ hne => h.2 number manner rfl other hne⟩
  · rintro ⟨hearlier, hothers⟩
    refine ⟨hearlier, fun worker _ haction other hne => ?_⟩
    obtain ⟨rfl, _⟩ := Action.work.inj haction
    by_cases hlt : other < (rules.world earlier).jobs.length
    · exact hothers other hlt hne
    · exact World.resting_of_length_le (Nat.le_of_not_lt hlt)

theorem Rules.inTurn_other {rules : Rules κ τ ρ} {action : Action κ τ} {earlier : List (Action κ τ)}
    (h : ∀ number manner, action ≠ .work number manner) :
    rules.InTurn (action :: earlier) ↔ rules.InTurn earlier :=
  ⟨And.left, fun hearlier => ⟨hearlier, fun number manner haction => absurd haction (h number manner)⟩⟩

instance Rules.decidableInTurn (rules : Rules κ τ ρ) :
    (actions : List (Action κ τ)) → Decidable (rules.InTurn actions)
  | [] => isTrue trivial
  | .work _ _ :: earlier =>
      have := rules.decidableInTurn earlier
      decidable_of_iff _ inTurn_work.symm
  | .start _ :: earlier =>
      have := rules.decidableInTurn earlier
      decidable_of_iff _ (inTurn_other (by rintro _ _ ⟨⟩)).symm
  | .call _ _ :: earlier =>
      have := rules.decidableInTurn earlier
      decidable_of_iff _ (inTurn_other (by rintro _ _ ⟨⟩)).symm
  | .clear :: earlier =>
      have := rules.decidableInTurn earlier
      decidable_of_iff _ (inTurn_other (by rintro _ _ ⟨⟩)).symm

section resting

variable {rules : Rules κ τ ρ} {world next : World κ τ ρ} {number : Nat}

theorem World.resting_congr (hjob : next.jobs[number]? = world.jobs[number]?)
    (hcalls : (∀ moment ∈ next.history, moment.isBy number = false) ↔
      ∀ moment ∈ world.history, moment.isBy number = false) :
    next.Resting number ↔ world.Resting number := by
  unfold Resting
  rw [hjob, hcalls]

theorem World.resting_record {moment : Moment κ τ} {jobs : List (Job κ τ ρ)}
    (hjob : jobs[number]? = world.jobs[number]?) (hby : moment.isBy number = false) :
    World.Resting { world.record moment with jobs := jobs } number ↔ world.Resting number := by
  refine World.resting_congr hjob ?_
  change (∀ made ∈ moment :: world.history, made.isBy number = false) ↔ _
  rw [List.forall_mem_cons]
  exact and_iff_right hby

/-- While one job makes a call, no other one is in the middle of its calls. -/
theorem Rules.InTurn.others {earlier : List (Action κ τ)} {action : Action κ τ}
    (h : rules.InTurn (action :: earlier)) {worker : Worker τ} {moment : Moment κ τ}
    (hworker : moment.worker = some worker) {jobs : List (Job κ τ ρ)}
    (hstep : rules.step (rules.world earlier) action =
      { (rules.world earlier).record moment with jobs := jobs }) :
    ∀ other, other ≠ worker.number → (rules.world earlier).Resting other := by
  rcases rules.step_history (rules.world earlier) action with hsame | ⟨made, _, hmore, hnamed⟩
  · rw [hstep] at hsame
    exact absurd hsame (List.cons_ne_self _ _)
  · rw [hstep] at hmore
    obtain rfl := (List.cons.inj hmore).1
    obtain ⟨manner, haction⟩ := hnamed worker hworker
    exact h.2 worker.number manner haction

end resting

theorem phaseOf_eq_start {number : Nat} {history : List (Moment κ τ)}
    (h : ∀ moment ∈ history, moment.isBy number = false) : phaseOf number history = Phase.start := by
  induction history with
  | nil => rfl
  | cons moment past ih =>
      obtain ⟨hmoment, hpast⟩ := List.forall_mem_cons.1 h
      rw [phaseOf_cons_other hmoment, ih hpast]

section

variable {eligible : PublisherSettings → Bool} {earlier : List (Action κ (Shift κ))}
  {moment : Moment κ (Shift κ)}

/-- Between its ticks a worker has no claim at hand. -/
theorem hold_of_resting {actions : List (Action κ (Shift κ))} {number : Nat}
    (h : ((publishing κ eligible).world actions).Resting number) :
    (phaseOf number ((publishing κ eligible).world actions).history).hold = .nothing := by
  have hkeeping : World.Keeping Shift.settling (fun _ _ phase => phase.hold = .nothing)
      (fun _ => Phase.start) ((publishing κ eligible).world actions) :=
    World.keeping publishing_settling actions
  by_cases hcalled : ∃ moment ∈ ((publishing κ eligible).world actions).history,
      moment.isBy number = true
  · obtain ⟨moment, hmoment, hby⟩ := hcalled
    obtain ⟨worker, hworker, rfl⟩ := Moment.isBy_iff.1 hby
    obtain ⟨rest, hjob⟩ := hkeeping.worker moment hmoment worker hworker
    rcases h _ hjob with ⟨value, hdone⟩ | hnever
    · change rest = .done value at hdone
      subst hdone
      have hended := hkeeping.ended hjob
      rw [phase_eq_phaseOf fun _ => rfl] at hended
      exact hended
    · rw [hnever moment hmoment] at hby
      cases hby
  · rw [phaseOf_eq_start]
    · rfl
    · intro moment hmoment
      exact Bool.eq_false_iff.2 fun hby => hcalled ⟨moment, hmoment, hby⟩

/-- A call that claims a row is a change, and a store that does not fail shows it to the caller. -/
theorem shown_of_claim
    (hmakes : (publishing κ eligible).Makes ((publishing κ eligible).world earlier) moment)
    (hfaithful : moment.Faithful) {claimed : Row} (hclaim : moment.claim? claimed.id = some claimed) :
    moment.call.isSwap = true ∧ moment.shown = [claimed] := by
  obtain ⟨_, row, _, hrow, _⟩ := publishing_claims hmakes hclaim
  obtain ⟨hclaimed, _⟩ := Moment.of_claim? hclaim
  obtain ⟨after, hafter, heq | ⟨change, hcall, hfits, heq⟩⟩ := World.get?_after hmakes hrow
  · have hsame : moment.after.get? claimed.id = moment.before.get? claimed.id := by
      rw [hmakes.before, hrow, hafter, heq]
    rw [Moment.claim?_of_same hsame] at hclaim
    cases hclaim
  · have hid : change.id = claimed.id :=
      (Change.id_of_fits hfits).symm.trans (Store.mem_of_get? hrow).2
    have hbefore : moment.before.get? change.id = some row := by
      rw [hmakes.before, hid]
      exact hrow
    refine ⟨by rw [hcall]; rfl, ?_⟩
    rw [(hfaithful.changed hcall hbefore hfits).2, ← heq]
    rw [Option.some.inj (hafter.symm.trans hclaimed)]

/-- While no claim is outlived, a claim is at hand until its holder settles it. -/
theorem held_or_settled (actions : List (Action κ (Shift κ)))
    (hfaithful : ∀ moment ∈ ((publishing κ eligible).world actions).history, moment.Faithful)
    (hkept : LeasesKept ((publishing κ eligible).world actions).history)
    {claiming : Moment κ (Shift κ)}
    (hclaiming : claiming ∈ ((publishing κ eligible).world actions).history) {a : Worker (Shift κ)}
    (ha : claiming.worker = some a) {claimed : Row}
    (hclaim : claiming.claim? claimed.id = some claimed) :
    held a.number ((publishing κ eligible).world actions).history = some claimed ∨
      ∃ settling ∈ ((publishing κ eligible).world actions).history,
        settling.worker = some a ∧ settling.Settles claimed := by
  refine Rules.call_induction rfl (fun _ _ history => (∀ moment ∈ history, moment.Faithful) →
    LeasesKept history → claiming ∈ history → held a.number history = some claimed ∨
      ∃ settling ∈ history, settling.worker = some a ∧ settling.Settles claimed) ?_ ?_ actions
    hfaithful hkept hclaiming
  · intro _ _ hclaiming
    cases hclaiming
  · intro earlier moment ih hmakes hfaithful hkept hclaiming
    obtain ⟨hnow, hpast⟩ := List.forall_mem_cons.1 hfaithful
    have hprocessing := (Moment.of_claim? hclaim).2
    rcases List.mem_cons.1 hclaiming with rfl | hmade
    · obtain ⟨hswap, hshown⟩ := shown_of_claim hmakes hnow hclaim
      have hby : claiming.isBy a.number = true := Moment.isBy_iff.2 ⟨a, ha, rfl⟩
      refine Or.inl ?_
      simp [held, hby, hswap, hshown, hprocessing]
    · rcases ih hpast hkept.1 hmade with hheld | ⟨settling, hsettling, hworker, hsettles⟩
      · by_cases hsettled : moment.isBy a.number = true ∧ moment.call.isSwap = true
        · obtain ⟨hby, hswap⟩ := hsettled
          obtain ⟨worker, hworker, hnumber⟩ := Moment.isBy_iff.1 hby
          obtain rfl := World.worker_unique publishing_follows hmakes (List.mem_cons_self ..)
            (List.mem_cons_of_mem _ hmade) hworker ha hnumber
          obtain ⟨change, _, hended, hafter⟩ :=
            settled_by_holder hmakes hnow hkept.1 hworker hswap hheld
          refine Or.inr ⟨moment, List.mem_cons_self .., hworker, ?_, _, hafter, hended⟩
          rw [hmakes.before]
          exact held_current earlier hkept.1 hheld
        · refine Or.inl ?_
          rw [← Bool.and_eq_true_iff, Bool.not_eq_true] at hsettled
          rw [held_cons_other hsettled, hheld]
      · exact Or.inr ⟨settling, List.mem_cons_of_mem _ hsettling, hworker, hsettles⟩

/-- When ticks run one after another, no claim is outlived. -/
theorem leasesKept_of_inTurn (actions : List (Action κ (Shift κ)))
    (h : (publishing κ eligible).faultless.InTurn actions) :
    LeasesKept ((publishing κ eligible).faultless.world actions).history := by
  induction actions with
  | nil => trivial
  | cons action earlier ih =>
      have hkept := ih h.1
      obtain ⟨⟨others, hothers⟩, hfaithful⟩ := (publishing κ eligible).faultless_world earlier
      have hstep := (publishing κ eligible).faultless_within.step
        ((publishing κ eligible).faultless.world earlier) action
      have hresting := h.2
      change LeasesKept ((publishing κ eligible).faultless.step
        ((publishing κ eligible).faultless.world earlier) action).history
      rw [hothers] at hkept hfaithful hstep hresting ⊢
      rcases hstep with hidle | hstep
      · rw [hidle]
        exact hkept
      · rw [hstep]
        rcases (publishing κ eligible).step_history ((publishing κ eligible).world others) action with
          hsame | ⟨moment, hmakes, hmore, hnamed⟩
        · rw [hsame]
          exact hkept
        · rw [hmore]
          refine ⟨hkept, fun claiming hclaiming a b claimed ha hclaim hb hne _ _ => ?_⟩
          rcases held_or_settled others hfaithful hkept hclaiming ha hclaim with hheld | hsettled
          · obtain ⟨manner, haction⟩ := hnamed b hb
            have hnothing := hold_of_resting (hresting b.number manner haction a.number hne.symm)
            rw [← row?_phaseOf, hnothing] at hheld
            cases hheld
          · exact hsettled

end

end Courier
