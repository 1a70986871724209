import Courier.Proofs.Interleaving.Faultless
import Courier.Proofs.Publishing.Claims
/-
Deliveries.  As long as no claim is outlived, that is, as long as nobody changes a row past the
deadline of a claim that its holder has not settled, whoever holds a claim holds the row as it is.  So
a delivery is followed by its settlement and by nothing else, and a row is delivered once at most.
-/
namespace Courier

variable {κ τ ρ : Type}

def Call.delivers : (call : Call κ) → call.Answer → Bool
  | .publish _ _, answer => answer.isOk
  | .handle _, answer => answer.isOk
  | _, _ => false

theorem Call.isHandOver_of_delivers {call : Call κ} {answer : call.Answer}
    (h : call.delivers answer = true) : call.isHandOver = true := by
  cases call <;> first | rfl | cases h

def Moment.delivers (moment : Moment κ τ) : Bool :=
  moment.call.delivers moment.answer

/-- The claims that a bus or a handler has taken over, latest first. -/
def deliveries : List (Moment κ τ) → List Row
  | [] => []
  | moment :: past =>
      if moment.delivers then
        (moment.worker.bind fun worker => held worker.number past).toList ++ deliveries past
      else deliveries past

/-- A call settles a claim: it finds the row as it was claimed, and ends the claim. -/
def Moment.Settles (moment : Moment κ τ) (claimed : Row) : Prop :=
  moment.before.get? claimed.id = some claimed ∧
    ∃ after, moment.after.get? claimed.id = some after ∧ after.status ≠ .processing

/-- No claim is outlived: whoever changes a row at the deadline of somebody else's claim or later
finds that claim settled by its holder. -/
def LeasesKept : List (Moment κ (Shift κ)) → Prop
  | [] => True
  | moment :: past => LeasesKept past ∧
      ∀ claiming ∈ past, ∀ a b claimed, claiming.worker = some a →
        claiming.claim? claimed.id = some claimed → moment.worker = some b → b.number ≠ a.number →
        moment.after.get? claimed.id ≠ moment.before.get? claimed.id →
        claimed.nextAttemptAt ≤ b.task.now →
        ∃ settling ∈ past, settling.worker = some a ∧ settling.Settles claimed

/-- A worker changes a row that is due, or the one that it holds a claim of. -/
theorem Shift.Turn.due_or_held {shift : Shift κ} {phase : Phase} {row : Row} {change : Change}
    (h : shift.Turn phase row change) :
    row.nextAttemptAt ≤ shift.now ∨ phase.hold.row? = some row := by
  cases h with
  | claim hrow hdue hlook hcause => exact Or.inl (DueQuery.le_of_selects hdue)
  | takeOver hrow hdue hlook => exact Or.inl (DueQuery.le_of_selects hdue)
  | postpone hrow hdue hlook => exact Or.inl (DueQuery.le_of_selects hdue)
  | succeed clock hhold hlook =>
      rw [hhold]
      exact Or.inr rfl
  | fail reason clock hhold hlook => exact Or.inr (Hold.row?_of_undelivered hhold)
  | giveUp reason clock hhold hlook => exact Or.inr (Hold.row?_of_undelivered hhold)

/-- Only a settlement touches whether a claim at hand was handed over, apart from the hand-over
itself. -/
theorem Phase.hold_next (phase : Phase) (call : Call κ) (answer : call.Answer)
    (hswap : call.isSwap = false) (hover : call.isHandOver = false) :
    (phase.next call answer).hold = phase.hold := by
  cases call with
  | swap change => cases hswap
  | publish key envelope => cases hover
  | handle command => cases hover
  | due query =>
      cases answer with
      | error error => rfl
      | ok rows => rfl
  | outgoing id =>
      cases answer with
      | error error => rfl
      | ok statuses => rfl
  | _ => rfl

theorem Phase.hold_next_of_claimed {phase : Phase} {row : Row} (h : phase.hold = .claimed row)
    (call : Call κ) (answer : call.Answer) (hover : call.isHandOver = true) :
    (phase.next call answer).hold = .handed row (call.delivers answer) := by
  have hhanded : ∀ delivered, phase.hold.handOver delivered = .handed row delivered := by
    intro delivered
    rw [h]
    rfl
  cases call with
  | publish key envelope => exact hhanded _
  | handle command => exact hhanded _
  | _ => cases hover

/-- After a change no claim at hand was handed over yet. -/
theorem Phase.hold_next_swap (phase : Phase) (change : Change)
    (answer : (Call.swap change : Call κ).Answer) (row : Row) (delivered : Bool) :
    (phase.next (.swap change : Call κ) answer).hold ≠ .handed row delivered := by
  match answer with
  | .error error => nofun
  | .ok none => nofun
  | .ok (some found) =>
      change (if found.status = .processing then Hold.claimed found else Hold.nothing) ≠ _
      split
      · nofun
      · nofun

/-- A tick has handed a row over, and it was taken. -/
structure Moment.HandedOver (shift? : τ → Option (Shift κ)) (moment : Moment κ τ) (row : Row) :
    Prop where
  taken : moment.delivers = true
  hands : ∃ worker shift, moment.worker = some worker ∧ shift? worker.task = some shift ∧
    shift.HandsOver row moment.call

/-- A worker's claim is taken over by the call that is made, or it was before. -/
theorem Rules.Publishes.handed_cases {rules : Rules κ τ ρ} {shift? : τ → Option (Shift κ)}
    (h : rules.Publishes shift?) {earlier : List (Action κ τ)} {moment : Moment κ τ}
    (hmakes : rules.Makes (rules.world earlier) moment) {number : Nat} {row : Row}
    (hhold : (phaseOf number (moment :: (rules.world earlier).history)).hold = .handed row true) :
    (moment.HandedOver shift? row ∧ moment.isBy number = true ∧
      (phaseOf number (rules.world earlier).history).hold = .claimed row) ∨
    (phaseOf number (rules.world earlier).history).hold = .handed row true := by
  simp only [phaseOf] at hhold
  split at hhold
  · rename_i hby
    cases hover : moment.call.isHandOver with
    | true =>
        obtain ⟨worker, shift, claimed, hworker, hshift, hclaimed, hhands⟩ := h.hands_over hmakes hover
        obtain ⟨same, hsame, rfl⟩ := Moment.isBy_iff.1 hby
        obtain rfl := Option.some.inj (hworker.symm.trans hsame)
        rw [Phase.hold_next_of_claimed hclaimed _ _ hover] at hhold
        obtain ⟨rfl, htaken⟩ := Hold.handed.inj hhold
        exact Or.inl ⟨⟨htaken, worker, shift, hworker, hshift, hhands⟩, hby, hclaimed⟩
    | false =>
        cases hswap : moment.call.isSwap with
        | true =>
            obtain ⟨worker, call, answer, before, after⟩ := moment
            cases call with
            | swap change => exact absurd hhold (Phase.hold_next_swap _ change answer row true)
            | _ => cases hswap
        | false =>
            rw [Phase.hold_next _ _ _ hswap hover] at hhold
            exact Or.inr hhold
  · exact Or.inr hhold

section

variable {eligible : PublisherSettings → Bool} {earlier : List (Action κ (Shift κ))}
  {moment : Moment κ (Shift κ)}

/-- A claim that was settled is never the row again. -/
theorem outdated_of_settled (actions : List (Action κ (Shift κ))) {settling : Moment κ (Shift κ)}
    (hsettling : settling ∈ ((publishing κ eligible).world actions).history) {claimed : Row}
    (hclaimed : claimed.status = .processing) (hsettles : settling.Settles claimed) :
    ∃ row, ((publishing κ eligible).world actions).store.get? claimed.id = some row ∧
      claimed.version < row.version := by
  refine Rules.call_induction rfl (fun store _ history => ∀ settling ∈ history,
    settling.Settles claimed → ∃ row, store.get? claimed.id = some row ∧
      claimed.version < row.version) ?_ ?_ actions settling hsettling hsettles
  · intro settling hsettling
    cases hsettling
  · intro earlier moment ih hmakes settling hsettling hsettles
    rcases List.mem_cons.1 hsettling with rfl | hpast
    · obtain ⟨hbefore, row, hrow, hended⟩ := hsettles
      rw [hmakes.before] at hbefore
      obtain ⟨after, hafter, heq | ⟨_, _, _, heq⟩⟩ := World.get?_after hmakes hbefore
      · rw [hafter, heq] at hrow
        obtain rfl := Option.some.inj hrow
        exact absurd hclaimed hended
      · refine ⟨after, hafter, ?_⟩
        rw [heq]
        exact Int.lt_succ claimed.version
    · obtain ⟨row, hrow, hlt⟩ := ih settling hpast hsettles
      obtain ⟨after, hafter, heq | ⟨_, _, _, heq⟩⟩ := World.get?_after hmakes hrow
      · rw [heq] at hafter
        exact ⟨row, hafter, hlt⟩
      · refine ⟨after, hafter, Int.lt_trans hlt ?_⟩
        rw [heq]
        exact Int.lt_succ row.version

theorem held_processing {number : Nat} {history : List (Moment κ τ)} {row : Row}
    (h : held number history = some row) : row.status = .processing := by
  induction history with
  | nil => cases h
  | cons moment past ih =>
      rcases held_cons h with ⟨_, _, _, hstatus⟩ | ⟨hold, _⟩
      · exact hstatus
      · exact ih hold

/-- While no claim is outlived, nobody but the holder of a claim changes the row. -/
theorem changed_by_holder
    (hmakes : (publishing κ eligible).Makes ((publishing κ eligible).world earlier) moment)
    (hkept : LeasesKept (moment :: ((publishing κ eligible).world earlier).history)) {number : Nat}
    {row after : Row}
    (hheld : held number ((publishing κ eligible).world earlier).history = some row)
    (hrow : ((publishing κ eligible).world earlier).store.get? row.id = some row)
    (hafter : moment.after.get? row.id = some after) (hne : after ≠ row) :
    moment.isBy number = true ∧ moment.call.isSwap = true := by
  have hholders : Holders ((publishing κ eligible).world earlier).history :=
    publishing_holders earlier
  obtain ⟨same, hsame, heq | ⟨change, hcall, hfits, heq⟩⟩ := World.get?_after hmakes hrow
  · obtain rfl := Option.some.inj (hsame.symm.trans hafter)
    exact absurd heq hne
  · obtain ⟨worker, hworker, hturn⟩ := publishing_turn hmakes hcall (Store.mem_of_get? hrow).1 hfits
    refine ⟨?_, by rw [hcall]; rfl⟩
    by_cases hnumber : worker.number = number
    · exact Moment.isBy_iff.2 ⟨worker, hworker, hnumber⟩
    · exfalso
      rcases hturn.due_or_held with hdue | hhold
      · obtain ⟨claiming, hclaiming, holder, hholder, rfl, hclaim, _⟩ := hholders.won number row hheld
        have hchanged : moment.after.get? row.id ≠ moment.before.get? row.id := by
          rw [hmakes.before, hafter, hrow]
          exact fun hsame => hne (Option.some.inj hsame)
        obtain ⟨settling, hsettling, _, hsettles⟩ :=
          hkept.2 claiming hclaiming holder worker row hholder hclaim hworker hnumber hchanged hdue
        obtain ⟨current, hcurrent, hlt⟩ :=
          outdated_of_settled earlier hsettling (held_processing hheld) hsettles
        obtain rfl := Option.some.inj (hcurrent.symm.trans hrow)
        omega
      · rw [row?_phaseOf] at hhold
        exact hnumber (hholders.alone _ _ row hhold hheld)

/-- While no claim is outlived, whoever holds a claim holds the row as it is. -/
theorem held_current (actions : List (Action κ (Shift κ)))
    (hkept : LeasesKept ((publishing κ eligible).world actions).history) {number : Nat} {row : Row}
    (hheld : held number ((publishing κ eligible).world actions).history = some row) :
    ((publishing κ eligible).world actions).store.get? row.id = some row := by
  refine Rules.call_induction rfl (fun store _ history => LeasesKept history →
    ∀ number row, held number history = some row → store.get? row.id = some row) ?_ ?_ actions
    hkept number row hheld
  · intro _ number row hheld
    cases hheld
  · intro earlier moment ih hmakes hkept number row hheld
    rcases held_cons hheld with ⟨_, hswap, hshown, _⟩ | ⟨hold, hother⟩
    · exact (World.get?_of_shown hmakes hswap hshown).2.1
    · have hrow := ih hkept.1 number row hold
      obtain ⟨after, hafter, _⟩ := World.get?_after hmakes hrow
      by_cases hsame : after = row
      · rw [hsame] at hafter
        exact hafter
      · exact absurd (changed_by_holder hmakes hkept hold hrow hafter hsame) hother

theorem Hold.SettledBy.fits {hold : Hold} {change : Change} (h : hold.SettledBy change) {row : Row}
    (hrow : hold.row? = some row) : change.fits row = true ∧ change.status ≠ .processing := by
  cases hold with
  | nothing => cases hrow
  | claimed claimed =>
      obtain rfl := Option.some.inj hrow
      exact ⟨h.1, by simp [h.2]⟩
  | handed claimed delivered =>
      obtain rfl := Option.some.inj hrow
      refine ⟨h.1, ?_⟩
      rw [h.2]
      cases delivered
      · nofun
      · nofun

/-- While no claim is outlived, the next change that the holder of a claim makes settles it. -/
theorem settled_by_holder
    (hmakes : (publishing κ eligible).Makes ((publishing κ eligible).world earlier) moment)
    (hfaithful : moment.Faithful)
    (hkept : LeasesKept ((publishing κ eligible).world earlier).history) {worker : Worker (Shift κ)}
    (hworker : moment.worker = some worker) (hswap : moment.call.isSwap = true) {row : Row}
    (hheld : held worker.number ((publishing κ eligible).world earlier).history = some row) :
    ∃ change : Change, (phaseOf worker.number
        ((publishing κ eligible).world earlier).history).hold.SettledBy change ∧
      change.status ≠ .processing ∧ moment.after.get? row.id = some (row.apply change) := by
  obtain ⟨change, hcall⟩ : ∃ change, moment.call = .swap change := by
    cases hcall : moment.call with
    | swap change => exact ⟨change, rfl⟩
    | _ => simp [hcall, Call.isSwap] at hswap
  have hsettled := publishing_settles hmakes hworker hcall
  obtain ⟨hfits, hended⟩ := hsettled.fits ((row?_phaseOf _ _).trans hheld)
  have hid : change.id = row.id := (Change.id_of_fits hfits).symm
  have hbefore : moment.before.get? change.id = some row := by
    rw [hmakes.before, hid]
    exact held_current earlier hkept hheld
  have hshown : row.apply change ∈ moment.shown := by
    rw [(hfaithful.changed hcall hbefore hfits).2]
    exact List.mem_singleton_self _
  exact ⟨change, hsettled, hended, (World.get?_of_shown hmakes hswap hshown).2.1⟩

/-- What the deliveries so far tell of the rows and of the workers that hold them. -/
structure Delivered (store : Store) (history : List (Moment κ (Shift κ))) : Prop where
  once : ((deliveries history).map (·.id)).Nodup
  settled : ∀ row ∈ deliveries history,
    (∃ after, store.get? row.id = some after ∧ after.status = .processed) ∨
      ∃ number, (phaseOf number history).hold = .handed row true
  processed : ∀ row ∈ store.rows, row.status = .processed →
    ∃ delivered ∈ deliveries history, delivered.id = row.id
  handed : ∀ number row, (phaseOf number history).hold = .handed row true → row ∈ deliveries history

theorem held_of_handed {number : Nat} {history : List (Moment κ τ)} {row : Row} {delivered : Bool}
    (h : (phaseOf number history).hold = .handed row delivered) : held number history = some row := by
  rw [← row?_phaseOf, h]
  rfl

/-- A hand-over delivers the claim at hand, or it changes nothing. -/
theorem deliveries_of_handOver
    (hmakes : (publishing κ eligible).Makes ((publishing κ eligible).world earlier) moment)
    (hover : moment.call.isHandOver = true) :
    ∃ worker claimed, moment.worker = some worker ∧
      (phaseOf worker.number ((publishing κ eligible).world earlier).history).hold =
        .claimed claimed ∧
      deliveries (moment :: ((publishing κ eligible).world earlier).history) =
        if moment.delivers then claimed :: deliveries ((publishing κ eligible).world earlier).history
        else deliveries ((publishing κ eligible).world earlier).history := by
  obtain ⟨worker, claimed, hworker, hhold, _⟩ := publishing_hands_over hmakes hover
  refine ⟨worker, claimed, hworker, hhold, ?_⟩
  simp [deliveries, hworker, held_of_hold hhold]

theorem deliveries_of_other {past : List (Moment κ τ)} {moment : Moment κ τ}
    (hother : moment.call.isHandOver = false) : deliveries (moment :: past) = deliveries past := by
  have hnone : moment.delivers = false := by
    cases hdelivers : moment.delivers with
    | false => rfl
    | true => rw [Call.isHandOver_of_delivers hdelivers] at hother; cases hother
  simp [deliveries, hnone]

namespace Delivered

variable (h : Delivered ((publishing κ eligible).world earlier).store
    ((publishing κ eligible).world earlier).history)

include h

/-- What is about to be handed over was not delivered before. -/
theorem not_delivered (hkept : LeasesKept ((publishing κ eligible).world earlier).history)
    {number : Nat} {claimed : Row}
    (hhold : (phaseOf number ((publishing κ eligible).world earlier).history).hold =
      .claimed claimed) :
    claimed.id ∉ (deliveries ((publishing κ eligible).world earlier).history).map (·.id) := by
  intro hmem
  obtain ⟨row, hrow, hid⟩ := List.mem_map.1 hmem
  have hcurrent := held_current earlier hkept (held_of_hold hhold)
  rcases h.settled row hrow with ⟨after, hafter, hstatus⟩ | ⟨other, hother⟩
  · rw [hid] at hafter
    obtain rfl := Option.some.inj (hafter.symm.trans hcurrent)
    rw [held_processing (held_of_hold hhold)] at hstatus
    cases hstatus
  · have hsame := held_current earlier hkept (held_of_handed hother)
    rw [hid] at hsame
    obtain rfl := Option.some.inj (hsame.symm.trans hcurrent)
    have halone := (publishing_holders earlier).alone _ _ row (held_of_handed hother)
      (held_of_hold hhold)
    rw [halone, hhold] at hother
    cases hother

variable (hmakes : (publishing κ eligible).Makes ((publishing κ eligible).world earlier) moment)

include hmakes

/-- Only what was delivered becomes processed. -/
theorem processed_after {row : Row} (hrow : row ∈ moment.after.rows)
    (hstatus : row.status = .processed) :
    ∃ delivered ∈ deliveries ((publishing κ eligible).world earlier).history,
      delivered.id = row.id := by
  have hdistinct : DistinctNumbers moment.after.rows := hmakes.sound_after.committed_distinct
  have hfound := (Store.get?_eq_some_iff hdistinct).2 ⟨hrow, rfl⟩
  cases publishing_fate hmakes row.id with
  | absent _ hafter =>
      rw [hafter] at hfound
      cases hfound
  | committed draft now _ hafter =>
      rw [← Option.some.inj (hafter.symm.trans hfound)] at hstatus
      cases hstatus
  | kept before hbefore hafter =>
      obtain rfl := Option.some.inj (hafter.symm.trans hfound)
      exact h.processed before (Store.mem_of_get? hbefore).1 hstatus
  | turned before after worker hbefore hafter hsame _ _ houtcome =>
      obtain rfl := Option.some.inj (hafter.symm.trans hfound)
      exact ⟨before, h.handed _ before (houtcome.of_processed hstatus), hsame.id.symm⟩

/-- A delivered row is processed for good, or it is settled as processed by its holder. -/
theorem settled_after (hfaithful : moment.Faithful)
    (hkept : LeasesKept ((publishing κ eligible).world earlier).history) {row : Row}
    (hrow : row ∈ deliveries ((publishing κ eligible).world earlier).history) :
    (∃ after, moment.after.get? row.id = some after ∧ after.status = .processed) ∨
      ∃ number, (phaseOf number
        (moment :: ((publishing κ eligible).world earlier).history)).hold = .handed row true := by
  rcases h.settled row hrow with ⟨before, hbefore, hstatus⟩ | ⟨number, hhold⟩
  · obtain ⟨after, hafter, hturns⟩ := publishing_orderly.turns hmakes hbefore
    have hterminal : before.isTerminal = true := by simp [hstatus]
    rw [hturns.eq_of_terminal hterminal] at hafter
    exact Or.inl ⟨before, hafter, hstatus⟩
  · by_cases hby : moment.isBy number = true
    · obtain ⟨worker, hworker, rfl⟩ := Moment.isBy_iff.1 hby
      by_cases hover : moment.call.isHandOver = true
      · obtain ⟨other, claimed, hother, hclaimed, _⟩ := publishing_hands_over hmakes hover
        obtain rfl := Option.some.inj (hworker.symm.trans hother)
        rw [hhold] at hclaimed
        cases hclaimed
      · cases hswap : moment.call.isSwap with
        | true =>
            obtain ⟨change, hsettled, _, hafter⟩ := settled_by_holder hmakes hfaithful hkept hworker
              hswap (held_of_handed hhold)
            rw [hhold] at hsettled
            exact Or.inl ⟨row.apply change, hafter, hsettled.2⟩
        | false =>
            refine Or.inr ⟨worker.number, ?_⟩
            rw [phaseOf_cons_by hby, Phase.hold_next _ _ _ hswap (by simpa using hover)]
            exact hhold
    · refine Or.inr ⟨number, ?_⟩
      rw [phaseOf_cons_other (Bool.not_eq_true _ ▸ hby)]
      exact hhold

theorem handed_after {number : Nat} {row : Row}
    (hhold : (phaseOf number
      (moment :: ((publishing κ eligible).world earlier).history)).hold = .handed row true) :
    row ∈ deliveries (moment :: ((publishing κ eligible).world earlier).history) := by
  have hkept : row ∈ deliveries ((publishing κ eligible).world earlier).history →
      row ∈ deliveries (moment :: ((publishing κ eligible).world earlier).history) := by
    intro hrow
    rw [deliveries]
    split
    · exact List.mem_append_right _ hrow
    · exact hrow
  rcases publishing_publishes.handed_cases hmakes hhold with ⟨hhanded, hby, hclaimed⟩ | hbefore
  · obtain ⟨worker, hworker, rfl⟩ := Moment.isBy_iff.1 hby
    simp [deliveries, hhanded.taken, hworker, held_of_hold hclaimed]
  · exact hkept (h.handed number row hbefore)

theorem step (hfaithful : moment.Faithful)
    (hkept : LeasesKept ((publishing κ eligible).world earlier).history) :
    Delivered moment.after (moment :: ((publishing κ eligible).world earlier).history) := by
  have hsettled : ∀ row ∈ deliveries ((publishing κ eligible).world earlier).history,
      (∃ after, moment.after.get? row.id = some after ∧ after.status = .processed) ∨
        ∃ number, (phaseOf number
          (moment :: ((publishing κ eligible).world earlier).history)).hold = .handed row true :=
    fun row hrow => h.settled_after hmakes hfaithful hkept hrow
  cases hover : moment.call.isHandOver with
  | true =>
      obtain ⟨worker, claimed, hworker, hclaimed, hmore⟩ := deliveries_of_handOver hmakes hover
      have hby : moment.isBy worker.number = true := Moment.isBy_iff.2 ⟨worker, hworker, rfl⟩
      have hnew : ∀ row ∈ deliveries (moment :: ((publishing κ eligible).world earlier).history),
          row ∈ deliveries ((publishing κ eligible).world earlier).history ∨
            row = claimed ∧ moment.delivers = true := by
        intro row hrow
        rw [hmore] at hrow
        split at hrow
        · exact (List.mem_cons.1 hrow).symm.imp id fun heq => ⟨heq, ‹_›⟩
        · exact Or.inl hrow
      constructor
      · rw [hmore]
        split
        · exact List.nodup_cons.2 ⟨h.not_delivered hkept hclaimed, h.once⟩
        · exact h.once
      · intro row hrow
        rcases hnew row hrow with hold | ⟨rfl, hdelivers⟩
        · exact hsettled row hold
        · refine Or.inr ⟨worker.number, ?_⟩
          rw [phaseOf_cons_by hby, Phase.hold_next_of_claimed hclaimed _ _ hover]
          exact congrArg (Hold.handed row) hdelivers
      · intro row hrow hstatus
        obtain ⟨delivered, hmem, hid⟩ := h.processed_after hmakes hrow hstatus
        refine ⟨delivered, ?_, hid⟩
        rw [hmore]
        split
        · exact List.mem_cons_of_mem _ hmem
        · exact hmem
      · exact fun number row hhold => h.handed_after hmakes hhold
  | false =>
      have hsame : deliveries (moment :: ((publishing κ eligible).world earlier).history) =
          deliveries ((publishing κ eligible).world earlier).history := deliveries_of_other hover
      constructor
      · rw [hsame]
        exact h.once
      · rw [hsame]
        exact hsettled
      · rw [hsame]
        exact fun row hrow hstatus => h.processed_after hmakes hrow hstatus
      · exact fun number row hhold => h.handed_after hmakes hhold

end Delivered

theorem publishing_delivered (actions : List (Action κ (Shift κ)))
    (hfaithful : ∀ moment ∈ ((publishing κ eligible).world actions).history, moment.Faithful)
    (hkept : LeasesKept ((publishing κ eligible).world actions).history) :
    Delivered ((publishing κ eligible).world actions).store
      ((publishing κ eligible).world actions).history := by
  refine Rules.call_induction rfl (fun store _ history =>
    (∀ moment ∈ history, moment.Faithful) → LeasesKept history → Delivered store history) ?_ ?_
    actions hfaithful hkept
  · intro _ _
    constructor
    · exact List.nodup_nil
    · intro row hrow
      cases hrow
    · intro row hrow
      cases hrow
    · intro number row hhold
      cases hhold
  · intro earlier moment ih hmakes hfaithful hkept
    obtain ⟨hnow, hpast⟩ := List.forall_mem_cons.1 hfaithful
    exact (ih hpast hkept.1).step hmakes hnow hkept.1

end

end Courier
