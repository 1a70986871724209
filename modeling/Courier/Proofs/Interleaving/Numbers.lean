import Courier.Proofs.Interleaving.Transactions
/-
The numbers of rows.  A row gets its number when it is staged, and nobody is given that number again,
neither after the transaction has been dropped nor after the store has been cleared.  Under this
number the row is committed, beside the rows that are there.
-/
namespace Courier

variable {κ τ ρ : Type}

def Ascending (rows : List Row) : Prop :=
  rows.Pairwise fun a b => a.id < b.id

namespace Store

theorem mem_putRow {row other : Row} {rows : List Row} (h : other ∈ putRow row rows) :
    other = row ∨ other ∈ rows := by
  induction rows with
  | nil => exact Or.inl (List.mem_singleton.1 h)
  | cons head rest ih =>
      simp only [putRow] at h
      split at h
      · exact List.mem_cons.1 h
      · split at h
        · exact (List.mem_cons.1 h).imp_right (List.mem_cons_of_mem head)
        · rcases List.mem_cons.1 h with rfl | hrest
          · exact Or.inr List.mem_cons_self
          · exact (ih hrest).imp_right (List.mem_cons_of_mem head)

theorem ascending_putRow {rows : List Row} (h : Ascending rows) (row : Row) :
    Ascending (putRow row rows) := by
  induction rows with
  | nil => exact List.pairwise_singleton _ row
  | cons head rest ih =>
      obtain ⟨hhead, hrest⟩ := List.pairwise_cons.1 h
      simp only [putRow]
      split
      · rename_i hbelow
        refine List.pairwise_cons.2 ⟨fun other hother => ?_, h⟩
        rcases List.mem_cons.1 hother with rfl | hlater
        · exact hbelow
        · exact Int.lt_trans hbelow (hhead other hlater)
      · rename_i hnot
        split
        · rename_i hsame
          refine List.pairwise_cons.2 ⟨fun other hother => ?_, hrest⟩
          rw [← hsame]
          exact hhead other hother
        · rename_i hother
          have habove : head.id < row.id := by
            have hle : head.id.value ≤ row.id.value := Int.not_lt.1 hnot
            have hne : head.id.value ≠ row.id.value := fun heq => hother (congrArg RowId.mk heq)
            exact Int.lt_iff_le_and_ne.2 ⟨hle, hne⟩
          refine List.pairwise_cons.2 ⟨fun other hother => ?_, ih hrest⟩
          rcases mem_putRow hother with rfl | hlater
          · exact habove
          · exact hhead other hlater

theorem ascending_foldl_putRow {rows : List Row} (h : Ascending rows) (staged : List Row) :
    Ascending (staged.foldl (fun rows row => putRow row rows) rows) := by
  induction staged generalizing rows with
  | nil => exact h
  | cons row rest ih => exact ih (ascending_putRow h row)

theorem ascending_changeRow {rows : List Row} (h : Ascending rows) (changed : Row) :
    Ascending (changeRow rows changed) := by
  have hids : (rows.map (·.id)).Pairwise (· < ·) := List.pairwise_map.2 h
  rw [← map_id_changeRow rows changed] at hids
  exact List.pairwise_map.1 hids

end Store

def Call.issue? : (call : Call κ) → call.Answer → Option RowId
  | .stage _ _, Except.ok (_, row) => some row.id
  | _, _ => none

def Moment.issue? (moment : Moment κ τ) : Option RowId :=
  moment.call.issue? moment.answer

abbrev issuedIn (history : List (Moment κ τ)) : List RowId :=
  history.filterMap Moment.issue?

/-- A row that is staged after a call was staged before, or the call has handed out its number. -/
theorem Call.Plausible.staged_or_issued {call : Call κ} {answer : call.Answer}
    (h : call.Plausible answer) {opened : List Transaction}
    (hopen : ∀ tx, call.transaction? = some tx → tx ∈ opened) {row : Row}
    (hrow : row ∈ stagedRows (call.leaves opened answer)) :
    row ∈ stagedRows opened ∨ call.issue? answer = some row.id := by
  have herase : ∀ {tx : Transaction}, row ∈ stagedRows (opened.erase tx) → row ∈ stagedRows opened := by
    intro tx hin
    obtain ⟨other, hother, hmem⟩ := List.mem_flatMap.1 hin
    exact List.mem_flatMap.2 ⟨other, List.mem_of_mem_erase hother, hmem⟩
  cases call with
  | begin =>
      match answer with
      | .error error => exact Or.inl hrow
      | .ok tx =>
          obtain rfl : tx = Transaction.empty := h
          exact Or.inl hrow
  | stage tx draft =>
      match answer with
      | .error error => exact Or.inl hrow
      | .ok (written, staged) =>
          obtain ⟨_, rfl⟩ := h
          rcases List.mem_append.1 hrow with hwritten | hold
          · rcases List.mem_append.1 hwritten with hbefore | hnew
            · exact Or.inl (List.mem_flatMap.2 ⟨tx, hopen tx rfl, hbefore⟩)
            · obtain rfl := List.mem_singleton.1 hnew
              exact Or.inr rfl
          · exact Or.inl (herase hold)
  | saveDocument tx collection key body expected =>
      match answer with
      | .error error => exact Or.inl hrow
      | .ok (written, saved) =>
          obtain ⟨_, rfl⟩ := h
          rcases List.mem_append.1 hrow with hwritten | hold
          · exact Or.inl (List.mem_flatMap.2 ⟨tx, hopen tx rfl, hwritten⟩)
          · exact Or.inl (herase hold)
  | commit tx => exact Or.inl (herase hrow)
  | _ => exact Or.inl hrow

namespace Rules

variable {rules : Rules κ τ ρ} {earlier : List (Action κ τ)} {world : World κ τ ρ}
  {moment : Moment κ τ}

/-- The number that a call hands out is the next one. -/
theorem Makes.issue_next (h : rules.Makes world moment) {id : RowId} (hissue : moment.issue? = some id) :
    id = ⟨world.store.issued + 1⟩ ∧ moment.after.issued = world.store.issued + 1 := by
  obtain ⟨worker, call, manner, rfl⟩ := h.made
  cases call with
  | stage tx draft =>
      unfold Moment.issue? at hissue
      generalize hanswer : (world.moment worker (.stage tx draft) manner).answer = answer at hissue
      match answer with
      | .error error => cases hissue
      | .ok (written, row) =>
          obtain rfl := Option.some.inj hissue
          have hdone := Manner.onStore_eq_of_ok hanswer
          have hafter : (world.moment worker (.stage tx draft) manner).after =
              (world.store.stage tx draft manner.clock).1 := congrArg Prod.snd hdone
          have hrow := (congrArg Prod.fst hdone).symm.trans hanswer
          rcases world.store.stage_cases tx draft manner.clock with ⟨error, hstage⟩ | hstage
          · rw [hstage] at hrow
            cases hrow
          · rw [hstage] at hrow hafter
            obtain ⟨_, rfl⟩ := Prod.mk.inj (Except.ok.inj hrow)
            exact ⟨rfl, congrArg Store.issued hafter⟩
  | _ => cases hissue

/-- Numbers that were handed out stay handed out. -/
theorem Makes.issued_le (h : rules.Makes world moment) :
    world.store.issued ≤ moment.after.issued := by
  rw [← h.before]
  cases h.effect with
  | quiet hstore _ _ => exact Nat.le_of_eq (congrArg Store.issued hstore).symm
  | changed change row _ _ _ hafter _ _ => exact Nat.le_of_eq (congrArg Store.issued hafter).symm
  | staged draft now hafter _ _ =>
      rw [hafter]
      exact Nat.le_succ _
  | committed tx _ hcommit _ _ _ => exact Nat.le_of_eq (Store.commit_rows hcommit).2.symm

theorem Makes.ascending_after (h : rules.Makes world moment) (hbefore : Ascending world.store.rows) :
    Ascending moment.after.rows := by
  rw [← h.before] at hbefore
  cases h.effect with
  | quiet hstore _ _ =>
      rw [hstore]
      exact hbefore
  | changed change row _ _ _ hafter _ _ =>
      rw [hafter]
      exact Store.ascending_changeRow hbefore (row.apply change)
  | staged draft now hafter _ _ =>
      rw [hafter]
      exact hbefore
  | committed tx _ hcommit _ _ _ =>
      rw [(Store.commit_rows hcommit).1]
      exact Store.ascending_foldl_putRow hbefore tx.rows

end Rules

/-- What a commit does to the committed rows.  It leaves every one of them as it was.  The rows of its
transaction get places that were free, all of them or none. -/
structure Moment.Beside (moment : Moment κ τ) (tx : Transaction) : Prop where
  kept : ∀ row ∈ moment.before.rows, moment.after.get? row.id = some row
  free : ∀ row ∈ tx.rows, moment.before.get? row.id = none
  added : moment.after.rows = moment.before.rows ∨
    moment.after.rows.Perm (moment.before.rows ++ tx.rows)

theorem Rules.Makes.beside {rules : Rules κ τ ρ} {earlier : List (Action κ τ)} {moment : Moment κ τ}
    (h : rules.Makes (rules.world earlier) moment) {tx : Transaction}
    (hcall : moment.call = .commit tx) : moment.Beside tx := by
  have hsound := World.sound rules earlier
  have hopen : tx ∈ (rules.world earlier).transactions :=
    (rules.world earlier).tx_mem_of_mayCall h.may (by rw [hcall]; rfl)
  constructor
  · intro row hrow
    rw [h.before] at hrow
    have hthere := (Store.get?_eq_some_iff hsound.committed_distinct).2 ⟨hrow, rfl⟩
    obtain ⟨after, hafter, rfl | ⟨change, hswap, _⟩⟩ := World.get?_after h hthere
    · exact hafter
    · rw [hcall] at hswap
      cases hswap
  · intro row hrow
    rw [h.before, Store.get?_eq_none_iff]
    intro other hother
    have hstaged : row ∈ stagedRows (rules.world earlier).transactions :=
      List.mem_flatMap.2 ⟨tx, hopen, hrow⟩
    exact (List.pairwise_append.1 hsound.distinct).2.2 other hother row hstaged
  · rw [h.before]
    cases h.effect with
    | quiet hstore _ _ =>
        rw [hstore, h.before]
        exact Or.inl rfl
    | changed change row hswap _ _ _ _ _ =>
        rw [hcall] at hswap
        cases hswap
    | staged draft now hafter _ _ =>
        rw [hafter, h.before]
        exact Or.inl rfl
    | committed other hother hcommit _ _ hsame =>
        obtain rfl := Call.commit.inj (hcall.symm.trans hsame)
        rw [h.before] at hcommit
        exact Or.inr (hsound.committed_perm hother hcommit)

/-- What numbers and messages tell rows apart by. -/
structure World.Numbered (world : World κ τ ρ) : Prop where
  /-- A committed row is found under its own number. -/
  own : ∀ row ∈ world.store.rows, world.store.get? row.id = some row
  ascending : Ascending world.store.rows
  /-- No message is committed twice for one way of delivery, -/
  unrepeated : ∀ a ∈ world.store.rows, ∀ b ∈ world.store.rows,
    a.messageId = b.messageId → a.delivery = b.delivery → a = b
  /-- nor is it staged twice in one transaction. -/
  staged : ∀ tx ∈ world.transactions, (tx.rows.map Row.slot).Nodup
  /-- No number is given twice, -/
  issued : (issuedIn world.history).Nodup
  /-- and every row has one that it was given. -/
  given : ∀ row ∈ world.rows, row.id ∈ issuedIn world.history
  apart : DistinctNumbers world.rows
  beside : ∀ moment ∈ world.history, ∀ tx, moment.call = .commit tx → moment.Beside tx

namespace World

variable {rules : Rules κ τ ρ}

theorem ascending (rules : Rules κ τ ρ) (actions : List (Action κ τ)) :
    Ascending (rules.world actions).store.rows := by
  refine Rules.store_induction (fun store _ _ => Ascending store.rows) ?_ ?_ ?_ actions
  · exact List.Pairwise.nil
  · intro earlier moment h hmakes
    exact hmakes.ascending_after h
  · intro _ store transactions history _
    exact List.Pairwise.nil

/-- The numbers that were handed out are distinct and the counter has passed them all: each was the
next one when its turn came. -/
theorem issuedIn_counted (rules : Rules κ τ ρ) (actions : List (Action κ τ)) :
    (issuedIn (rules.world actions).history).Nodup ∧
      ∀ id ∈ issuedIn (rules.world actions).history, id.value ≤ (rules.world actions).store.issued := by
  refine Rules.store_induction (fun store _ history =>
    (issuedIn history).Nodup ∧ ∀ id ∈ issuedIn history, id.value ≤ store.issued) ?_ ?_ ?_ actions
  · refine ⟨List.nodup_nil, ?_⟩
    intro id hid
    cases hid
  · intro earlier moment ⟨hnodup, hbelow⟩ hmakes
    cases hissue : moment.issue? with
    | none =>
        rw [issuedIn, List.filterMap_cons_none hissue]
        refine ⟨hnodup, fun id hid => ?_⟩
        have hle := hbelow id hid
        have hmore := hmakes.issued_le
        omega
    | some next =>
        obtain ⟨rfl, hafter⟩ := hmakes.issue_next hissue
        rw [issuedIn, List.filterMap_cons_some hissue, hafter]
        constructor
        · refine List.nodup_cons.2 ⟨fun hold => ?_, hnodup⟩
          have hle := hbelow _ hold
          simp only at hle
          omega
        · intro id hid
          rcases List.mem_cons.1 hid with rfl | hold
          · exact Int.le_refl _
          · have hle := hbelow id hold
            omega
  · intro _ store transactions history h
    exact h

theorem issued_of_mem (rules : Rules κ τ ρ) (actions : List (Action κ τ)) :
    ∀ row ∈ (rules.world actions).rows, row.id ∈ issuedIn (rules.world actions).history := by
  refine Rules.store_induction (fun store transactions history =>
    ∀ row ∈ store.rows ++ stagedRows transactions, row.id ∈ issuedIn history) ?_ ?_ ?_ actions
  · intro row hrow
    cases hrow
  · intro earlier moment h hmakes row hrow
    have hold : row.id ∈ issuedIn (rules.world earlier).history →
        row.id ∈ issuedIn (moment :: (rules.world earlier).history) :=
      fun hmem => (List.Sublist.filterMap Moment.issue? (List.sublist_cons_self _ _)).subset hmem
    rcases List.mem_append.1 hrow with hcommitted | hstaged
    · rcases (sound rules earlier).row_before hmakes.before hmakes.effect hcommitted with
        hthere | hpending | ⟨change, before, hthere, _, _, rfl⟩
      · exact hold (h row (List.mem_append_left _ hthere))
      · exact hold (h row (List.mem_append_right _ hpending))
      · exact hold (h before (List.mem_append_left _ hthere))
    · have hopen : ∀ tx, moment.call.transaction? = some tx →
          tx ∈ (rules.world earlier).transactions :=
        fun tx htx => (rules.world earlier).tx_mem_of_mayCall hmakes.may htx
      rcases hmakes.plausible.staged_or_issued hopen hstaged with hpending | hissue
      · exact hold (h row (List.mem_append_right _ hpending))
      · exact List.mem_filterMap.2 ⟨moment, List.mem_cons_self, hissue⟩
  · intro _ store transactions history h row hrow
    exact h row (List.mem_append_right _ hrow)

theorem beside (rules : Rules κ τ ρ) (actions : List (Action κ τ)) :
    ∀ moment ∈ (rules.world actions).history, ∀ tx, moment.call = .commit tx →
      moment.Beside tx := by
  refine Rules.history_induction (fun _ history => ∀ moment ∈ history, ∀ tx,
    moment.call = .commit tx → moment.Beside tx) ?_ ?_ actions
  · intro moment hmoment
    cases hmoment
  · intro earlier latest h hmakes moment hmoment tx hcall
    rcases List.mem_cons.1 hmoment with rfl | hold
    · exact hmakes.beside hcall
    · exact h moment hold tx hcall

end World

/-- Whatever is done to a store by however many clients, and whenever it is cleared: its rows keep
their numbers to themselves, and no message is there twice for one way of delivery. -/
theorem rows_numbered (rules : Rules κ τ ρ) (actions : List (Action κ τ)) :
    (rules.world actions).Numbered where
  own _ hrow :=
    (Store.get?_eq_some_iff (World.sound rules actions).committed_distinct).2 ⟨hrow, rfl⟩
  ascending := World.ascending rules actions
  unrepeated _ ha _ hb hmessage hdelivery :=
    (World.unrepeated rules actions).eq_of_slot_eq ha hb hmessage hdelivery
  staged := (World.unrepeated rules actions).staged
  issued := (World.issuedIn_counted rules actions).1
  given := World.issued_of_mem rules actions
  apart := (World.sound rules actions).distinct
  beside := World.beside rules actions

end Courier
