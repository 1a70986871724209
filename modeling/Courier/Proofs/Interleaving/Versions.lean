import Courier.Proofs.Custody.Moves
import Courier.Proofs.Interleaving.Transactions
/-
Versions of rows.  Whatever rows are there or were handed out under one number, they are versions of
one message: no call touches its identity, its lineage or its data.
-/
namespace Courier

variable {κ τ ρ : Type}

def Row.original (row : Row) : Row :=
  Row.fresh row.id row.draft row.createdAt

theorem Row.sameMessage_iff {row other : Row} :
    row.SameMessage other ↔ other.original = row.original := by
  constructor
  · rintro ⟨hid, hmessage, htype, hdata, hdelivery, hcreated, hcorrelation, hcausation⟩
    simp only [original, draft, hid, hmessage, htype, hdata, hdelivery, hcreated, hcorrelation, hcausation]
  · intro h
    have hfields := congrArg (fun row : Row => (row.id, row.createdAt, row.draft)) h
    simp only [original, Row.fresh, draft, Prod.mk.injEq, Draft.mk.injEq] at hfields
    obtain ⟨hid, hcreated, hmessage, htype, hdata, hdelivery, hcorrelation, hcausation⟩ := hfields
    exact ⟨hid, hmessage, htype, hdata, hdelivery, hcreated, hcorrelation, hcausation⟩

theorem Row.SameMessage.trans {row middle other : Row} (h : row.SameMessage middle)
    (hother : middle.SameMessage other) : row.SameMessage other :=
  sameMessage_iff.2 ((sameMessage_iff.1 hother).trans (sameMessage_iff.1 h))

/-- Rows under one number are versions of one message. -/
def OneMessageEach (rows : List Row) : Prop :=
  ∀ a ∈ rows, ∀ b ∈ rows, a.id = b.id → a.original = b.original

namespace OneMessageEach

variable {rows more : List Row}

/-- Other versions of what was there. -/
theorem of_versions (h : OneMessageEach rows)
    (hmore : ∀ row ∈ more, ∃ old ∈ rows, old.original = row.original) : OneMessageEach more := by
  intro a ha b hb hid
  obtain ⟨first, hfirst, haold⟩ := hmore a ha
  obtain ⟨second, hsecond, hbold⟩ := hmore b hb
  have hnumbers : first.id = second.id :=
    (congrArg Row.id haold).trans (hid.trans (congrArg Row.id hbold).symm)
  rw [← haold, ← hbold]
  exact h first hfirst second hsecond hnumbers

/-- A row under a new number, and versions of what was there. -/
theorem of_fresh (h : OneMessageEach rows) (fresh : Row) (hnew : ∀ row ∈ rows, row.id ≠ fresh.id)
    (hmore : ∀ row ∈ more, row = fresh ∨ row ∈ rows) : OneMessageEach more := by
  intro a ha b hb hid
  rcases hmore a ha with rfl | haold
  · rcases hmore b hb with rfl | hbold
    · rfl
    · exact absurd hid.symm (hnew b hbold)
  · rcases hmore b hb with rfl | hbold
    · exact absurd hid (hnew a haold)
    · exact h a haold b hbold hid

end OneMessageEach

namespace World

def known (world : World κ τ ρ) : List Row :=
  world.rows ++ world.handedOut

theorem mem_known {world : World κ τ ρ} {row : Row} :
    row ∈ world.known ↔ row ∈ world.store.rows ∨ row ∈ world.staged ∨ row ∈ world.handedOut := by
  simp [known, rows]

theorem known_of_committed {world : World κ τ ρ} {row : Row} (h : row ∈ world.store.rows) :
    row ∈ world.known :=
  mem_known.2 (Or.inl h)

theorem known_of_staged {world : World κ τ ρ} {row : Row}
    (h : row ∈ stagedRows world.transactions) : row ∈ world.known :=
  mem_known.2 (Or.inr (Or.inl h))

theorem known_record {world : World κ τ ρ} {moment : Moment κ τ} {row : Row}
    (h : row ∈ (world.record moment).known) :
    row ∈ moment.after.rows ∨ row ∈ stagedRows (moment.call.leaves world.transactions moment.answer) ∨
      row ∈ moment.shown ∨ row ∈ world.known := by
  rcases mem_known.1 h with hcommitted | hstaged | hseen
  · exact Or.inl hcommitted
  · exact Or.inr (Or.inl hstaged)
  · refine Or.inr (Or.inr ((mem_handedOut_record.1 hseen).imp id fun hold => ?_))
    exact mem_known.2 (Or.inr (Or.inr hold))

theorem Sound.known_issued {world : World κ τ ρ} (h : world.Sound) {row : Row}
    (hrow : row ∈ world.known) : row.id.value ≤ world.store.issued := by
  rcases List.mem_append.1 hrow with hthere | hseen
  · exact h.issued row hthere
  · exact h.seen_issued row hseen

/-- A call shows, stages and commits versions of what is known, or a row under a new number. -/
theorem Sound.one_message_each {world : World κ τ ρ} (h : world.Sound) {moment : Moment κ τ}
    (hbefore : moment.before = world.store) (heffect : moment.Effect world.transactions)
    (hknown : OneMessageEach world.known) : OneMessageEach (world.record moment).known := by
  cases heffect with
  | quiet hstore hshown hfewer =>
      rw [hbefore] at hstore hshown
      refine hknown.of_versions fun row hrow => ⟨row, ?_, rfl⟩
      rcases known_record hrow with hafter | hopen | hnow | hold
      · exact known_of_committed (hstore ▸ hafter)
      · exact known_of_staged (hfewer.subset hopen)
      · exact known_of_committed (hshown row hnow)
      · exact hold
  | changed change old hcall hold hfits hafter hshown hleaves =>
      rw [hbefore] at hold hafter
      have hmem := (Store.mem_of_get? hold).1
      have hthere : ∃ r ∈ world.store.rows, r.id = (old.apply change).id := ⟨old, hmem, rfl⟩
      have hversion : ∃ r ∈ world.known, r.original = (old.apply change).original :=
        ⟨old, known_of_committed hmem, rfl⟩
      refine hknown.of_versions fun row hrow => ?_
      rcases known_record hrow with hchanged | hopen | hnow | hthen
      · rw [hafter] at hchanged
        rcases (Store.mem_changeRow hthere).1 hchanged with rfl | ⟨hsame, _⟩
        · exact hversion
        · exact ⟨row, known_of_committed hsame, rfl⟩
      · rw [hleaves] at hopen
        exact ⟨row, known_of_staged hopen, rfl⟩
      · rw [hshown row hnow]
        exact hversion
      · exact ⟨row, hthen, rfl⟩
  | staged draft now hafter hshown hmore =>
      rw [hbefore] at hafter hshown hmore
      refine hknown.of_fresh (Row.fresh ⟨world.store.issued + 1⟩ draft now) ?_ fun row hrow => ?_
      · intro row hrow hid
        have hle := h.known_issued hrow
        rw [hid] at hle
        change (world.store.issued : Int) + 1 ≤ world.store.issued at hle
        omega
      · rcases known_record hrow with hsame | hopen | hnow | hold
        · rw [hafter] at hsame
          exact Or.inr (known_of_committed hsame)
        · exact (List.mem_cons.1 (hmore.subset hopen)).imp id known_of_staged
        · exact Or.inl (hshown row hnow)
        · exact Or.inr hold
  | committed tx hopened hcommit hshown hleaves =>
      rw [hbefore] at hcommit
      refine hknown.of_versions fun row hrow => ⟨row, ?_, rfl⟩
      rcases known_record hrow with hafter | hopen | hnow | hold
      · rcases List.mem_append.1 ((h.committed_perm hopened hcommit).mem_iff.1 hafter) with hold | hnew
        · exact known_of_committed hold
        · exact known_of_staged (List.mem_flatMap.2 ⟨tx, hopened, hnew⟩)
      · rw [hleaves] at hopen
        exact known_of_staged ((stagedRows_perm hopened).mem_iff.2 (List.mem_append_right tx.rows hopen))
      · rw [hshown] at hnow
        cases hnow
      · exact hold

/-- In every world, whatever the rules are, all that is known of a number is versions of one
message. -/
theorem one_message_each (rules : Rules κ τ ρ) (actions : List (Action κ τ)) :
    OneMessageEach (rules.world actions).known := by
  refine Rules.store_induction (fun store transactions history =>
    OneMessageEach (store.rows ++ stagedRows transactions ++ history.flatMap Moment.shown))
    ?_ ?_ ?_ actions
  · intro a ha
    cases ha
  · intro earlier moment h hmakes
    exact (sound rules earlier).one_message_each hmakes.before hmakes.effect h
  · intro _ store transactions history h
    refine h.of_versions fun row hrow => ⟨row, ?_, rfl⟩
    rcases List.mem_append.1 hrow with hstaged | hseen
    · exact List.mem_append_left _ (List.mem_append_right _ hstaged)
    · exact List.mem_append_right _ hseen

theorem sameMessage {rules : Rules κ τ ρ} {actions : List (Action κ τ)} {row version : Row}
    (hrow : row ∈ (rules.world actions).known) (hversion : version ∈ (rules.world actions).known)
    (hid : version.id = row.id) : row.SameMessage version :=
  Row.sameMessage_iff.2 (one_message_each rules actions version hversion row hrow hid)

/-- What was handed out remains so. -/
theorem handedOut_later (rules : Rules κ τ ρ) (later : List (Action κ τ))
    {earlier : List (Action κ τ)} {row : Row} (hrow : row ∈ (rules.world earlier).handedOut) :
    row ∈ (rules.world (later ++ earlier)).handedOut := by
  induction later with
  | nil => exact hrow
  | cons action later ih =>
      change row ∈ (rules.step (rules.world (later ++ earlier)) action).handedOut
      unfold handedOut at ih ⊢
      rcases rules.step_history (rules.world (later ++ earlier)) action with
        hsame | ⟨moment, _, hmore, _⟩
      · rw [hsame]
        exact ih
      · rw [hmore]
        exact List.mem_append_right _ ih

/-- What is committed stays committed, in some version. -/
theorem stays {rules : Rules κ τ ρ} (hlasting : rules.clears = false) (later : List (Action κ τ))
    {earlier : List (Action κ τ)} {id : RowId} {row : Row}
    (hrow : (rules.world earlier).store.get? id = some row) :
    ∃ version, (rules.world (later ++ earlier)).store.get? id = some version ∧
      row.SameMessage version := by
  induction later with
  | nil => exact ⟨row, hrow, Row.sameMessage_iff.2 rfl⟩
  | cons action later ih =>
      obtain ⟨version, hversion, hsame⟩ := ih
      change ∃ last, (rules.step (rules.world (later ++ earlier)) action).store.get? id = some last ∧ _
      rcases (rules.step_next (rules.world (later ++ earlier)) action).call_or_none hlasting with
        ⟨jobs, heq⟩ | ⟨moment, jobs, hmakes, heq⟩
      · rw [heq]
        exact ⟨version, hversion, hsame⟩
      · rw [heq]
        obtain ⟨after, hafter, rfl | ⟨change, _, _, rfl⟩⟩ := get?_after hmakes hversion
        · exact ⟨after, hafter, hsame⟩
        · exact ⟨_, hafter, hsame.trans (version.sameMessage_apply change)⟩

end World

end Courier
