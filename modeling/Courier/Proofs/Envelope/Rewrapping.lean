import Courier.Proofs.Envelope.Building
/-
Rewrapping.  An envelope that was built can be built again at any later time and comes out as it was.
The clock has to be one that knows no leap seconds: in a leap second the allowance for other clocks is
counted from the second before it, and what was no more than that ahead would be too far ahead.  Nor may
it have come to the last five seconds of the time line, in which nothing is built.  Where choices are
made in between, they change what they are about and nothing else.
-/
namespace Courier

variable {κ α σ : Type}

/-- What was not too far ahead of a clock is not too far ahead of it later. -/
theorem Instant.IsAfter.exists_le {now time bound : Instant} {span : Span}
    (h : bound.IsAfter time span) (hlater : now ≤ time) (hleap : time.leap = false) :
    ∃ earlier : Instant, earlier.IsAfter now span ∧ earlier ≤ bound := by
  have hcount : now.nanos ≤ time.nanos := nanos_le_of_le hlater hleap
  have hlast : now ≤ latest := le_trans hlater (le_latest_of_not_leap hleap)
  have hle : now.after span ≤ time.after span :=
    after_le_after_of_le (Nat.le_refl _) hlater hcount hlast
  rw [after_eq h] at hle
  rcases now.after_cases span with hafter | ⟨hbeyond, _⟩
  · exact ⟨_, hafter, hle⟩
  · have := h.nanos
    have := bound.le_latest
    omega

structure Envelope.Sound (envelope : Envelope α) (now : Instant) : Prop where
  typed : envelope.typeName?.isSome = true
  kept : ∀ rule violation, ¬ Rule.Broken (Builder.rewrap envelope).headers.names envelope.metadata now
    rule violation

namespace Builder

variable {builder : Builder α} {envelope : Envelope α} {id : MessageId} {now : Instant}

theorem finish_eq_ok_iff : builder.finish id now = .ok envelope ↔ now.HasRoom ∧
    (∀ rule violation,
      ¬ Rule.Broken builder.headers.names (builder.metadata id now) now rule violation) ∧
      envelope = ⟨builder.message, builder.metadata id now⟩ := by
  have hjudged := builder.finish_judged id now fun _ => Iff.rfl
  cases hfinish : builder.finish id now with
  | error failure =>
      rw [hfinish] at hjudged
      refine iff_of_false (fun h => by cases h) fun ⟨hroom, hkept, _⟩ => ?_
      cases hjudged with
      | overflowed hend => exact hend hroom
      | refused _ hbroken _ =>
          obtain ⟨rule, violation, hbroken⟩ := hbroken
          exact hkept rule violation hbroken
  | ok built =>
      rw [hfinish] at hjudged
      cases hjudged with
      | built hroom hkept _ _ =>
          rw [Except.ok.injEq, eq_comm]
          exact ((and_iff_right hroom).trans (and_iff_right hkept)).symm

theorem mem_names_rewrap {key : String} : key ∈ (rewrap envelope).headers.names ↔
    key ≠ typeHeader ∧ (envelope.metadata.header? key).isSome = true := by
  rw [Table.mem_names_iff, ← Option.isSome_iff_exists]
  change ((envelope.metadata.headers.erase typeHeader).get? key).isSome = true ↔ _
  by_cases h : key = typeHeader
  · subst h
    rw [Table.get?_erase_self]
    exact iff_of_false Bool.false_ne_true fun h => h.1 rfl
  · rw [Table.get?_erase_of_ne h]
    exact (and_iff_right h).symm

/-- The header with the type is taken out and put back. -/
theorem metadata_rewrap (h : envelope.typeName?.isSome = true) (now : Instant) :
    (rewrap envelope).metadata envelope.metadata.messageId now = envelope.metadata := by
  have hheader : ∀ key, ((rewrap envelope).metadata envelope.metadata.messageId now).header? key =
      envelope.metadata.header? key := by
    intro key
    by_cases hkey : key = typeHeader
    · subst hkey
      obtain ⟨name, hname⟩ := Option.isSome_iff_exists.1 h
      refine (typeName?_metadata ..).trans ?_
      change some (envelope.typeName?.getD "") = envelope.typeName?
      rw [hname]
      rfl
    · rw [header?_metadata _ _ _ hkey]
      exact Table.get?_erase_of_ne hkey
  obtain ⟨message, ⟨id, correlationId, causationId, createdAt, headers⟩⟩ := envelope
  exact congrArg (Metadata.mk id correlationId causationId createdAt) (Table.eq_of_get?_eq hheader)

/-- What was built keeps the rules. -/
theorem sound_of_finish (h : builder.finish id now = .ok envelope) : envelope.Sound now := by
  obtain ⟨_, hkept, rfl⟩ := finish_eq_ok_iff.1 h
  have hnames : ∀ key, key ∈ (rewrap ⟨builder.message, builder.metadata id now⟩).headers.names →
      key ∈ builder.headers.names := by
    intro key hkey
    obtain ⟨hother, hsome⟩ := mem_names_rewrap.1 hkey
    rw [Table.mem_names_iff, ← Option.isSome_iff_exists, ← header?_metadata builder id now hother]
    exact hsome
  constructor
  · exact Option.isSome_iff_exists.2 ⟨_, typeName?_metadata builder id now⟩
  · intro rule violation hbroken
    obtain ⟨other, hother⟩ := hbroken.imp hnames fun bound hbound hlate => ⟨bound, hbound, hlate⟩
    exact hkept rule other hother

end Builder

namespace Envelope.Sound

variable {envelope : Envelope α} {now : Instant}

/-- Time alone breaks no rule. -/
theorem later (h : envelope.Sound now) {time : Instant} (hlater : now ≤ time)
    (hleap : time.leap = false) : envelope.Sound time := by
  refine ⟨h.typed, fun rule violation hbroken => ?_⟩
  obtain ⟨other, hother⟩ := hbroken.imp (fun _ hkey => hkey) fun bound hbound hlate => by
    obtain ⟨earlier, hearlier, hle⟩ := hbound.exists_le hlater hleap
    exact ⟨earlier, hearlier, Int.lt_of_le_of_lt hle hlate⟩
  exact h.kept rule other hother

theorem finish_rewrap (h : envelope.Sound now) (hroom : now.HasRoom) :
    (Builder.rewrap envelope).finish envelope.metadata.messageId now = .ok envelope := by
  refine Builder.finish_eq_ok_iff.2 ⟨hroom, ?_, ?_⟩
  · rw [Builder.metadata_rewrap h.typed now]
    exact h.kept
  · rw [Builder.metadata_rewrap h.typed now]
    rfl

end Envelope.Sound

section runs

variable {answer : (call : Call κ) → σ → call.Answer × σ} {state clocked after : σ}

theorem Builder.finish_of_run {builder : Builder α} {envelope : Envelope α} {now : Instant}
    (hclock : answer .now state = (now, clocked))
    (h : Program.run answer builder.build state = (.ok envelope, after)) :
    ∃ uuid : Uuid, builder.finish (builder.messageId.getD ⟨uuid⟩) now = .ok envelope := by
  rw [Builder.run_build hclock rfl] at h
  exact ⟨_, congrArg Prod.fst h⟩

/-- Building again with choices in between. -/
theorem Envelope.chosen_of_rewrap {envelope rewrapped : Envelope α} {overrides : List Override}
    (htyped : envelope.typeName?.isSome = true)
    (h : Program.run answer ((Builder.rewrap envelope).chooseAll overrides).build state =
      (.ok rewrapped, after)) :
    rewrapped.message = envelope.message ∧
      envelope.metadata.Chosen overrides rewrapped.metadata := by
  obtain ⟨now, clocked, hclock⟩ :
      ∃ (now : Instant) (clocked : σ), answer .now state = (now, clocked) := ⟨_, _, rfl⟩
  obtain ⟨uuid, hfinish⟩ := Builder.finish_of_run hclock h
  rw [Builder.chooseAll_messageId, Option.getD_or] at hfinish
  obtain ⟨_, _, rfl⟩ := Builder.finish_eq_ok_iff.1 hfinish
  have hchosen := (Builder.rewrap envelope).chosen_metadata overrides envelope.metadata.messageId now
  rw [Builder.metadata_rewrap htyped] at hchosen
  exact ⟨Builder.chooseAll_message _ _, hchosen⟩

/-- Envelopes that come of one by building it again and again, with what was chosen on the way. -/
inductive Envelope.Rewraps (answer : (call : Call κ) → σ → call.Answer × σ) (first : Envelope α) :
    List Override → Envelope α → Prop where
  | start : Rewraps answer first [] first
  | again {overrides more : List Override} {middle last : Envelope α} {state after : σ}
      (h : Rewraps answer first overrides middle)
      (hbuilt : Program.run answer ((Builder.rewrap middle).chooseAll more).build state =
        (.ok last, after)) :
      Rewraps answer first (overrides ++ more) last

/-- However often it is built again, it is as if everything had been chosen at once. -/
theorem Envelope.Rewraps.chosen {first last : Envelope α} {overrides : List Override}
    (h : first.Rewraps answer overrides last) (htyped : first.typeName?.isSome = true) :
    last.message = first.message ∧ first.metadata.Chosen overrides last.metadata := by
  induction h with
  | start => exact ⟨rfl, .none _⟩
  | again _ hbuilt ih =>
      obtain ⟨hmessage, hchosen⟩ := ih
      have hmiddle : Envelope.typeName? _ = first.typeName? := hchosen.typeName?
      obtain ⟨hmore, hlast⟩ := Envelope.chosen_of_rewrap (hmiddle ▸ htyped) hbuilt
      exact ⟨hmore.trans hmessage, hchosen.trans hlast⟩

end runs

/-- An envelope that was built, by whatever builder, is built again as it is at any later time that the
clock shows outside leap seconds and before the last five seconds of the time line; in these nothing is
built.  No identity is taken for it.  With any choices in between, if it is built at all, the last choice
of each matter counts and everything else stays, its payload and its type included; and so however often
it is built again. -/
theorem rewraps_keep_the_rest {builder : Builder α} {envelope : Envelope α}
    {answer : (call : Call κ) → σ → call.Answer × σ} {state clocked after : σ} {now : Instant}
    (hclock : answer .now state = (now, clocked))
    (hbuilt : Program.run answer builder.build state = (.ok envelope, after)) :
    (∀ (time : Instant) (reply : (call : Call κ) → σ → call.Answer × σ) (later passed : σ),
      reply .now later = (time, passed) →
      (now ≤ time → time.leap = false → time.HasRoom →
        Program.run reply (Builder.rewrap envelope).build later = (.ok envelope, passed)) ∧
      (¬ time.HasRoom →
        Program.run reply (Builder.rewrap envelope).build later = (.error .overflow, passed))) ∧
    (∀ (overrides : List Override) (reply : (call : Call κ) → σ → call.Answer × σ)
      (later passed : σ) (rewrapped : Envelope α),
      Program.run reply ((Builder.rewrap envelope).chooseAll overrides).build later =
        (.ok rewrapped, passed) →
      rewrapped.message = envelope.message ∧
        envelope.metadata.Chosen overrides rewrapped.metadata) ∧
    (∀ (overrides : List Override) (reply : (call : Call κ) → σ → call.Answer × σ)
      (last : Envelope α), envelope.Rewraps reply overrides last →
      last.message = envelope.message ∧ envelope.metadata.Chosen overrides last.metadata) := by
  obtain ⟨_, hfinish⟩ := Builder.finish_of_run hclock hbuilt
  have hsound := Builder.sound_of_finish hfinish
  refine ⟨?_, ?_, ?_⟩
  · intro time reply later passed hshows
    rw [Builder.run_build_of_chosen rfl hshows]
    refine ⟨fun hlater hleap hroom => ?_, fun hend => ?_⟩
    · rw [(hsound.later hlater hleap).finish_rewrap hroom]
    · rw [Builder.finish_of_not_hasRoom _ _ _ hend]
  · intro overrides reply later passed rewrapped hrewrapped
    exact Envelope.chosen_of_rewrap hsound.typed hrewrapped
  · intro overrides reply last hlast
    exact hlast.chosen hsound.typed

/-- Choices that are just not too far ahead of the clock, for use in examples. -/
def ahead (now : Instant) : List Override :=
  [.header "trace" "1", .createdAt (now.after (Span.ofSeconds 5)), .causationId ⟨Uuid.ofNat 2⟩]

/-- What they come to. -/
def aheadRegret (now : Instant) : Envelope OrderCancelled where
  message := regret
  metadata :=
    { messageId := ⟨Uuid.ofNat 1⟩
      correlationId := ⟨Uuid.ofNat 9⟩
      causationId := some ⟨Uuid.ofNat 2⟩
      createdAt := now.after (Span.ofSeconds 5)
      headers := (Table.empty.insert "trace" "1").insert typeHeader "OrderCancelledV1" }

def builtAhead (now : Instant) : Except Builder.Failure (Envelope OrderCancelled) × Nat :=
  Program.run (standing now)
    ((Builder.start regret ⟨⟨Uuid.ofNat 9⟩, none⟩).chooseAll (ahead now)).build 0

/-- In the last second before a leap second. -/
def nearMidnight : Instant := ⟨1483228799400000000, false, by decide, by decide, by decide⟩

/-- The first tenth of that leap second. -/
def tenthPastMidnight : Instant := ⟨1483228799100000000, true, by decide, by decide, by decide⟩

/-- In the last five seconds of the time line an envelope that was built is not built again.  A clock that
showed leap seconds would in one of them find too far ahead what was not in the second before it. -/
theorem latest_overflows :
    (builtAhead epoch = (.ok (aheadRegret epoch), 2) ∧ epoch ≤ Instant.latest ∧
      (Program.run (standing Instant.latest) (Builder.rewrap (aheadRegret epoch)).build 2).1 =
        .error .overflow) ∧
    (builtAhead nearMidnight = (.ok (aheadRegret nearMidnight), 2) ∧
      nearMidnight ≤ tenthPastMidnight ∧
      (Program.run (standing tenthPastMidnight)
        (Builder.rewrap (aheadRegret nearMidnight)).build 2).1 =
        .error (.violated
          [.createdInFuture (aheadRegret nearMidnight).metadata.createdAt tenthPastMidnight])) := by
  decide +kernel

def retraced : List Override := [.header "trace" "2", .noCausation]

def retracedRegret : Envelope OrderCancelled where
  message := regret
  metadata :=
    { (aheadRegret epoch).metadata with
      causationId := none
      headers := (Table.empty.insert "trace" "2").insert typeHeader "OrderCancelledV1" }

theorem aheadRegret_rewrapped :
    standing epoch .now 0 = (epoch, 1) ∧ builtAhead epoch = (.ok (aheadRegret epoch), 2) ∧
      epoch ≤ newYearsEve ∧ newYearsEve.leap = false ∧ newYearsEve.HasRoom ∧
      Program.run (standing newYearsEve) (Builder.rewrap (aheadRegret epoch)).build 2 =
        (.ok (aheadRegret epoch), 3) ∧
      ¬ Instant.latest.HasRoom ∧
      Program.run (standing Instant.latest) (Builder.rewrap (aheadRegret epoch)).build 2 =
        (.error .overflow, 3) ∧
      Program.run (standing newYearsEve)
        ((Builder.rewrap (aheadRegret epoch)).chooseAll retraced).build 2 = (.ok retracedRegret, 3) ∧
      retracedRegret.message = (aheadRegret epoch).message ∧
      (aheadRegret epoch).metadata.Chosen retraced retracedRegret.metadata := by
  have hbuilt : builtAhead epoch = (.ok (aheadRegret epoch), 2) := by decide +kernel
  have hlater : epoch ≤ newYearsEve := by decide
  have hroom : newYearsEve.HasRoom := by decide
  have hend : ¬ Instant.latest.HasRoom := by decide
  have hretraced : Program.run (standing newYearsEve)
      ((Builder.rewrap (aheadRegret epoch)).chooseAll retraced).build 2 =
      (.ok retracedRegret, 3) := by decide +kernel
  obtain ⟨hagain, hchosen, _⟩ := rewraps_keep_the_rest rfl hbuilt
  exact ⟨rfl, hbuilt, hlater, rfl, hroom, (hagain newYearsEve _ 2 3 rfl).1 hlater rfl hroom, hend,
    (hagain Instant.latest _ 2 3 rfl).2 hend, hretraced, hchosen retraced _ 2 3 _ hretraced⟩

end Courier
