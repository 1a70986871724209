import Courier.Order.Messages
import Courier.Proofs.Envelope.Choices
import Courier.Proofs.Interleaving.World
import Courier.Proofs.Text.Words
import Courier.Proofs.Time.Waiting
/-
Building.  An envelope is refused just when it would break a rule.  What is reported then is every rule
that it would break, once each and in their order; whatever is built keeps all of them.  In the last
five seconds of the time line nothing is built, since the allowance for other clocks leads beyond it.
-/
namespace Courier

/-- A rule for envelopes.  Every header is under a rule of its own. -/
inductive Rule where
  | header (key : String)
  | correlation
  | causation
  | creation

namespace Rule

def rank : Rule → Nat
  | .header _ => 0
  | .correlation => 1
  | .causation => 2
  | .creation => 3

inductive Before : Rule → Rule → Prop where
  | keys {first second : String} (h : first < second) : Before (.header first) (.header second)
  | kinds {first second : Rule} (h : first.rank < second.rank) : Before first second

/-- An envelope that is to have this metadata breaks a rule, and the violation says so.  The keys are
those of the headers that were chosen. -/
inductive Broken (keys : List String) (final : Metadata) (now : Instant) : Rule → Violation → Prop where
  | blank {key : String} (hkey : key ∈ keys) (hblank : ∀ c ∈ key.toList, isBlank c = true) :
      Broken keys final now (.header key) .blankHeaderKey
  | reserved {key : String} (hkey : key ∈ keys) (hsame : sameIgnoringCase key typeHeader = true) :
      Broken keys final now (.header key) (.reservedHeader key)
  | nilCorrelation (hnil : final.correlationId.uuid = Uuid.nil) :
      Broken keys final now .correlation .blankCorrelationId
  | ownCause (hown : final.causationId = some final.messageId) :
      Broken keys final now .causation (.selfCausation final.messageId)
  /-- It is later than the instant that five seconds lead to from the clock's. -/
  | fromFuture {bound : Instant} (hbound : bound.IsAfter now (Span.ofSeconds 5))
      (hlate : bound < final.createdAt) :
      Broken keys final now .creation (.createdInFuture final.createdAt now)

/-- A rule that is broken is broken also where there are more headers, and as of any clock that the
envelope is too far ahead of. -/
theorem Broken.imp {keys more : List String} {final : Metadata} {now other : Instant} {rule : Rule}
    {violation : Violation} (hkeys : ∀ key ∈ keys, key ∈ more)
    (hlate : ∀ bound : Instant, bound.IsAfter now (Span.ofSeconds 5) → bound < final.createdAt →
      ∃ earlier : Instant, earlier.IsAfter other (Span.ofSeconds 5) ∧ earlier < final.createdAt)
    (h : Broken keys final now rule violation) :
    ∃ violation, Broken more final other rule violation := by
  cases h with
  | blank hkey hblank => exact ⟨_, .blank (hkeys _ hkey) hblank⟩
  | reserved hkey hsame => exact ⟨_, .reserved (hkeys _ hkey) hsame⟩
  | nilCorrelation hnil => exact ⟨_, .nilCorrelation hnil⟩
  | ownCause hown => exact ⟨_, .ownCause hown⟩
  | fromFuture hbound h =>
      obtain ⟨earlier, hearlier, hahead⟩ := hlate _ hbound h
      exact ⟨_, .fromFuture hearlier hahead⟩

/-- Just the broken rules are reported, once each and in their order. -/
def Reported (keys : List String) (final : Metadata) (now : Instant) (found : List Violation) : Prop :=
  ∃ broken : List (Rule × Violation),
    broken.Pairwise (fun first second => first.1.Before second.1) ∧
    (∀ rule violation, (rule, violation) ∈ broken ↔ Broken keys final now rule violation) ∧
    found = broken.map (·.2)

/-- Findings are in the order of their rules, whose ranks are all below a bound. -/
structure InOrder (bound : Nat) (findings : List (Rule × Violation)) : Prop where
  pairwise : findings.Pairwise fun first second => first.1.Before second.1
  below : ∀ finding ∈ findings, finding.1.rank < bound

theorem InOrder.and_then {bound : Nat} {findings : List (Rule × Violation)} {p : Prop} [Decidable p]
    {finding : Rule × Violation} (h : InOrder bound findings) (hrank : finding.1.rank = bound) :
    InOrder (bound + 1) (findings ++ if p then [finding] else []) := by
  split
  · constructor
    · refine List.pairwise_append.2
        ⟨h.pairwise, List.pairwise_singleton .., fun first hfirst last hlast => ?_⟩
      rw [List.mem_singleton.1 hlast]
      exact .kinds (hrank ▸ h.below first hfirst)
    · intro other hother
      rcases List.mem_append.1 hother with hearlier | hlast
      · exact Nat.lt_succ_of_lt (h.below other hearlier)
      · rw [List.mem_singleton.1 hlast, hrank]
        exact Nat.lt_succ_self bound
  · rw [List.append_nil]
    exact ⟨h.pairwise, fun other hother => Nat.lt_succ_of_lt (h.below other hother)⟩

end Rule

/-- The time line goes on for the allowance at least. -/
def Instant.HasRoom (now : Instant) : Prop :=
  now.nanos + (Span.ofSeconds 5).nanos ≤ latestNanos

instance (now : Instant) : Decidable now.HasRoom :=
  inferInstanceAs (Decidable (_ ≤ _))

theorem Instant.later?_of_not_hasRoom {now : Instant} (h : ¬ now.HasRoom) :
    now.later? (Span.ofSeconds 5) = none :=
  later?_eq_none_iff.2 (Int.not_le.1 h)

theorem Instant.HasRoom.exists_isAfter {now : Instant} (h : now.HasRoom) :
    ∃ bound : Instant, bound.IsAfter now (Span.ofSeconds 5) := by
  obtain ⟨bound, hbound⟩ := Option.ne_none_iff_exists'.1
    fun hnone => absurd h (Int.not_le.2 (later?_eq_none_iff.1 hnone))
  exact ⟨bound, later?_eq_some_iff.1 hbound⟩

/-- A builder answers with what its rules ask for, unless there is no room for the allowance. -/
inductive Builder.Judged {α : Type} (keys : List String) (typeName : String) (message : α)
    (final : Metadata) (now : Instant) : Except Failure (Envelope α) → Prop where
  | overflowed (hend : ¬ now.HasRoom) : Judged keys typeName message final now (.error .overflow)
  | refused {found : List Violation} (hroom : now.HasRoom)
      (hbroken : ∃ rule violation, Rule.Broken keys final now rule violation)
      (hreported : Rule.Reported keys final now found) :
      Judged keys typeName message final now (.error (.violated found))
  | built (hroom : now.HasRoom)
      (hkept : ∀ rule violation, ¬ Rule.Broken keys final now rule violation)
      (htype : final.typeName? = some typeName)
      (honly : ∀ key, (final.header? key).isSome = true → sameIgnoringCase key typeHeader = true →
        key = typeHeader) :
      Judged keys typeName message final now (.ok ⟨message, final⟩)

section keys

variable {key : String} {violation : Violation}

theorem toLower_of_blank {c : Char} (h : isBlank c = true) : c.toLower = c := by
  refine toLower_of_not_capital (Bool.not_eq_true _ ▸ fun hupper => ?_)
  obtain ⟨hfirst, hlast⟩ := isUpper_iff_toNat.1 hupper
  simp only [isBlank, Bool.or_eq_true, Bool.and_eq_true, decide_eq_true_eq, beq_iff_eq] at h
  omega

/-- A reserved key is not blank, so that either rule can be looked at first. -/
theorem not_blank_of_reserved (h : sameIgnoringCase key typeHeader = true) : allBlank key = false := by
  rw [← Bool.not_eq_true]
  intro hblank
  have hkeep : key.toList.map Char.toLower = key.toList :=
    (List.map_congr_left fun c hc => toLower_of_blank (allBlank_iff.1 hblank c hc)).trans
      (List.map_id' _)
  have hsame : key.toList = typeHeader.toList.map Char.toLower := by
    rw [← hkeep]
    exact eq_of_beq h
  unfold allBlank at hblank
  rw [hsame] at hblank
  exact absurd hblank (by decide)

theorem mem_keyViolations_iff : violation ∈ Builder.keyViolations key ↔
    (allBlank key = true ∧ violation = .blankHeaderKey) ∨
      (sameIgnoringCase key typeHeader = true ∧ violation = .reservedHeader key) := by
  unfold Builder.keyViolations
  cases hsame : sameIgnoringCase key typeHeader with
  | true => simp [not_blank_of_reserved hsame]
  | false => cases allBlank key <;> simp

theorem keyViolations_pairwise (key : String) (r : Violation → Violation → Prop) :
    (Builder.keyViolations key).Pairwise r := by
  unfold Builder.keyViolations
  split
  · exact List.pairwise_singleton ..
  · split
    · exact List.pairwise_singleton ..
    · exact List.Pairwise.nil

end keys

namespace Builder

variable {κ α σ : Type}

def findings (builder : Builder α) (id : MessageId) (now bound : Instant) :
    List (Rule × Violation) :=
  let final := builder.metadata id now
  (builder.headers.names.flatMap fun key => (keyViolations key).map (Rule.header key, ·)) ++
    (if final.correlationId.uuid.isNil then [(.correlation, .blankCorrelationId)] else []) ++
    (if final.causationId = some id then [(.causation, .selfCausation id)] else []) ++
    (if bound < final.createdAt then [(.creation, .createdInFuture final.createdAt now)] else [])

section

variable (builder : Builder α) (id : MessageId) (now bound : Instant)

theorem violations_eq_findings :
    builder.violations id now bound = (builder.findings id now bound).map (·.2) := by
  simp only [violations, findings, List.map_append, List.map_flatMap, List.map_map, Function.comp_def,
    List.map_id', apply_ite (List.map fun finding : Rule × Violation => finding.2), List.map_cons,
    List.map_nil]
  rfl

/-- Where there is room for the allowance, the violations are reported or the envelope is made. -/
theorem finish_of_isAfter {bound : Instant} (h : bound.IsAfter now (Span.ofSeconds 5)) :
    builder.finish id now = (Violation.guarding (builder.violations id now bound)
      (⟨builder.message, builder.metadata id now⟩ : Envelope α)).mapError .violated := by
  have hlater : now.later? clockSkew = some bound := Instant.later?_eq_some_iff.2 h
  unfold finish
  rw [hlater]
  rfl

theorem finish_of_not_hasRoom (h : ¬ now.HasRoom) : builder.finish id now = .error .overflow := by
  have hlater : now.later? clockSkew = none := Instant.later?_of_not_hasRoom h
  unfold finish
  rw [hlater]

theorem findings_inOrder : Rule.InOrder 4 (builder.findings id now bound) := by
  have hheaders : Rule.InOrder 1 (builder.headers.names.flatMap fun key =>
      (keyViolations key).map (Rule.header key, ·)) := by
    refine ⟨List.pairwise_flatMap.2
      ⟨fun key _ => List.pairwise_map.2 (keyViolations_pairwise key _), ?_⟩, ?_⟩
    · refine builder.headers.names_ascend.imp fun {first second} hlt x hx y hy => ?_
      obtain ⟨_, _, rfl⟩ := List.mem_map.1 hx
      obtain ⟨_, _, rfl⟩ := List.mem_map.1 hy
      exact .keys hlt
    · intro finding hfinding
      obtain ⟨key, _, hkey⟩ := List.mem_flatMap.1 hfinding
      obtain ⟨_, _, heq⟩ := List.mem_map.1 hkey
      rw [← heq]
      exact Nat.one_pos
  exact ((hheaders.and_then rfl).and_then rfl).and_then rfl

section

variable {keys : List String} (hkeys : ∀ key, key ∈ builder.headers.names ↔ key ∈ keys)

include hkeys

theorem mem_findings_iff (hbound : bound.IsAfter now (Span.ofSeconds 5)) (rule : Rule)
    (violation : Violation) : (rule, violation) ∈ builder.findings id now bound ↔
      Rule.Broken keys (builder.metadata id now) now rule violation := by
  simp only [findings, List.mem_append, List.mem_flatMap, List.mem_map, mem_keyViolations_iff,
    List.mem_ite_nil_right, List.mem_singleton, Prod.mk.injEq, hkeys]
  constructor
  · rintro (((⟨key, hkey, _, ⟨hblank, rfl⟩ | ⟨hsame, rfl⟩, rfl, rfl⟩ | ⟨hnil, rfl, rfl⟩) |
      ⟨hown, rfl, rfl⟩) | ⟨hlate, rfl, rfl⟩)
    · exact .blank hkey (allBlank_iff.1 hblank)
    · exact .reserved hkey hsame
    · exact .nilCorrelation (eq_of_beq hnil)
    · exact .ownCause hown
    · exact .fromFuture hbound hlate
  · rintro (⟨hkey, hblank⟩ | ⟨hkey, hsame⟩ | hnil | hown | ⟨hother, hlate⟩)
    · exact .inl (.inl (.inl ⟨_, hkey, _, .inl ⟨allBlank_iff.2 hblank, rfl⟩, rfl, rfl⟩))
    · exact .inl (.inl (.inl ⟨_, hkey, _, .inr ⟨hsame, rfl⟩, rfl, rfl⟩))
    · exact .inl (.inl (.inr ⟨beq_iff_eq.2 hnil, rfl, rfl⟩))
    · exact .inl (.inr ⟨hown, rfl, rfl⟩)
    · exact .inr ⟨hother.unique hbound ▸ hlate, rfl, rfl⟩

theorem violations_reported (hbound : bound.IsAfter now (Span.ofSeconds 5)) :
    Rule.Reported keys (builder.metadata id now) now (builder.violations id now bound) :=
  ⟨builder.findings id now bound, (builder.findings_inOrder id now bound).pairwise,
    builder.mem_findings_iff id now bound hkeys hbound, builder.violations_eq_findings id now bound⟩

/-- However the rest of an envelope was chosen, finishing it obeys the rules. -/
theorem finish_judged : Judged keys builder.typeName builder.message (builder.metadata id now) now
    (builder.finish id now) := by
  by_cases hroom : now.HasRoom
  · obtain ⟨bound, hbound⟩ := hroom.exists_isAfter
    rw [builder.finish_of_isAfter id now hbound]
    obtain ⟨broken, hbefore, hbroken, hfound⟩ := builder.violations_reported id now bound hkeys hbound
    rw [hfound]
    cases broken with
    | nil =>
        have hkept : ∀ rule violation, ¬ Rule.Broken keys (builder.metadata id now) now rule
            violation := fun rule violation h => by cases (hbroken rule violation).2 h
        refine .built hroom hkept (builder.typeName?_metadata id now) fun key hkey hsame => ?_
        by_contra hother
        rw [header?_metadata _ _ _ hother, Option.isSome_iff_exists, ← Table.mem_names_iff,
          hkeys] at hkey
        exact hkept _ _ (.reserved hkey hsame)
    | cons finding rest =>
        have hfirst := (hbroken finding.1 finding.2).1 List.mem_cons_self
        exact .refused hroom ⟨_, _, hfirst⟩ ⟨finding :: rest, hbefore, hbroken, rfl⟩
  · rw [builder.finish_of_not_hasRoom id now hroom]
    exact .overflowed hroom

end

end

/-- A name is among those of a builder's headers when it was there before or was chosen. -/
theorem mem_names_chooseAll (builder : Builder α) (overrides : List Override) (key : String) :
    key ∈ (builder.chooseAll overrides).headers.names ↔
      key ∈ overrides.filterMap Override.key? ∨ key ∈ builder.headers.names := by
  rw [Table.mem_names_iff, ← Option.isSome_iff_exists, chooseAll_header?, Option.isSome_or,
    Bool.or_eq_true, Override.last?_header_isSome_iff, Option.isSome_iff_exists, Table.mem_names_iff]

section

variable {answer : (call : Call κ) → σ → call.Answer × σ} {state clocked minted : σ} {now : Instant}
  {builder : Builder α}

/-- An identity that was chosen is taken, and the clock is all that is asked. -/
theorem run_build_of_chosen {id : MessageId} (hid : builder.messageId = some id)
    (hclock : answer .now state = (now, clocked)) :
    Program.run answer builder.build state = (builder.finish id now, clocked) := by
  unfold build
  rw [hid]
  change Program.run answer (.ask .now fun now => .done (builder.finish id now)) state = _
  simp only [Program.run, hclock]

theorem run_build_of_minted {uuid : Uuid} (hid : builder.messageId = none)
    (hclock : answer .now state = (now, clocked)) (hmint : answer .mint clocked = (uuid, minted)) :
    Program.run answer builder.build state = (builder.finish ⟨uuid⟩ now, minted) := by
  unfold build
  rw [hid]
  change Program.run answer (.ask .now fun now => .ask .mint fun uuid =>
    .done (builder.finish ⟨uuid⟩ now)) state = _
  simp only [Program.run, hclock, hmint]

theorem run_build {uuid : Uuid} (hclock : answer .now state = (now, clocked))
    (hmint : answer .mint clocked = (uuid, minted)) :
    Program.run answer builder.build state = (builder.finish (builder.messageId.getD ⟨uuid⟩) now,
      if builder.messageId.isSome then clocked else minted) := by
  cases hid : builder.messageId with
  | none => exact run_build_of_minted hid hclock hmint
  | some id => exact run_build_of_chosen hid hclock

end

end Builder

variable {κ α σ : Type}

/-- Whatever is chosen for an envelope, and however often, the last choice of each matter counts.  In the
last five seconds of the time line nothing is built.  At any other time the envelope is refused just when
rules are broken, and all that are broken are reported in their order; otherwise it is built under its
payload's own type, which no other header pretends to name.  A fresh identity is taken where none was
chosen. -/
theorem builds_report_violations [Message α] (message : α) (ctx : Context) (overrides : List Override)
    {answer : (call : Call κ) → σ → call.Answer × σ} {state clocked minted : σ} {now : Instant}
    {uuid : Uuid} (hclock : answer .now state = (now, clocked))
    (hmint : answer .mint clocked = (uuid, minted)) :
    ∃ final : Metadata, ∃ outcome : Except Builder.Failure (Envelope α),
      (Metadata.fresh ⟨uuid⟩ now (Message.typeName α) ctx).Chosen overrides final ∧
      Builder.Judged (overrides.filterMap Override.key?) (Message.typeName α) message final now
        outcome ∧
      Program.run answer ((Builder.start message ctx).chooseAll overrides).build state = (outcome,
        if (Override.last? Override.messageId? overrides).isSome then clocked else minted) := by
  let builder := (Builder.start message ctx).chooseAll overrides
  let id := (Override.last? Override.messageId? overrides).getD ⟨uuid⟩
  refine ⟨builder.metadata id now, builder.finish id now,
    (Builder.start message ctx).chosen_metadata overrides ⟨uuid⟩ now, ?_, ?_⟩
  · have hkeys : ∀ key, key ∈ builder.headers.names ↔ key ∈ overrides.filterMap Override.key? := by
      intro key
      rw [Builder.mem_names_chooseAll]
      exact or_iff_left (List.not_mem_nil)
    have hjudged := builder.finish_judged id now hkeys
    rw [Builder.chooseAll_typeName, Builder.chooseAll_message] at hjudged
    exact hjudged
  · have hid : builder.messageId = Override.last? Override.messageId? overrides := by
      rw [Builder.chooseAll_messageId]
      exact Option.or_none
    rw [Builder.run_build hclock hmint, hid]

/-- A clock that stands still and a source of identifiers that counts the calls, for use in examples. -/
def standing (now : Instant) (call : Call Unit) (calls : Nat) : call.Answer × Nat :=
  ((Store.empty.respond { clock := now, minted := Uuid.ofNat calls } call).1, calls + 1)

def regret : OrderCancelled := ⟨⟨7⟩, "changed mind"⟩

/-- Choices that break every rule, two keys of headers being blank. -/
def muddled : List Override :=
  [.header "Message-Type" "Note", .header "\u3000" "wide", .causationId ⟨Uuid.ofNat 2⟩,
    .header "" "none", .messageId ⟨Uuid.ofNat 2⟩, .correlationId ⟨Uuid.nil⟩,
    .header "Message-Type" "Probe", .createdAt (epoch.after (Span.ofSeconds 6))]

theorem muddled_refused :
    standing epoch .now 0 = (epoch, 1) ∧ standing epoch .mint 1 = (Uuid.ofNat 1, 2) ∧
      (∃ final : Metadata, ∃ outcome : Except Builder.Failure (Envelope OrderCancelled),
        (Metadata.fresh ⟨Uuid.ofNat 1⟩ epoch "OrderCancelledV1" ⟨⟨Uuid.ofNat 9⟩, none⟩).Chosen muddled
          final ∧
        Builder.Judged (muddled.filterMap Override.key?) "OrderCancelledV1" regret final epoch
          outcome ∧
        Program.run (standing epoch)
          ((Builder.start regret ⟨⟨Uuid.ofNat 9⟩, none⟩).chooseAll muddled).build 0 = (outcome, 1)) ∧
      Program.run (standing epoch)
          ((Builder.start regret ⟨⟨Uuid.ofNat 9⟩, none⟩).chooseAll muddled).build 0 =
        (.error (.violated [.blankHeaderKey, .reservedHeader "Message-Type", .blankHeaderKey,
          .blankCorrelationId, .selfCausation ⟨Uuid.ofNat 2⟩,
          .createdInFuture (epoch.after (Span.ofSeconds 6)) epoch]), 1) :=
  ⟨rfl, rfl, builds_report_violations _ _ muddled rfl rfl, by decide +kernel⟩

/-- 2016-12-31T23:59:55.5Z -/
def newYearsEve : Instant := ⟨1483228795500000000, false, by decide, by decide, by decide⟩

/-- 2016-12-31T23:59:60.6Z -/
def insideNewYear : Instant := ⟨1483228799600000000, true, by decide, by decide, by decide⟩

/-- An envelope that is created more than five seconds after the clock's time breaks no rule where a
leap second is among them.  In the last five seconds of the time line an envelope is not built, though
nothing was chosen for it and it would break no rule. -/
theorem leapSecond_allowed :
    (Span.ofSeconds 5).nanos < insideNewYear.since newYearsEve ∧
      (Program.run (standing newYearsEve) ((Builder.start regret ⟨⟨Uuid.ofNat 9⟩, none⟩).chooseAll
        [.createdAt insideNewYear]).build 0).1 =
          .ok ⟨regret, { Metadata.fresh ⟨Uuid.ofNat 1⟩ newYearsEve "OrderCancelledV1"
            ⟨⟨Uuid.ofNat 9⟩, none⟩ with createdAt := insideNewYear }⟩ ∧
      (Program.run (standing Instant.latest)
        (Builder.start regret ⟨⟨Uuid.ofNat 9⟩, none⟩).build 0).1 = .error .overflow := by
  decide +kernel

end Courier
