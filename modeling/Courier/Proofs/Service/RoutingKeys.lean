import Courier.Proofs.Table
import Courier.Service.Settings
import Mathlib.Tactic.MkIffOfInductiveProp
/-
Routing keys in the environment.  They are written as pairs of a type's name and its key, with an equals
sign in each pair and commas between the pairs.  In whatever order that is done, with blanks around the
names and the keys, and with pieces among the pairs that are none, the keys are read back as they were.
Whatever the environment is, no key that is read from it is blank.
-/
namespace Courier

/-- Nothing but blanks, or nothing at all. -/
structure Blanks where
  text : String
  blank : allBlank text = true

/-- Some text without blanks at its ends. -/
@[mk_iff]
structure Bare (text : String) : Prop where
  nonempty : text ≠ ""
  first : ∀ c ∈ text.toList.head?, isBlank c = false
  last : ∀ c ∈ text.toList.getLast?, isBlank c = false

/-- A type's name and its routing key, such that a pair can tell of them.  The first equals sign ends the
name, so that the key may have some of its own. -/
@[mk_iff]
structure Routable (name key : String) : Prop where
  bareName : Bare name
  noCommaInName : ',' ∉ name.toList
  noEqualsInName : '=' ∉ name.toList
  bareKey : Bare key
  noCommaInKey : ',' ∉ key.toList

/-- A text with blanks before it and after it. -/
structure Padded where
  front : Blanks
  text : String
  back : Blanks

def Padded.written (padded : Padded) : String :=
  padded.front.text ++ padded.text ++ padded.back.text

/-- Text that is no pair: there is no equals sign in it, or no name before the first one, or no key
after it. -/
inductive Malformed : String → Prop where
  | noEquals {text : String} (h : '=' ∉ text.toList) : Malformed text
  | nameless (name : Blanks) (rest : String) : Malformed (name.text ++ "=" ++ rest)
  | keyless {name : String} (h : '=' ∉ name.toList) (key : Blanks) :
      Malformed (name ++ "=" ++ key.text)

/-- What stands between two commas. -/
inductive RoutingPiece where
  | pair (name key : Padded)
  | noPair (text : String) (malformed : Malformed text) (noComma : ',' ∉ text.toList)

namespace RoutingPiece

def text : RoutingPiece → String
  | .pair name key => name.written ++ "=" ++ key.written
  | .noPair text _ _ => text

def entry? : RoutingPiece → Option (String × String)
  | .pair name key => some (name.text, key.text)
  | .noPair _ _ _ => none

def joined (pieces : List RoutingPiece) : String :=
  ",".intercalate (pieces.map text)

end RoutingPiece

section blanks

variable {c : Char}

theorem Blanks.trim_eq_nil (blanks : Blanks) : trim blanks.text.toList = [] :=
  (trim_eq_nil_iff _).2 (allBlank_iff.1 blanks.blank)

theorem Blanks.not_mem (blanks : Blanks) (hc : isBlank c = false) : c ∉ blanks.text.toList := by
  intro hmem
  exact ne_true_of_eq_false hc (allBlank_iff.1 blanks.blank c hmem)

theorem Bare.toList_ne_nil {text : String} (h : Bare text) : text.toList ≠ [] :=
  mt String.toList_eq_nil_iff.1 h.nonempty

namespace Padded

variable {padded : Padded}

theorem trim_written (h : Bare padded.text) : trim padded.written.toList = padded.text.toList := by
  rw [written, String.toList_append, String.toList_append]
  exact trim_append (allBlank_iff.1 padded.front.blank) (allBlank_iff.1 padded.back.blank)
    h.toList_ne_nil h.first h.last

theorem not_mem_written (hc : isBlank c = false) (h : c ∉ padded.text.toList) :
    c ∉ padded.written.toList := by
  rw [written, String.toList_append, String.toList_append]
  exact List.not_mem_append (List.not_mem_append (padded.front.not_mem hc) h)
    (padded.back.not_mem hc)

end Padded

end blanks

theorem splitAtFirst?_equals {name : String} (h : '=' ∉ name.toList) (key : String) :
    splitAtFirst? '=' (name ++ "=" ++ key).toList = some (name.toList, key.toList) := by
  have hchars : (name ++ "=" ++ key).toList = name.toList ++ '=' :: key.toList := by simp
  rw [hchars, splitAtFirst?_append h]

theorem Malformed.routingPair?_eq_none {text : String} (h : Malformed text) :
    routingPair? text.toList = none := by
  cases h with
  | noEquals h => rw [routingPair?, splitAtFirst?_of_not_mem h]
  | nameless name rest =>
      have hname : '=' ∉ name.text.toList := name.not_mem rfl
      simp [routingPair?, hname, name.trim_eq_nil]
  | keyless h key =>
      simp [routingPair?, h, key.trim_eq_nil]

theorem Routable.routingPair?_eq {name key : Padded} (h : Routable name.text key.text) :
    routingPair? (name.written ++ "=" ++ key.written).toList = some (name.text, key.text) := by
  have hname : '=' ∉ name.written.toList := Padded.not_mem_written rfl h.noEqualsInName
  simp only [routingPair?, splitAtFirst?_equals hname, Padded.trim_written h.bareName,
    Padded.trim_written h.bareKey, h.bareName.toList_ne_nil, h.bareKey.toList_ne_nil, or_self,
    ↓reduceIte, String.ofList_toList]

namespace RoutingPiece

/-- What is read from a piece is what it tells of. -/
theorem routingPair?_text {piece : RoutingPiece}
    (h : ∀ entry ∈ piece.entry?, Routable entry.1 entry.2) :
    routingPair? piece.text.toList = piece.entry? := by
  cases piece with
  | pair name key => exact (h _ rfl).routingPair?_eq
  | noPair text malformed noComma => exact malformed.routingPair?_eq_none

theorem comma_not_mem {piece : RoutingPiece}
    (h : ∀ entry ∈ piece.entry?, Routable entry.1 entry.2) : ',' ∉ piece.text.toList := by
  cases piece with
  | pair name key =>
      have hpair := h _ rfl
      have hname : ',' ∉ name.written.toList := Padded.not_mem_written rfl hpair.noCommaInName
      have hkey : ',' ∉ key.written.toList := Padded.not_mem_written rfl hpair.noCommaInKey
      simp [text, hname, hkey]
  | noPair text malformed noComma => exact noComma

/-- Reading several pieces is reading each of them. -/
theorem readRoutingKeys_joined {pieces : List RoutingPiece}
    (h : ∀ entry ∈ pieces.filterMap entry?, Routable entry.1 entry.2) :
    readRoutingKeys (joined pieces) = Table.ofList (pieces.filterMap entry?) := by
  have hpiece : ∀ piece ∈ pieces, ∀ entry ∈ piece.entry?, Routable entry.1 entry.2 :=
    fun piece hmem entry hentry => h entry (List.mem_filterMap.2 ⟨piece, hmem, hentry⟩)
  rcases eq_or_ne pieces [] with rfl | hsome
  · rfl
  · have hcommas : ∀ segment ∈ (pieces.map text).map String.toList, ',' ∉ segment := by
      simp only [List.forall_mem_map]
      exact fun piece hmem => comma_not_mem (hpiece piece hmem)
    have hcut : splitAtEach ',' (joined pieces).toList = (pieces.map text).map String.toList := by
      rw [joined, String.toList_intercalate]
      exact splitAtEach_intercalate (by simpa using hsome) hcommas
    have hread : ((pieces.map text).map String.toList).filterMap routingPair? =
        pieces.filterMap entry? := by
      rw [List.filterMap_map, List.filterMap_map]
      exact List.filterMap_congr fun piece hmem => routingPair?_text (hpiece piece hmem)
    rw [readRoutingKeys, hcut, hread]

end RoutingPiece

theorem not_blank_of_routingPair? {segment : List Char} {name key : String}
    (h : routingPair? segment = some (name, key)) : allBlank key = false := by
  unfold routingPair? at h
  split at h
  · cases h
  · dsimp only at h
    split at h
    · cases h
    · rename_i hsome
      cases h
      exact allBlank_trim fun hnil => hsome (Or.inr hnil)

/-- No key that is read is blank. -/
theorem not_blank_of_read {text : String} {entry : String × String}
    (h : entry ∈ (readRoutingKeys text).entries) : allBlank entry.2 = false := by
  obtain ⟨segment, _, hsegment⟩ := List.mem_filterMap.1 (Table.mem_of_mem_ofList h)
  exact not_blank_of_routingPair? hsegment

namespace ServiceSettings

variable (lookup : String → Option String)

theorem routingKeys_ofLookup : (ofLookup lookup).publishing.routingKeys =
    ((lookup "OUTBOX_ROUTING_KEYS").map readRoutingKeys).getD Table.empty :=
  rfl

theorem blankKey?_ofLookup : (ofLookup lookup).publishing.blankKey? = none := by
  have hkeys : ∀ entry ∈ (ofLookup lookup).publishing.routingKeys.entries,
      allBlank entry.2 = false := by
    rw [routingKeys_ofLookup]
    cases lookup "OUTBOX_ROUTING_KEYS" with
    | none => exact fun entry h => nomatch h
    | some text => exact fun entry h => not_blank_of_read h
  rw [PublisherSettings.blankKey?, Option.map_eq_none_iff, List.find?_eq_none]
  exact fun entry h => ne_true_of_eq_false (hkeys entry h)

end ServiceSettings

theorem PublisherSettings.fault?_ne_of_blankKey? {settings : PublisherSettings}
    (h : settings.blankKey? = none) (name : String) :
    settings.fault? ≠ some (.blankRoutingKey name) := by
  unfold fault?
  rw [h]
  split_ifs <;> simp

/-- A table of routing keys that is written down as pairs in any order, with any blanks around the names
and the keys and any pieces among them that are no pairs, is what the settings are read to have.
Whatever the environment is, a blank routing key is never what is wrong with the settings. -/
theorem routing_keys_recovered :
    (∀ (keys : Table String) (pieces : List RoutingPiece) (lookup : String → Option String),
      (∀ entry ∈ keys.entries, Routable entry.1 entry.2) →
      (pieces.filterMap RoutingPiece.entry?).Perm keys.entries →
      lookup "OUTBOX_ROUTING_KEYS" = some (RoutingPiece.joined pieces) →
      (ServiceSettings.ofLookup lookup).publishing.routingKeys = keys) ∧
    ∀ (lookup : String → Option String) (name : String),
      (ServiceSettings.ofLookup lookup).publishing.fault? ≠ some (.blankRoutingKey name) := by
  constructor
  · intro keys pieces lookup hroutable hperm hlookup
    calc (ServiceSettings.ofLookup lookup).publishing.routingKeys
        = readRoutingKeys (RoutingPiece.joined pieces) := by
          rw [ServiceSettings.routingKeys_ofLookup, hlookup]
          rfl
      _ = Table.ofList (pieces.filterMap RoutingPiece.entry?) :=
          RoutingPiece.readRoutingKeys_joined fun entry h => hroutable entry (hperm.mem_iff.1 h)
      _ = keys := Table.ofList_of_perm hperm
  · intro lookup name
    exact PublisherSettings.fault?_ne_of_blankKey? (ServiceSettings.blankKey?_ofLookup lookup) name

/-- The routing keys of two types, for use in examples.  One has equals signs at its start and inside. -/
def orderKeys : Table String :=
  ⟨[("OrderCancelledV1", "=cancelled=v1"), ("OrderPlacedV1", "orders.placed")],
    List.pairwise_pair.2 (by decide)⟩

/-- Both of them, the later name first, with no pairs of each kind around them. -/
def orderPieces : List RoutingPiece :=
  [.noPair "Bad" (.noEquals (by simp)) (by simp),
    .pair ⟨⟨" ", rfl⟩, "OrderPlacedV1", ⟨"\t", rfl⟩⟩ ⟨⟨"", rfl⟩, "orders.placed", ⟨"\u3000", rfl⟩⟩,
    .noPair " =x=y" (.nameless ⟨" ", rfl⟩ "x=y") (by simp),
    .noPair "" (.noEquals (by simp)) (by simp),
    .pair ⟨⟨"", rfl⟩, "OrderCancelledV1", ⟨"", rfl⟩⟩ ⟨⟨"", rfl⟩, "=cancelled=v1", ⟨" ", rfl⟩⟩,
    .noPair "Probe= " (@Malformed.keyless "Probe" (by simp) ⟨" ", rfl⟩) (by simp)]

def orderEnvironment (name : String) : Option String :=
  if name = "OUTBOX_ROUTING_KEYS" then
    some "Bad, OrderPlacedV1\t=orders.placed\u3000, =x=y,,OrderCancelledV1==cancelled=v1 ,Probe= "
  else none

theorem orderKeys_recovered :
    (∀ entry ∈ orderKeys.entries, Routable entry.1 entry.2) ∧
      (orderPieces.filterMap RoutingPiece.entry?).Perm orderKeys.entries ∧
      orderEnvironment "OUTBOX_ROUTING_KEYS" = some (RoutingPiece.joined orderPieces) ∧
      (ServiceSettings.ofLookup orderEnvironment).publishing.routingKeys = orderKeys ∧
      ∀ name, (ServiceSettings.ofLookup orderEnvironment).publishing.fault? ≠
        some (.blankRoutingKey name) := by
  have hroutable : ∀ entry ∈ orderKeys.entries, Routable entry.1 entry.2 := by
    simp [orderKeys, routable_iff, bare_iff, isBlank]
  have hperm : (orderPieces.filterMap RoutingPiece.entry?).Perm orderKeys.entries :=
    List.Perm.swap ..
  have hlookup : orderEnvironment "OUTBOX_ROUTING_KEYS" =
      some (RoutingPiece.joined orderPieces) := by
    simp [orderEnvironment, RoutingPiece.joined, orderPieces, RoutingPiece.text, Padded.written]
  obtain ⟨hread, hvalid⟩ := routing_keys_recovered
  exact ⟨hroutable, hperm, hlookup, hread _ _ _ hroutable hperm hlookup, hvalid _⟩

end Courier
