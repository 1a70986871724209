import Courier.Envelope.Wire
import Courier.Proofs.Table
import Courier.Proofs.Time.Text
/-
The wire form loses nothing.  Identifiers, instants, headers and whole envelopes read from what was
written of them as they were.
-/
namespace Courier

theorem hexValue?_hexDigit : ∀ n < 16, hexValue? (hexDigit n) = some n := by
  decide

theorem length_hexDigits (width n : Nat) : (hexDigits width n).length = width := by
  induction width generalizing n with
  | zero => rfl
  | succ width ih => simp [hexDigits, ih]

theorem readHexFrom_append (value : Nat) (digits more : List Char) :
    readHexFrom value (digits ++ more) = (readHexFrom value digits).bind (readHexFrom · more) := by
  induction digits generalizing value with
  | nil => rfl
  | cons c digits ih =>
      simp only [List.cons_append, readHexFrom]
      cases hexValue? c with
      | none => rfl
      | some d => exact ih _

theorem readHex?_hexDigits {width n : Nat} (h : n < Nat.pow 16 width) :
    readHex? (hexDigits width n) = some n := by
  induction width generalizing n with
  | zero => exact congrArg some (Nat.lt_one_iff.1 h).symm
  | succ width ih =>
      have hhigh : n / 16 < Nat.pow 16 width := by
        have hless : n < Nat.pow 16 width * 16 := h
        omega
      have hlast := hexValue?_hexDigit _ (Nat.mod_lt n (show 0 < 16 by decide))
      have hfirst : readHexFrom 0 (hexDigits width (n / 16)) = some (n / 16) := ih hhigh
      simp only [readHex?, hexDigits, readHexFrom_append, hfirst, Option.bind_some, readHexFrom, hlast]
      exact congrArg some (Nat.div_add_mod' n 16)

namespace Uuid

/-- Five groups of digits with hyphens between them are read as the digits without the hyphens. -/
theorem ofHyphenated?_groups {a b c d e : List Char} (ha : a.length = 8) (hb : b.length = 4)
    (hc : c.length = 4) (hd : d.length = 4) (he : e.length = 12) :
    ofHyphenated? (a ++ '-' :: b ++ '-' :: c ++ '-' :: d ++ '-' :: e) =
      ofDigits? (a ++ b ++ c ++ d ++ e) := by
  unfold ofHyphenated?
  simp [ha, hb, hc, hd, he, List.drop_append, List.drop_eq_nil_of_le]

theorem ofDigits?_hexDigits (u : Uuid) : ofDigits? (hexDigits 32 u.bits.toNat) = some u := by
  have hlt : u.bits.toNat < Nat.pow 16 32 := u.bits.isLt
  simp only [ofDigits?, length_hexDigits, ↓reduceIte, readHex?_hexDigits hlt, Option.map_some, ofNat,
    BitVec.ofNat_toNat, BitVec.setWidth_eq]

/-- The groups of 32 digits, one after another. -/
theorem groups_append (digits : List Char) :
    digits.take 8 ++ (digits.drop 8).take 4 ++ (digits.drop 12).take 4 ++ (digits.drop 16).take 4 ++
      digits.drop 20 = digits := by
  have hnext : ∀ start, (digits.drop start).take 4 ++ digits.drop (start + 4) = digits.drop start := by
    intro start
    rw [← List.drop_drop]
    exact List.take_append_drop 4 _
  rw [List.append_assoc, hnext 16, List.append_assoc, hnext 12, List.append_assoc, hnext 8]
  exact List.take_append_drop 8 digits

theorem read?_text (u : Uuid) : read? u.text = some u := by
  have hread := u.ofDigits?_hexDigits
  have hlength := length_hexDigits 32 u.bits.toNat
  unfold text
  generalize hexDigits 32 u.bits.toNat = digits at hread hlength
  have hgroups : ofHyphenated? (digits.take 8 ++ '-' :: (digits.drop 8).take 4 ++
      '-' :: (digits.drop 12).take 4 ++ '-' :: (digits.drop 16).take 4 ++ '-' :: digits.drop 20) =
        some u := by
    rw [ofHyphenated?_groups (by simp [hlength]) (by simp [hlength]) (by simp [hlength])
      (by simp [hlength]) (by simp [hlength]), groups_append]
    exact hread
  have hchars : (digits.take 8 ++ '-' :: (digits.drop 8).take 4 ++ '-' :: (digits.drop 12).take 4 ++
      '-' :: (digits.drop 16).take 4 ++ '-' :: digits.drop 20).length = 36 := by
    simp [hlength]
  simp only [read?, String.toList_ofList, hchars]
  simpa using hgroups

end Uuid

theorem MessageId.read?_text (id : MessageId) : MessageId.read? id.text = some id := by
  rw [read?, text, Uuid.read?_text]
  rfl

theorem CorrelationId.read?_text (id : CorrelationId) : CorrelationId.read? id.text = some id := by
  rw [read?, text, Uuid.read?_text]
  rfl

theorem headersOfJson?_entries (headers : Table String) :
    headersOfJson? (.obj (headers.entries.map fun (name, value) => (name, .str value))) =
      some headers := by
  have hmembers : ∀ entries : List (String × String),
      (entries.map fun (name, value) => (name, Json.str value)).mapM headerOfMember? =
        some entries := by
    intro entries
    induction entries with
    | nil => rfl
    | cons entry rest ih =>
        rw [List.map_cons, List.mapM_cons, ih]
        rfl
  rw [headersOfJson?, hmembers, Option.map_some, Table.ofList_of_perm (.refl _)]

theorem messageIdOfJson?_text (id : MessageId) : messageIdOfJson? (.str id.text) = some id := by
  simp only [messageIdOfJson?, Json.string?, Option.bind_some, id.read?_text]

theorem correlationIdOfJson?_text (id : CorrelationId) :
    correlationIdOfJson? (.str id.text) = some id := by
  simp only [correlationIdOfJson?, Json.string?, Option.bind_some, id.read?_text]

theorem Metadata.ofJson?_toJson (metadata : Metadata) :
    Metadata.ofJson? metadata.toJson = some metadata := by
  obtain ⟨messageId, correlationId, causationId, createdAt, headers⟩ := metadata
  have hcausation : optionalField? messageIdOfJson?
      (some (.ofText? (causationId.map MessageId.text))) = some causationId := by
    cases causationId with
    | none => rfl
    | some id => simp only [Option.map_some, Json.ofText?, optionalField?, messageIdOfJson?_text]
  have hfields : (toJson ⟨messageId, correlationId, causationId, createdAt, headers⟩).record?
      fieldNames 4 = some [some (.str messageId.text), some (.str correlationId.text),
        some (.ofText? (causationId.map MessageId.text)), some (.str createdAt.text),
        some (.obj (headers.entries.map fun (name, value) => (name, .str value)))] := rfl
  simp only [ofJson?, hfields, neededField?, messageIdOfJson?_text, correlationIdOfJson?_text,
    hcausation, Json.string?, Option.bind_some, createdAt.read?_text, headersField?,
    headersOfJson?_entries, Option.bind_eq_bind]
  rfl

namespace RawEnvelope

theorem ofJson?_toJson (raw : RawEnvelope) : ofJson? (toJson raw) = some raw := by
  obtain ⟨message, metadata⟩ := raw
  have hfields : (toJson ⟨message, metadata⟩).record? fieldNames 2 =
      some [some message, some metadata.toJson] := rfl
  simp only [ofJson?, hfields, neededField?, Option.bind_eq_bind, Option.bind_some,
    metadata.ofJson?_toJson]
  rfl

/-- An envelope is restored from its stored form. -/
theorem ofJson_toJson (raw : RawEnvelope) : ofJson (toJson raw) = .ok raw := by
  rw [ofJson, ofJson?_toJson]

end RawEnvelope

end Courier
