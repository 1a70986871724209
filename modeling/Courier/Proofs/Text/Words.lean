import Courier.Text.Underscored
import Mathlib.Data.List.Chain
/-
Words in names.  A name that is put together from words, acronyms among them, is taken apart at their
bounds and nowhere else, as long as the bounds can be seen.  Whatever the name is, its underscored form
has the same characters in the same order, with its capitals in lower case and some underscores between
them.
-/
namespace Courier

/-- A lower-case letter or a digit. -/
def IsSmall (c : Char) : Prop :=
  c.isLower = true ∨ c.isDigit = true

instance : DecidablePred IsSmall := fun c =>
  inferInstanceAs (Decidable (c.isLower = true ∨ c.isDigit = true))

section characters

variable {c : Char}

theorem isUpper_eq (c : Char) : c.isUpper = decide ('A' ≤ c ∧ c ≤ 'Z') :=
  rfl

theorem isLower_eq (c : Char) : c.isLower = ('a' ≤ c && c ≤ 'z') :=
  rfl

theorem isUpper_iff_toNat : c.isUpper = true ↔ 65 ≤ c.toNat ∧ c.toNat ≤ 90 := by
  simp [isUpper_eq, Char.le_def, UInt32.le_iff_toNat_le, ← Char.toNat_val]

theorem isLower_iff_toNat : c.isLower = true ↔ 97 ≤ c.toNat ∧ c.toNat ≤ 122 := by
  simp [isLower_eq, Char.le_def, UInt32.le_iff_toNat_le, ← Char.toNat_val]

theorem isUpper_of_ascii (h : c.toNat < 128) : isUpper c = c.isUpper := by
  simp [isUpper, h, isUpper_eq, Bool.decide_and]

theorem isLower_of_ascii (h : c.toNat < 128) : isLower c = c.isLower := by
  simp [isLower, h, isLower_eq]

theorem isDigit_eq (c : Char) : isDigit c = c.isDigit := by
  simp [isDigit, Char.isDigit, Char.le_def]

theorem ascii_of_isUpper (h : c.isUpper = true) : c.toNat < 128 := by
  have := isUpper_iff_toNat.1 h
  omega

theorem isUpper_of_capital (h : c.isUpper = true) : isUpper c = true :=
  (isUpper_of_ascii (ascii_of_isUpper h)).trans h

theorem isLower_of_capital (h : c.isUpper = true) : isLower c = false := by
  rw [isLower_of_ascii (ascii_of_isUpper h), ← Bool.not_eq_true, isLower_iff_toNat]
  have := isUpper_iff_toNat.1 h
  omega

theorem isDigit_of_capital (h : c.isUpper = true) : isDigit c = false := by
  rw [isDigit_eq, ← Bool.not_eq_true, Char.isDigit_iff_toNat]
  rintro ⟨_, hlast⟩
  change c.toNat ≤ 57 at hlast
  have := isUpper_iff_toNat.1 h
  omega

/-- The digits lie below the capitals, and the small letters above them. -/
theorem IsSmall.toNat (h : IsSmall c) : c.toNat < 65 ∨ 97 ≤ c.toNat ∧ c.toNat < 128 := by
  rcases h with hlower | hdigit
  · have := isLower_iff_toNat.1 hlower
    omega
  · have hlast : c.toNat ≤ 57 := (Char.isDigit_iff_toNat.1 hdigit).2
    omega

theorem IsSmall.not_capital (h : IsSmall c) : c.isUpper = false := by
  rw [← Bool.not_eq_true, isUpper_iff_toNat]
  have := h.toNat
  omega

theorem IsSmall.ascii (h : IsSmall c) : c.toNat < 128 := by
  have := h.toNat
  omega

theorem IsSmall.isUpper (h : IsSmall c) : isUpper c = false :=
  (isUpper_of_ascii h.ascii).trans h.not_capital

theorem IsSmall.closes (h : IsSmall c) : (isLower c || isDigit c) = true := by
  rw [isLower_of_ascii h.ascii, isDigit_eq, Bool.or_eq_true]
  exact h

theorem IsSmall.ne_underscore (h : IsSmall c) : c ≠ '_' := by
  rintro rfl
  have := h.toNat
  simp at this

theorem toLower_of_not_capital (h : c.isUpper = false) : c.toLower = c := by
  refine dif_neg fun hrange => Bool.false_ne_true (h.symm.trans ?_)
  exact decide_eq_true hrange

theorem toNat_toLower (h : c.isUpper = true) : c.toLower.toNat = c.toNat + 32 := by
  have hrange : c.val ≥ 'A'.val ∧ c.val ≤ 'Z'.val := of_decide_eq_true h
  have hbound := (isUpper_iff_toNat.1 h).2
  have hval : c.toLower.val = c.val + 32 := congrArg Char.val (dif_pos hrange)
  rw [← Char.toNat_val, hval, UInt32.toNat_add, Char.toNat_val]
  exact Nat.mod_eq_of_lt (by simp; omega)

theorem lowered_of_capital (h : c.isUpper = true) : lowered c = [c.toLower] := by
  have hhere : ('A' ≤ c && c ≤ 'Z') = true := by simpa [isUpper_eq] using h
  unfold lowered
  rw [if_pos (ascii_of_isUpper h), if_pos hhere, ← toNat_toLower h, Char.ofNat_toNat]

/-- No capital is left of one. -/
theorem isUpper_toLower (h : c.isUpper = true) : isUpper c.toLower = false := by
  have hrange := isUpper_iff_toNat.1 h
  have hcode := toNat_toLower h
  rw [isUpper_of_ascii (by omega), ← Bool.not_eq_true, isUpper_iff_toNat]
  omega

theorem toLower_ne_underscore (h : c ≠ '_') : c.toLower ≠ '_' := by
  cases hupper : c.isUpper with
  | false =>
      rw [toLower_of_not_capital hupper]
      exact h
  | true =>
      have hrange := isUpper_iff_toNat.1 hupper
      have hcode := toNat_toLower hupper
      intro heq
      rw [heq] at hcode
      change 95 = c.toNat + 32 at hcode
      omega

end characters

/-- A word of a name: an acronym, which is all capitals, or a capital with small letters and digits
after it. -/
inductive Word where
  | acronym (first : Char) (more : List Char) (capitals : ∀ c ∈ first :: more, c.isUpper = true)
  | capitalised (first second : Char) (more : List Char) (capital : first.isUpper = true)
      (small : ∀ c ∈ second :: more, IsSmall c)

namespace Word

def first : Word → Char
  | .acronym first _ _ => first
  | .capitalised first _ _ _ _ => first

def tail : Word → List Char
  | .acronym _ more _ => more
  | .capitalised _ second more _ _ => second :: more

def letters (word : Word) : List Char :=
  word.first :: word.tail

def last (word : Word) : Char :=
  word.letters.getLast (List.cons_ne_nil _ _)

def text (word : Word) : String :=
  String.ofList word.letters

/-- The bound between a word and the next one can be seen.  After an acronym it cannot when the next word
is an acronym too, or has a digit in the second place. -/
def MayPrecede : Word → Word → Prop
  | .acronym _ _ _, .acronym _ _ _ => False
  | .acronym _ _ _, .capitalised _ second _ _ _ => second.isLower = true
  | .capitalised _ _ _ _ _, _ => True

theorem first_capital (word : Word) : word.first.isUpper = true := by
  cases word with
  | acronym first more capitals => exact capitals first List.mem_cons_self
  | capitalised first second more capital small => exact capital

end Word

/-- A capital does not open a word inside a run of capitals that no small letter ends. -/
theorem opensWord_capitals {before : Char} (hbefore : before.isUpper = true) {after : Option Char}
    (hafter : ∀ c ∈ after, isLower c = false) : opensWord (some before) after = false := by
  have hend : after.any isLower = false := by
    cases after with
    | none => rfl
    | some c => exact hafter c rfl
  simp [opensWord, isLower_of_capital hbefore, isDigit_of_capital hbefore, hend]

/-- Small letters and digits stay as they are. -/
theorem underscoredFrom_small {cs : List Char} (h : ∀ c ∈ cs, IsSmall c) (before : Char)
    (rest : List Char) :
    underscoredFrom (some before) (cs ++ rest) = cs.map Char.toLower ++
      underscoredFrom (some ((before :: cs).getLast (List.cons_ne_nil _ _))) rest := by
  induction cs generalizing before with
  | nil => rfl
  | cons c more ih =>
      obtain ⟨hc, hmore⟩ := List.forall_mem_cons.1 h
      simp [hc.isUpper, toLower_of_not_capital hc.not_capital, ih hmore c]

/-- A run of capitals is only lower-cased, when a capital or nothing comes after it. -/
theorem underscoredFrom_capitals {cs rest : List Char} (h : ∀ c ∈ cs, c.isUpper = true)
    (hrest : ∀ c ∈ rest.head?, c.isUpper = true) {before : Char} (hbefore : before.isUpper = true) :
    underscoredFrom (some before) (cs ++ rest) = cs.map Char.toLower ++
      underscoredFrom (some ((before :: cs).getLast (List.cons_ne_nil _ _))) rest := by
  induction cs generalizing before with
  | nil => rfl
  | cons c more ih =>
      obtain ⟨hc, hmore⟩ := List.forall_mem_cons.1 h
      have hnext : ∀ d ∈ (more ++ rest).head?, isLower d = false := by
        intro d hd
        cases more with
        | nil => exact isLower_of_capital (hrest d hd)
        | cons next others =>
            obtain rfl : next = d := Option.some.inj hd
            exact isLower_of_capital (hmore next List.mem_cons_self)
      have hstays : opensWord (some before) (more ++ rest).head? = false :=
        opensWord_capitals hbefore hnext
      rw [List.cons_append, underscoredFrom_cons_of_isUpper _ _ (isUpper_of_capital hc), hstays,
        lowered_of_capital hc, ih hmore hc]
      rfl

namespace Word

/-- Inside a word nothing is opened, when a capital or nothing comes after it. -/
theorem underscoredFrom_letters (word : Word) {rest : List Char}
    (hrest : ∀ c ∈ rest.head?, c.isUpper = true) (before : Option Char) :
    underscoredFrom before (word.letters ++ rest) =
      (if opensWord before (word.tail ++ rest).head? then ['_'] else []) ++
        word.letters.map Char.toLower ++ underscoredFrom (some word.last) rest := by
  have htail : underscoredFrom (some word.first) (word.tail ++ rest) =
      word.tail.map Char.toLower ++ underscoredFrom (some word.last) rest := by
    cases word with
    | acronym first more capitals =>
        obtain ⟨hfirst, hmore⟩ := List.forall_mem_cons.1 capitals
        exact underscoredFrom_capitals hmore hrest hfirst
    | capitalised first second more capital small =>
        exact underscoredFrom_small small first rest
  simp [letters, isUpper_of_capital, lowered_of_capital, word.first_capital, htail]

/-- Where the bound can be seen, the next word is opened. -/
theorem MayPrecede.opens {word next : Word} (h : word.MayPrecede next) (rest : List Char) :
    opensWord (some word.last) (next.tail ++ rest).head? = true := by
  cases word with
  | capitalised first second more capital small =>
      have hlast : IsSmall ((second :: more).getLast (List.cons_ne_nil _ _)) :=
        small _ (List.getLast_mem _)
      have heq : (capitalised first second more capital small).last =
          (second :: more).getLast (List.cons_ne_nil _ _) :=
        List.getLast_cons_cons
      rw [heq]
      simp only [opensWord, hlast.ne_underscore, hlast.closes, ↓reduceIte]
  | acronym first more capitals =>
      cases next with
      | acronym _ _ _ => exact h.elim
      | capitalised _ second others _ _ =>
          have hsecond : second.isLower = true := h
          have hlast : (acronym first more capitals).last.isUpper = true :=
            capitals _ (List.getLast_mem _)
          have hlower : isLower second = true :=
            (isLower_of_ascii (IsSmall.ascii (Or.inl hsecond))).trans hsecond
          have hne : (acronym first more capitals).last ≠ '_' := by
            intro heq
            rw [heq] at hlast
            cases hlast
          simp [opensWord, hne, isUpper_of_capital hlast, tail, hlower]

/-- What the words come to when they are written one after another. -/
def run (words : List Word) : List Char :=
  words.flatMap letters

theorem head_run (words : List Word) : ∀ c ∈ (run words).head?, c.isUpper = true := by
  cases words with
  | nil => exact fun c hc => nomatch hc
  | cons word more =>
      intro c hc
      obtain rfl : word.first = c := Option.some.inj hc
      exact word.first_capital

/-- Every word after another one is opened, and nothing else is. -/
theorem underscoredFrom_run {word : Word} {words : List Word} (h : (word :: words).IsChain MayPrecede) :
    underscoredFrom (some word.last) (run words) =
      words.flatMap fun next => '_' :: next.letters.map Char.toLower := by
  induction words generalizing word with
  | nil => rfl
  | cons next more ih =>
      obtain ⟨hbound, hmore⟩ := List.isChain_cons_cons.1 h
      change underscoredFrom (some word.last) (next.letters ++ run more) = _
      rw [next.underscoredFrom_letters (head_run more), if_pos (hbound.opens _), ih hmore]
      rfl

end Word

theorem intercalate_eq_flatMap (between first : List Char) (more : List (List Char)) :
    between.intercalate (first :: more) = first ++ more.flatMap (between ++ ·) := by
  induction more generalizing first with
  | nil => simp
  | cons next others ih =>
      rw [List.intercalate_cons_cons, ih, List.flatMap_cons, List.append_assoc, List.append_assoc]

/-- One text is another with capitals in lower case and underscores put in, none of them at the start
and none after an underscore.  `before` is the character that was written last. -/
inductive Respelled : Option Char → List Char → List Char → Prop where
  | nothing (before : Option Char) : Respelled before [] []
  | kept {before : Option Char} {c : Char} {text written : List Char}
      (h : Respelled (some c) text written) : Respelled before (c :: text) (c :: written)
  | lowered {before : Option Char} {c : Char} {text written : List Char} (capital : c.isUpper = true)
      (h : Respelled (some c.toLower) text written) :
      Respelled before (c :: text) (c.toLower :: written)
  | underscore {before : Char} {text written : List Char} (other : before ≠ '_')
      (h : Respelled (some '_') text written) : Respelled (some before) text ('_' :: written)

theorem ne_underscore_of_opensWord {before : Char} {after : Option Char}
    (h : opensWord (some before) after = true) : before ≠ '_' := by
  rintro rfl
  exact absurd h (by simp [opensWord])

section ascii

variable {cs : List Char} (hascii : ∀ c ∈ cs, c.toNat < 128)

include hascii

theorem respelled_underscoredFrom (before : Option Char) :
    Respelled (before.map Char.toLower) cs (underscoredFrom before cs) := by
  induction cs generalizing before with
  | nil => exact .nothing _
  | cons c rest ih =>
      obtain ⟨hc, hrest⟩ := List.forall_mem_cons.1 hascii
      have hnext := ih hrest (some c)
      cases hupper : c.isUpper with
      | false =>
          rw [Option.map_some, toLower_of_not_capital hupper] at hnext
          rw [underscoredFrom_cons_of_not_isUpper _ _ ((isUpper_of_ascii hc).trans hupper)]
          exact .kept hnext
      | true =>
          have hlowered : Respelled (before.map Char.toLower) (c :: rest)
              (c.toLower :: underscoredFrom (some c) rest) := .lowered hupper hnext
          rw [underscoredFrom_cons_of_isUpper _ _ (isUpper_of_capital hupper),
            lowered_of_capital hupper]
          cases hopens : opensWord before rest.head? with
          | false => exact hlowered
          | true =>
              cases before with
              | none => cases hopens
              | some b =>
                  have hb := toLower_ne_underscore (ne_underscore_of_opensWord hopens)
                  exact .underscore hb (.lowered hupper hnext)

theorem no_capital_left (before : Option Char) :
    ∀ c ∈ underscoredFrom before cs, isUpper c = false := by
  induction cs generalizing before with
  | nil => exact fun c hc => nomatch hc
  | cons c rest ih =>
      obtain ⟨hc, hrest⟩ := List.forall_mem_cons.1 hascii
      cases hupper : c.isUpper with
      | false =>
          have hsmall : isUpper c = false := (isUpper_of_ascii hc).trans hupper
          rw [underscoredFrom_cons_of_not_isUpper _ _ hsmall]
          exact List.forall_mem_cons.2 ⟨hsmall, ih hrest _⟩
      | true =>
          rw [underscoredFrom_cons_of_isUpper _ _ (isUpper_of_capital hupper),
            lowered_of_capital hupper]
          intro d hd
          rcases List.mem_append.1 hd with hd | hd
          · rcases List.mem_append.1 hd with hd | hd
            · split at hd
              · obtain rfl := List.mem_singleton.1 hd
                decide
              · cases hd
            · obtain rfl := List.mem_singleton.1 hd
              exact isUpper_toLower hupper
          · exact ih hrest _ d hd

end ascii

/-- Without capitals there is nothing to do. -/
theorem underscoredFrom_of_no_capital {cs : List Char} (h : ∀ c ∈ cs, isUpper c = false)
    (before : Option Char) : underscoredFrom before cs = cs := by
  induction cs generalizing before with
  | nil => rfl
  | cons c rest ih =>
      obtain ⟨hc, hrest⟩ := List.forall_mem_cons.1 h
      rw [underscoredFrom_cons_of_not_isUpper _ _ hc, ih hrest]

theorem toList_toLower (text : String) : text.toLower.toList = text.toList.map Char.toLower :=
  String.toList_map

/-- A name that is put together from words with visible bounds is taken apart into them.  The
underscored form of any name in ASCII is the name with its capitals in lower case and underscores put
in, never at the start and never after another underscore, and it is its own underscored form. -/
theorem names_respelled :
    (∀ words : List Word, words.IsChain Word.MayPrecede →
      underscored (String.join (words.map Word.text)) =
        "_".intercalate (words.map fun word => word.text.toLower)) ∧
    ∀ name : String, (∀ c ∈ name.toList, c.toNat < 128) →
      Respelled none name.toList (underscored name).toList ∧
        underscored (underscored name) = underscored name := by
  refine ⟨fun words h => String.toList_injective ?_, fun name hascii => ⟨?_, ?_⟩⟩
  · have htexts : (String.join (words.map Word.text)).toList = Word.run words := by
      simp [Word.run, Word.text, List.flatMap_map]
    rw [underscored, String.toList_ofList, htexts, String.toList_intercalate]
    cases words with
    | nil => rfl
    | cons word more =>
        change underscoredFrom none (word.letters ++ Word.run more) = _
        rw [word.underscoredFrom_letters (Word.head_run more), Word.underscoredFrom_run h,
          List.map_cons, List.map_cons, intercalate_eq_flatMap]
        simp [opensWord, Word.text, toList_toLower, List.flatMap_map]
  · rw [underscored, String.toList_ofList]
    exact respelled_underscoredFrom hascii none
  · rw [underscored, underscored, String.toList_ofList,
      underscoredFrom_of_no_capital (no_capital_left hascii none)]

/-- Two acronyms, each kept apart from the capitalised words beside it, for use in examples. -/
def requestWords : List Word :=
  [.acronym 'H' ['T', 'T', 'P'] (by simp), .capitalised 'G' 'e' ['t'] rfl (by simp [IsSmall]),
    .capitalised 'V' '2' [] rfl (by simp [IsSmall]), .acronym 'I' ['D'] (by simp)]

/-- A name with an underscore of its own before a capital, and one at its end. -/
theorem httpGetV2ID_respelled :
    requestWords.IsChain Word.MayPrecede ∧
      underscored "HTTPGetV2ID" = "http_get_v2_id" ∧
      (∀ c ∈ "My_OldName_".toList, c.toNat < 128) ∧
      Respelled none "My_OldName_".toList (underscored "My_OldName_").toList ∧
      underscored (underscored "My_OldName_") = underscored "My_OldName_" ∧
      underscored "My_OldName_" = "my_old_name_" := by
  have hwords : requestWords.IsChain Word.MayPrecede := by
    unfold requestWords
    simp only [List.isChain_cons_cons, List.isChain_singleton, and_true]
    exact ⟨rfl, trivial, trivial⟩
  have hname : String.join (requestWords.map Word.text) = "HTTPGetV2ID" := by decide +kernel
  have hwritten : "_".intercalate (requestWords.map fun word => word.text.toLower) =
      "http_get_v2_id" := by decide +kernel
  have hascii : ∀ c ∈ "My_OldName_".toList, c.toNat < 128 := by simp
  obtain ⟨hrespelled, hagain⟩ := names_respelled.2 "My_OldName_" hascii
  have hjoined := names_respelled.1 requestWords hwords
  rw [hname, hwritten] at hjoined
  exact ⟨hwords, hjoined, hascii, hrespelled, hagain, by decide +kernel⟩

end Courier
