/-
Blank text.  A character is blank when it has the Unicode property White_Space; trimming drops the
blanks at both ends and touches nothing in between.
-/
namespace Courier

/-- The 25 characters with the Unicode property White_Space. -/
def isBlank (c : Char) : Bool :=
  let n := c.toNat
  (9 ≤ n && n ≤ 13) || n == 0x20 || n == 0x85 || n == 0xA0 || n == 0x1680 ||
    (0x2000 ≤ n && n ≤ 0x200A) || n == 0x2028 || n == 0x2029 || n == 0x202F ||
    n == 0x205F || n == 0x3000

def trimLeft (text : List Char) : List Char :=
  text.dropWhile isBlank

def trim (text : List Char) : List Char :=
  (trimLeft (trimLeft text).reverse).reverse

/-- A text without its outer blanks. -/
def trimmed (text : String) : String :=
  String.ofList (trim text.toList)

/-- Nothing but blanks. -/
def allBlank (text : String) : Bool :=
  text.toList.all isBlank

theorem trimLeft_eq_nil_iff (text : List Char) :
    trimLeft text = [] ↔ ∀ c ∈ text, isBlank c = true := by
  induction text with
  | nil => simp [trimLeft]
  | cons c rest ih =>
      by_cases hc : isBlank c = true
      · have step : trimLeft (c :: rest) = trimLeft rest := by simp [trimLeft, hc]
        rw [step, ih]
        simp [hc]
      · simp [trimLeft, hc]

theorem trim_eq_nil_iff (text : List Char) :
    trim text = [] ↔ ∀ c ∈ text, isBlank c = true := by
  rw [trim, List.reverse_eq_nil_iff, trimLeft_eq_nil_iff, ← trimLeft_eq_nil_iff text]
  constructor
  · intro h
    cases hleft : trimLeft text with
    | nil => rfl
    | cons c rest =>
        have hc : isBlank c = true := h c (by simp [hleft])
        have hhead : ∀ s : List Char, trimLeft s = c :: rest → isBlank c = false := by
          intro s
          induction s with
          | nil => simp [trimLeft]
          | cons d tail ih =>
              by_cases hd : isBlank d = true
              · simpa [trimLeft, hd] using ih
              · simp only [trimLeft, List.dropWhile_cons, hd]
                intro heq
                simp only [Bool.false_eq_true, ↓reduceIte, List.cons.injEq] at heq
                simpa [← heq.1] using hd
        simp [hhead text hleft] at hc
  · intro h
    simp [h]

theorem allBlank_iff {text : String} : allBlank text = true ↔ ∀ c ∈ text.toList, isBlank c = true :=
  List.all_eq_true

section trimming

variable {text front back : List Char}

/-- Nothing but blanks is dropped in front. -/
theorem mem_trimLeft_iff {c : Char} (hc : isBlank c = false) : c ∈ trimLeft text ↔ c ∈ text := by
  induction text with
  | nil => rfl
  | cons d rest ih =>
      cases hd : isBlank d with
      | false => simp [trimLeft, hd]
      | true =>
          have hne : c ≠ d := by
            rintro rfl
            simp [hc] at hd
          have step : trimLeft (d :: rest) = trimLeft rest := by simp [trimLeft, hd]
          rw [step, ih, List.mem_cons, or_iff_right hne]

theorem mem_trim_iff {c : Char} (hc : isBlank c = false) : c ∈ trim text ↔ c ∈ text := by
  rw [trim, List.mem_reverse, mem_trimLeft_iff hc, List.mem_reverse, mem_trimLeft_iff hc]

/-- What trimming leaves is blank only when it leaves nothing. -/
theorem allBlank_trim (h : trim text ≠ []) : allBlank (String.ofList (trim text)) = false := by
  rw [← Bool.not_eq_true, allBlank_iff, String.toList_ofList]
  intro hblank
  refine h ((trim_eq_nil_iff text).2 fun c hc => ?_)
  cases hkept : isBlank c with
  | true => rfl
  | false => exact hkept ▸ hblank c ((mem_trim_iff hkept).2 hc)

theorem trimLeft_append (hfront : ∀ c ∈ front, isBlank c = true)
    (hfirst : ∀ c ∈ text.head?, isBlank c = false) : trimLeft (front ++ text) = text := by
  rw [trimLeft, List.dropWhile_append_of_pos hfront]
  cases text with
  | nil => rfl
  | cons c rest => simp [hfirst c rfl]

/-- Blanks at both ends of a text that has none there itself are all that is dropped. -/
theorem trim_append (hfront : ∀ c ∈ front, isBlank c = true) (hback : ∀ c ∈ back, isBlank c = true)
    (hsome : text ≠ []) (hfirst : ∀ c ∈ text.head?, isBlank c = false)
    (hlast : ∀ c ∈ text.getLast?, isBlank c = false) : trim (front ++ text ++ back) = text := by
  have hhead : ∀ c ∈ (text ++ back).head?, isBlank c = false := by
    cases text with
    | nil => exact absurd rfl hsome
    | cons c rest => exact hfirst
  have hleft : trimLeft (front ++ text ++ back) = text ++ back := by
    rw [List.append_assoc, trimLeft_append hfront hhead]
  have hright : trimLeft (back.reverse ++ text.reverse) = text.reverse :=
    trimLeft_append (by simpa using hback) (by simpa using hlast)
  rw [trim, hleft, List.reverse_append, hright, List.reverse_reverse]

end trimming

end Courier
