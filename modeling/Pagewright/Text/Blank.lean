import Pagewright.Text.Characters

/-!
# Blank characters and trimming

Text is blank where it holds characters of the White_Space property only.
Labels, headings and names are trimmed by it on both sides.

## Main results

* `trim_eq_nil_iff` — trimming leaves nothing exactly of a blank text.
-/

namespace Pagewright.Text

/-- The characters with the White_Space property. -/
def blankRanges : Ranges :=
  [(0x9, 0xd), (0x20, 0x20), (0x85, 0x85), (0xa0, 0xa0), (0x1680, 0x1680), (0x2000, 0x200a),
   (0x2028, 0x2029), (0x202f, 0x202f), (0x205f, 0x205f), (0x3000, 0x3000)]

/-- Whether a character is blank. -/
def isBlank (c : Char) : Bool := blankRanges.contains c

/-- Every blank of core's narrower class is one here. -/
theorem isBlank_of_isWhitespace {c : Char} (h : c.isWhitespace = true) : isBlank c = true := by
  simp only [Char.isWhitespace, Bool.or_eq_true, decide_eq_true_eq] at h
  rcases h with ((rfl | rfl) | rfl) | rfl <;> decide

/-- The text without blanks at its end. -/
def trimEnd (text : List Char) : List Char := (text.reverse.dropWhile isBlank).reverse

/-- The text without blanks at either side. -/
def trim (text : List Char) : List Char := trimEnd (text.dropWhile isBlank)

private theorem dropWhile_blank_eq_nil_iff {text : List Char} :
    text.dropWhile isBlank = [] ↔ ∀ c ∈ text, isBlank c = true := by
  induction text with
  | nil => simp
  | cons c rest ih =>
    by_cases hc : isBlank c = true
    · simp [hc, ih]
    · simp [hc]

theorem trimEnd_eq_nil_iff {text : List Char} :
    trimEnd text = [] ↔ ∀ c ∈ text, isBlank c = true := by
  rw [trimEnd, List.reverse_eq_nil_iff, dropWhile_blank_eq_nil_iff]
  simp only [List.mem_reverse]

theorem trim_eq_nil_iff {text : List Char} :
    trim text = [] ↔ ∀ c ∈ text, isBlank c = true := by
  rw [trim, trimEnd_eq_nil_iff]
  induction text with
  | nil => simp
  | cons c rest ih =>
    by_cases hc : isBlank c = true
    · simp only [List.dropWhile_cons, hc, if_true, List.mem_cons, forall_eq_or_imp, true_and]
      exact ih
    · simp [hc]

/-- A string without blanks at either side. -/
def trimmed (s : String) : String := String.ofList (trim s.toList)

/-- Whether a string holds nothing but blanks. -/
def isBlankText (s : String) : Bool := s.toList.all isBlank

private theorem forall_dropWhile_blank_iff {text : List Char} :
    (∀ c ∈ text.dropWhile isBlank, isBlank c = true) ↔ ∀ c ∈ text, isBlank c = true := by
  induction text with
  | nil => rfl
  | cons c rest ih =>
    by_cases hc : isBlank c = true
    · simp [hc, ih]
    · simp [hc]

/-- Trimming takes blanks only, so it makes no text blank. -/
theorem isBlankText_trimmed (s : String) : isBlankText (trimmed s) = isBlankText s := by
  rw [Bool.eq_iff_iff, isBlankText, isBlankText, List.all_eq_true, List.all_eq_true, trimmed,
    String.toList_ofList, trim, trimEnd]
  simp only [List.mem_reverse]
  rw [forall_dropWhile_blank_iff]
  simp only [List.mem_reverse]
  exact forall_dropWhile_blank_iff

theorem trimmed_eq_empty_iff {s : String} : trimmed s = "" ↔ isBlankText s = true := by
  rw [trimmed, isBlankText, List.all_eq_true, ← trim_eq_nil_iff]
  constructor
  · intro h
    have := congrArg String.toList h
    simpa using this
  · intro h
    rw [h]

end Pagewright.Text
