/-!
# Searching text

Search, replacement and splitting on lists of characters, by recursion on the
text.

## Main results

* `splitOn_eq` — splitting is that of lists.
* `splitFirst_append_cons` — a text ends at the first separator behind it.
-/

namespace Pagewright.Text

/-- Whether `part` occurs somewhere in `text`. -/
def occursIn (part : List Char) : List Char → Bool
  | [] => part.isEmpty
  | c :: rest => part.isPrefixOf (c :: rest) || occursIn part rest

/-- Whether `part` occurs somewhere in the string. -/
def contains (s part : String) : Bool := occursIn part.toList s.toList

/-- Every `old` replaced by `new`. -/
def replaceChar (old new : Char) (text : List Char) : List Char :=
  text.map fun c => if c = old then new else c

theorem replaceChar_append (old new : Char) (text rest : List Char) :
    replaceChar old new (text ++ rest) = replaceChar old new text ++ replaceChar old new rest :=
  List.map_append

theorem replaceChar_of_not_mem {old new : Char} {text : List Char} (hNot : old ∉ text) :
    replaceChar old new text = text := by
  refine (List.map_congr_left fun c hMem => ?_).trans (List.map_id text)
  have hOther : c ≠ old := fun hOld => hNot (hOld ▸ hMem)
  exact if_neg hOther

/-- The parts between the separators, at least one. -/
def splitOn (separator : Char) : List Char → List (List Char)
  | [] => [[]]
  | c :: rest =>
    if c = separator then [] :: splitOn separator rest
    else match splitOn separator rest with
      | [] => [[c]]
      | part :: parts => (c :: part) :: parts

theorem splitOn_eq (separator : Char) (text : List Char) :
    splitOn separator text = text.splitOn separator := by
  induction text with
  | nil => rfl
  | cons c rest ih =>
    rw [splitOn, List.splitOn_cons_eq_if_modifyHead, ih]
    by_cases hSeparator : c = separator
    · simp [hSeparator]
    · rw [if_neg hSeparator, if_neg (by simpa using hSeparator)]
      cases hParts : rest.splitOn separator with
      | nil => exact absurd hParts (List.splitOn_ne_nil separator rest)
      | cons part parts => rfl

/-- The parts hold the characters of the text without the separator. -/
theorem mem_of_mem_splitOn {separator d : Char} {text part : List Char}
    (hPart : part ∈ splitOn separator text) (hMem : d ∈ part) : d ∈ text ∧ d ≠ separator := by
  induction text generalizing part with
  | nil => rw [List.mem_singleton.1 hPart] at hMem; cases hMem
  | cons c rest ih =>
    have hLater : ∀ {later}, later ∈ splitOn separator rest → d ∈ later →
        d ∈ c :: rest ∧ d ≠ separator :=
      fun hPart hMem => (ih hPart hMem).imp_left (List.mem_cons_of_mem c)
    rw [splitOn] at hPart
    by_cases hSeparator : c = separator
    · rw [if_pos hSeparator, List.mem_cons] at hPart
      rcases hPart with rfl | hPart
      · cases hMem
      · exact hLater hPart hMem
    · rw [if_neg hSeparator] at hPart
      have hFirst : d = c → d ∈ c :: rest ∧ d ≠ separator := by
        rintro rfl
        exact ⟨List.mem_cons_self, hSeparator⟩
      cases hParts : splitOn separator rest with
      | nil =>
        rw [hParts, List.mem_singleton] at hPart
        rw [hPart, List.mem_singleton] at hMem
        exact hFirst hMem
      | cons first parts =>
        rw [hParts, List.mem_cons] at hPart
        rcases hPart with rfl | hPart
        · rcases List.mem_cons.1 hMem with hHead | hMem
          · exact hFirst hHead
          · exact hLater (hParts ▸ List.mem_cons_self) hMem
        · exact hLater (hParts ▸ List.mem_cons_of_mem _ hPart) hMem

/-- The text before the first separator, and the text after it if there is one. -/
def splitFirst (separator : Char) : List Char → List Char × Option (List Char)
  | [] => ([], none)
  | c :: rest =>
    if c = separator then ([], some rest)
    else
      let (before, after) := splitFirst separator rest
      (c :: before, after)

theorem splitFirst_append_cons {separator : Char} {text : List Char} (hNot : separator ∉ text)
    (rest : List Char) : splitFirst separator (text ++ separator :: rest) = (text, some rest) := by
  induction text with
  | nil => rw [List.nil_append, splitFirst, if_pos rfl]
  | cons c text ih =>
    rw [List.mem_cons, not_or] at hNot
    rw [List.cons_append, splitFirst, if_neg (Ne.symm hNot.1), ih hNot.2]

/-- The text after a given beginning, if it begins so. -/
def stripStart? : List Char → List Char → Option (List Char)
  | [], text => some text
  | _ :: _, [] => none
  | c :: start, d :: text => if c = d then stripStart? start text else none

/-- The texts with a separator between each two. -/
def joinWith (separator : List Char) : List (List Char) → List Char
  | [] => []
  | [text] => text
  | text :: rest => text ++ separator ++ joinWith separator rest

end Pagewright.Text
