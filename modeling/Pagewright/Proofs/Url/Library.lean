import Pagewright.Proofs.Url.Written
import Pagewright.Text.Characters
import Pagewright.Url.Parser

/-!
# What is known of libraries of URLs

Nothing is assumed of a library of URLs but what the documentation of such
libraries says: paths are percent-coded, an empty segment at the end of a path
can be taken off, and text is pushed as one segment, in which percent signs and
slashes are escaped as well. `Library.IsDocumented` says so. The library of this
project is one of this kind.

## Main results

* `Library.IsDocumented.push_word` — a word is pushed as it is.
* `isDocumented_standard` — the library of this project does what is documented.
-/

namespace Pagewright.Url

open Text.Percent (encode encode_of_permitted mem_encode)

/-- Characters that a segment holds as they are: letters and digits are among them, and
what would be read as an escape or as the end of the segment is not. -/
structure IsSegmentSet (permitted : Char → Bool) : Prop where
  alphanum : ∀ c, c.isAlphanum = true → permitted c = true
  percent : permitted '%' = false
  slash : permitted '/' = false

theorem IsSegmentSet.noSlash_encode {permitted : Char → Bool} (hSet : IsSegmentSet permitted)
    {name : List Char} : '/' ∉ encode permitted name := by
  intro hMem
  rcases mem_encode hMem with ⟨hOwn, -⟩ | hPercent | ⟨n, hDigit, hHex⟩
  · rw [hSet.slash] at hOwn
    cases hOwn
  · exact absurd hPercent (by decide)
  · exact (isPrintable_hexDigit hDigit).2 hHex.symm

/-- Text that is pushed on a path by escaping it. At the front of a path only words are,
since a drive letter has a form of its own in front of the path of a file. -/
structure IsPushed (segments : List (List Char)) (name : List Char) : Prop where
  printable : ∀ c ∈ name, isPrintable c = true
  noDots : name ∉ dotNames
  behind : appendBase segments = [] → ∀ c ∈ name, c.isAlphanum = true

/-- What the documentation of a library of URLs says. Segments that name a place by dots
are not pushed, and a path with nothing but an empty segment counts as empty. -/
structure Library.IsDocumented (library : Library) : Prop where
  isWritten : ∀ {text : List Char} {url : Url}, library.parse? text = some url →
    url.path.IsWritten
  popEmpty_eq : ∀ segments, library.popEmpty segments = withoutEmptyEnd segments
  push_dots : ∀ url segments, ∀ name ∈ dotNames, library.push url segments name = segments
  push_text : ∀ url, ∃ permitted, IsSegmentSet permitted ∧ ∀ segments name,
    IsPushed segments name →
      library.push url segments name = appendBase segments ++ [encode permitted name]

/-! ## Pushed segments -/

/-- Only an empty segment that stands alone is lost when others are pushed. -/
theorem appendBase_of_mem {segments : List (List Char)} {segment : List Char}
    (hMem : segment ∈ segments) (hSegment : segment ≠ []) : appendBase segments = segments := by
  unfold appendBase
  split
  · exact absurd (List.mem_singleton.1 hMem) hSegment
  · rfl

theorem isPrintable_of_isAlphanum {c : Char} (hAlphanum : c.isAlphanum = true) :
    isPrintable c = true := by
  rcases Bool.or_eq_true_iff.1 hAlphanum with hAlpha | hDigit
  · exact (isPrintable_of_isAlpha hAlpha).1
  · have hRange := Text.toNat_of_isDigit hDigit
    exact isPrintable_iff.2 (by omega)

theorem noDots_of_isAlphanum {name : List Char} (hName : ∀ c ∈ name, c.isAlphanum = true) :
    name ∉ dotNames := by
  intro hDots
  have hDot : '.' ∈ name := by
    rw [dotNames, List.mem_cons, List.mem_singleton] at hDots
    rcases hDots with rfl | rfl <;> exact List.mem_cons_self
  exact absurd (hName '.' hDot) (by decide)

/-- A word is pushed as it is, wherever it goes. -/
theorem Library.IsDocumented.push_word {library : Library} (hLibrary : library.IsDocumented)
    (url : Url) (segments : List (List Char)) {name : List Char}
    (hName : ∀ c ∈ name, c.isAlphanum = true) :
    library.push url segments name = appendBase segments ++ [name] := by
  obtain ⟨permitted, hSet, hPush⟩ := hLibrary.push_text url
  have hPushed : IsPushed segments name :=
    ⟨fun c hMem => isPrintable_of_isAlphanum (hName c hMem), noDots_of_isAlphanum hName,
      fun _ => hName⟩
  rw [hPush segments name hPushed,
    encode_of_permitted fun c hMem => hSet.alphanum c (hName c hMem)]

/-! ## The library of this project -/

theorem isSegmentSet_segmentEscapes (special : Bool) :
    IsSegmentSet (printableExcept (segmentEscapes special)) := by
  refine ⟨fun c hAlphanum => ?_, by cases special <;> decide, by cases special <;> decide⟩
  have hOutside : segmentEscapes special |>.all (!·.isAlphanum) := by cases special <;> decide
  rw [printableExcept, isPrintable_of_isAlphanum hAlphanum, Bool.true_and, Bool.not_eq_true',
    List.contains_eq_mem, decide_eq_false_iff_not]
  intro hMem
  have hNot := List.all_eq_true.1 hOutside c hMem
  rw [hAlphanum] at hNot
  cases hNot

theorem appendSegment_of_dots {segments : List (List Char)} {name : List Char}
    (hDots : name ∈ dotNames) (special : Bool) :
    appendSegment special segments name = segments := by
  rw [dotNames, List.mem_cons, List.mem_singleton] at hDots
  rw [appendSegment, if_pos hDots]

/-- Printable text that names no place by dots is appended as one segment. -/
theorem appendSegment_of_printable {name : List Char} (hDots : name ∉ dotNames)
    (hPrintable : ∀ c ∈ name, isPrintable c = true) (special : Bool)
    (segments : List (List Char)) :
    appendSegment special segments name =
      appendBase segments ++ [encode (printableExcept (segmentEscapes special)) name] := by
  have hStripped : name.filter (!isStripped ·) = name := by
    rw [List.filter_eq_self]
    intro c hMem
    rw [isStripped_of_isPrintable (hPrintable c hMem)]
    rfl
  rw [dotNames, List.mem_cons, List.mem_singleton] at hDots
  rw [appendSegment, if_neg hDots]
  rw [not_or] at hDots
  simp only [hStripped, if_neg hDots.1, if_neg hDots.2]

/-- The library of this project does what is documented. -/
theorem isDocumented_standard : Library.standard.IsDocumented where
  isWritten := isWritten_of_parse?
  popEmpty_eq _ := rfl
  push_dots _ _ _ hDots := appendSegment_of_dots hDots _
  push_text _ := ⟨_, isSegmentSet_segmentEscapes _, fun segments _ hPushed =>
    appendSegment_of_printable hPushed.noDots hPushed.printable _ segments⟩

end Pagewright.Url
