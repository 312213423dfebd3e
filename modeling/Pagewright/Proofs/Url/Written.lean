import Pagewright.Proofs.Text.Coding
import Pagewright.Url.Parser

/-!
# The written form of paths

Whatever text a URL is read from, its path is in its written form: printable
ASCII characters, segments without slashes, and no segment that names a place
by dots. Only a path that is no list of segments may hold dots between slashes.

## Main results

* `isWritten_of_parse?` — the path of every URL that was read is written.
* `Path.pieces_segments` — segments are found again in the text of a path.
-/

namespace Pagewright.Url

open Text (splitOn)
open Text.Percent (encode mem_encode encode_eq_self)

/-! ## Characters -/

theorem isPrintable_hexDigit {n : Nat} (h : n < 16) :
    isPrintable (Text.Percent.hexDigit n) = true ∧ Text.Percent.hexDigit n ≠ '/' := by
  have hAll : ∀ n : Fin 16, isPrintable (Text.Percent.hexDigit n.val) = true ∧
      Text.Percent.hexDigit n.val ≠ '/' := by decide
  exact hAll ⟨n, h⟩

/-- A coded text is printable, and has slashes only where the text has. -/
theorem isPrintable_of_mem_encode {permitted : Char → Bool}
    (hPermitted : ∀ c, permitted c = true → isPrintable c = true) {text : List Char} {c : Char}
    (hMem : c ∈ encode permitted text) :
    isPrintable c = true ∧ (c = '/' → '/' ∈ text) := by
  rcases mem_encode hMem with ⟨hOwn, hText⟩ | rfl | ⟨n, hDigit, rfl⟩
  · exact ⟨hPermitted c hOwn, fun hSlash => hSlash ▸ hText⟩
  · exact ⟨by decide, fun hSlash => absurd hSlash (by decide)⟩
  · have hHex := isPrintable_hexDigit hDigit
    exact ⟨hHex.1, fun hSlash => absurd hSlash hHex.2⟩

theorem isPrintable_of_mem_encode_except {excluded text : List Char} {c : Char}
    (hMem : c ∈ encode (printableExcept excluded) text) :
    isPrintable c = true ∧ (c = '/' → '/' ∈ text) :=
  isPrintable_of_mem_encode (fun _ hOwn => (Bool.and_eq_true_iff.1 hOwn).1) hMem

theorem isPrintable_iff {c : Char} :
    isPrintable c = true ↔ 0x20 ≤ c.toNat ∧ c.toNat ≤ 0x7e := by
  rw [isPrintable, Bool.and_eq_true, decide_eq_true_eq, decide_eq_true_eq]
  exact and_congr UInt32.le_iff_toNat_le UInt32.le_iff_toNat_le

theorem isPrintable_of_isAlpha {c : Char} (h : c.isAlpha = true) :
    isPrintable c = true ∧ c ≠ '/' := by
  have hRange : 65 ≤ c.toNat ∧ c.toNat ≤ 122 := by
    rcases Bool.or_eq_true_iff.1 h with hUpper | hLower
    · have hBounds : 'A' ≤ c ∧ c ≤ 'Z' := of_decide_eq_true hUpper
      exact ⟨UInt32.le_iff_toNat_le.1 hBounds.1,
        Nat.le_trans (UInt32.le_iff_toNat_le.1 hBounds.2) (by decide)⟩
    · have hBounds : (decide ('a' ≤ c) && decide (c ≤ 'z')) = true := hLower
      rw [Bool.and_eq_true, decide_eq_true_eq, decide_eq_true_eq] at hBounds
      exact ⟨Nat.le_trans (by decide) (UInt32.le_iff_toNat_le.1 hBounds.1),
        UInt32.le_iff_toNat_le.1 hBounds.2⟩
  refine ⟨isPrintable_iff.2 (by omega), ?_⟩
  rintro rfl
  exact absurd hRange (by decide)

theorem isStripped_of_isPrintable {c : Char} (h : isPrintable c = true) :
    isStripped c = false := by
  rw [isStripped, Bool.or_eq_false_iff, Bool.or_eq_false_iff]
  refine ⟨⟨?_, ?_⟩, ?_⟩ <;>
  · rw [beq_eq_false_iff_ne]
    rintro rfl
    exact absurd h (by decide)

/-! ## Segments -/

/-- The segments that name a place and not a thing in it. -/
def dotNames : List (List Char) := [['.'], ['.', '.']]

/-- A segment in its written form. -/
structure IsWrittenSegment (segment : List Char) : Prop where
  printable : ∀ c ∈ segment, isPrintable c = true
  noSlash : '/' ∉ segment
  noDots : segment ∉ dotNames

theorem isWrittenSegment_nil : IsWrittenSegment [] where
  printable c hMem := absurd hMem List.not_mem_nil
  noSlash := List.not_mem_nil
  noDots := by decide

/-- A drive letter with its colon. -/
theorem isWrittenSegment_drive {letter : Char} (hLetter : letter.isAlpha = true) :
    IsWrittenSegment [letter, ':'] := by
  obtain ⟨hPrintable, hSlash⟩ := isPrintable_of_isAlpha hLetter
  refine ⟨?_, ?_, ?_⟩
  · simp only [List.mem_cons, List.not_mem_nil, or_false, forall_eq_or_imp, forall_eq]
    exact ⟨hPrintable, by decide⟩
  · simp [Ne.symm hSlash]
  · simp [dotNames]

/-- A coded segment names no place by dots unless the segment does. -/
theorem isWrittenSegment_encode {segment : List Char} (hSlash : '/' ∉ segment)
    (hAbove : isAbove segment = false) (hHere : isHere segment = false) :
    IsWrittenSegment (encode (printableExcept pathEscapes) segment) where
  printable c hMem := (isPrintable_of_mem_encode_except hMem).1
  noSlash hMem := hSlash ((isPrintable_of_mem_encode_except hMem).2 rfl)
  noDots hDots := by
    rw [dotNames, List.mem_cons, List.mem_singleton] at hDots
    have hPercent : '%' ∉ encode (printableExcept pathEscapes) segment := by
      rcases hDots with hDots | hDots <;> rw [hDots] <;> decide
    rw [encode_eq_self hPercent] at hDots
    rcases hDots with rfl | rfl
    · exact absurd hHere (by decide)
    · exact absurd hAbove (by decide)

theorem isWrittenSegment_written {file : Bool} {done : List (List Char)} {segment : List Char}
    (hSlash : '/' ∉ segment) (hAbove : isAbove segment = false) (hHere : isHere segment = false) :
    IsWrittenSegment (writtenSegment file done segment) := by
  unfold writtenSegment
  split
  · rename_i letter rest hDrive
    obtain ⟨-, hDrive⟩ := Bool.and_eq_true_iff.1 hDrive
    cases rest with
    | nil => exact absurd hDrive Bool.false_ne_true
    | cons mark rest =>
      cases rest with
      | nil => exact isWrittenSegment_drive (Bool.and_eq_true_iff.1 hDrive).1
      | cons => exact absurd hDrive Bool.false_ne_true
  · exact isWrittenSegment_encode hSlash hAbove hHere

theorem mem_of_mem_shorten {file : Bool} {segments : List (List Char)} {segment : List Char}
    (hMem : segment ∈ shorten file segments) : segment ∈ segments := by
  unfold shorten at hMem
  split at hMem
  · split at hMem
    · exact hMem
    · exact absurd hMem List.not_mem_nil
  · exact List.dropLast_subset _ hMem

/-- Dots are resolved segment by segment, and what remains is written. -/
theorem isWrittenSegment_of_mem_resolve {file : Bool} {done raw : List (List Char)}
    (hDone : ∀ segment ∈ done, IsWrittenSegment segment) (hRaw : ∀ segment ∈ raw, '/' ∉ segment) :
    ∀ segment ∈ resolve file done raw, IsWrittenSegment segment := by
  have hAppend : ∀ {list : List (List Char)} {last : List Char},
      (∀ segment ∈ list, IsWrittenSegment segment) → IsWrittenSegment last →
      ∀ segment ∈ list ++ [last], IsWrittenSegment segment := by
    intro list last hList hLast segment hMem
    rcases List.mem_append.1 hMem with hMem | hMem
    · exact hList segment hMem
    · rwa [List.mem_singleton.1 hMem]
  have hShorten : ∀ {list : List (List Char)}, (∀ segment ∈ list, IsWrittenSegment segment) →
      ∀ segment ∈ shorten file list, IsWrittenSegment segment :=
    fun hList segment hMem => hList segment (mem_of_mem_shorten hMem)
  fun_induction resolve file done raw with
  | case1 done => exact hDone
  | case2 done segment hAbove => exact hAppend (hShorten hDone) isWrittenSegment_nil
  | case3 done segment hAbove hHere => exact hAppend hDone isWrittenSegment_nil
  | case4 done segment hAbove hHere =>
    exact hAppend hDone (isWrittenSegment_written (hRaw segment List.mem_cons_self)
      (Bool.eq_false_iff.2 hAbove) (Bool.eq_false_iff.2 hHere))
  | case5 done segment rest hRest hAbove ih =>
    exact ih (hShorten hDone) fun other hMem => hRaw other (List.mem_cons_of_mem _ hMem)
  | case6 done segment rest hRest hAbove hHere ih =>
    exact ih hDone fun other hMem => hRaw other (List.mem_cons_of_mem _ hMem)
  | case7 done segment rest hRest hAbove hHere ih =>
    exact ih (hAppend hDone (isWrittenSegment_written (hRaw segment List.mem_cons_self)
      (Bool.eq_false_iff.2 hAbove) (Bool.eq_false_iff.2 hHere)))
      fun other hMem => hRaw other (List.mem_cons_of_mem _ hMem)

theorem isWrittenSegment_of_mem_readSegments (file : Bool) (text : List Char) :
    ∀ segment ∈ readSegments file text, IsWrittenSegment segment :=
  isWrittenSegment_of_mem_resolve (fun _ hMem => absurd hMem List.not_mem_nil)
    fun _ hPart hMem => (Text.mem_of_mem_splitOn hPart hMem).2 rfl

theorem isWrittenSegment_of_mem_withoutEmptyFront {segments : List (List Char)}
    (hSegments : ∀ segment ∈ segments, IsWrittenSegment segment) :
    ∀ segment ∈ withoutEmptyFront segments, IsWrittenSegment segment := by
  intro segment hMem
  unfold withoutEmptyFront at hMem
  split at hMem
  · rw [List.mem_singleton.1 hMem]
    exact isWrittenSegment_nil
  · exact hSegments segment ((List.dropWhile_sublist _).subset hMem)

/-! ## Paths -/

/-- A path in its written form. -/
def Path.IsWritten : Path → Prop
  | .plain text => ∀ c ∈ text, isPrintable c = true
  | .segments list => ∀ segment ∈ list, IsWrittenSegment segment

theorem isWritten_of_filePlace? {text : List Char} {authority : Option Authority} {path : Path}
    (hPlace : filePlace? text = some (authority, path)) : path.IsWritten := by
  have hPath : ∀ text, (filePlace?.path text).IsWritten := fun text =>
    isWrittenSegment_of_mem_withoutEmptyFront (isWrittenSegment_of_mem_readSegments true text)
  unfold filePlace? at hPlace
  split at hPlace
  · dsimp only at hPlace
    split at hPlace
    · obtain ⟨-, rfl⟩ := Prod.mk.inj (Option.some.inj hPlace)
      exact hPath _
    · obtain ⟨written, -, hWritten⟩ := Option.map_eq_some_iff.1 hPlace
      obtain ⟨-, rfl⟩ := Prod.mk.inj hWritten
      exact hPath _
  · obtain ⟨-, rfl⟩ := Prod.mk.inj (Option.some.inj hPlace)
    exact hPath _

theorem isWritten_of_webPlace? {scheme text : List Char} {authority : Option Authority}
    {path : Path} (hPlace : webPlace? scheme text = some (authority, path)) :
    path.IsWritten := by
  simp only [webPlace?, Option.bind_eq_bind, Option.bind_eq_some_iff] at hPlace
  obtain ⟨found, -, hFound⟩ := hPlace
  obtain ⟨-, rfl⟩ := Prod.mk.inj (Option.some.inj hFound)
  exact isWrittenSegment_of_mem_readSegments false _

theorem isWritten_of_plainPlace? {scheme text : List Char} {authority : Option Authority}
    {path : Path} (hPlace : plainPlace? scheme text = some (authority, path)) :
    path.IsWritten := by
  unfold plainPlace? at hPlace
  split at hPlace
  · simp only [Option.bind_eq_bind, Option.bind_eq_some_iff] at hPlace
    obtain ⟨found, -, hFound⟩ := hPlace
    split at hFound
    · obtain ⟨-, rfl⟩ := Prod.mk.inj (Option.some.inj hFound)
      exact fun _ hMem => absurd hMem List.not_mem_nil
    · obtain ⟨-, rfl⟩ := Prod.mk.inj (Option.some.inj hFound)
      exact isWrittenSegment_of_mem_readSegments false _
  · obtain ⟨-, rfl⟩ := Prod.mk.inj (Option.some.inj hPlace)
    exact isWrittenSegment_of_mem_readSegments false _
  · obtain ⟨-, rfl⟩ := Prod.mk.inj (Option.some.inj hPlace)
    exact fun c hMem => (isPrintable_of_mem_encode (fun _ h => h) hMem).1

theorem isWritten_of_place? {scheme text : List Char} {authority : Option Authority}
    {path : Path} (hPlace : place? scheme text = some (authority, path)) : path.IsWritten := by
  unfold place? at hPlace
  split at hPlace
  · exact isWritten_of_filePlace? hPlace
  · split at hPlace
    · exact isWritten_of_webPlace? hPlace
    · exact isWritten_of_plainPlace? hPlace

/-- The path of every URL that is read is in its written form. -/
theorem isWritten_of_parse? {text : List Char} {url : Url} (hUrl : parse? text = some url) :
    url.path.IsWritten := by
  simp only [parse?, Option.bind_eq_bind, Option.bind_eq_some_iff] at hUrl
  obtain ⟨_, -, place, hPlace, hParts⟩ := hUrl
  rw [← Option.some.inj hParts]
  exact isWritten_of_place? hPlace

/-! ## Segments in the text of a path -/

/-- What stands after each slash of a path. -/
def Path.pieces (path : Path) : List (List Char) := (splitOn '/' path.text).drop 1

theorem splitOn_segments {list : List (List Char)} (hSlash : ∀ segment ∈ list, '/' ∉ segment)
    {front : List Char} (hFront : '/' ∉ front) :
    splitOn '/' (front ++ list.flatMap ('/' :: ·)) = front :: list := by
  induction list generalizing front with
  | nil => rw [List.flatMap_nil, List.append_nil, Text.splitOn_eq, List.splitOn_eq_singleton hFront]
  | cons segment list ih =>
    obtain ⟨hSegment, hList⟩ := List.forall_mem_cons.1 hSlash
    rw [List.flatMap_cons, List.cons_append, Text.splitOn_eq,
      List.splitOn_append_cons_self_of_not_mem hFront, ← Text.splitOn_eq, ih hList hSegment]

/-- The segments of a written path are what stands after its slashes. -/
theorem Path.pieces_segments {list : List (List Char)}
    (hWritten : (Path.segments list).IsWritten) : (Path.segments list).pieces = list := by
  have hSplit := splitOn_segments (fun segment hMem => (hWritten segment hMem).noSlash)
    (List.not_mem_nil (a := '/'))
  rw [List.nil_append] at hSplit
  rw [pieces, text, hSplit]
  rfl

theorem Path.noSlash_of_mem_pieces {path : Path} {piece : List Char}
    (hPiece : piece ∈ path.pieces) : '/' ∉ piece :=
  fun hMem => (Text.mem_of_mem_splitOn (List.mem_of_mem_drop hPiece) hMem).2 rfl

/-- The characters of a written path are printable. -/
theorem Path.IsWritten.isPrintable_text {path : Path} (hWritten : path.IsWritten) :
    ∀ c ∈ path.text, isPrintable c = true := by
  cases path with
  | plain text => exact hWritten
  | segments list =>
    intro c hMem
    obtain ⟨segment, hSegment, hMem⟩ := List.mem_flatMap.1 hMem
    rcases List.mem_cons.1 hMem with rfl | hMem
    · decide
    · exact (hWritten segment hSegment).printable c hMem

theorem Path.IsWritten.isPrintable_piece {path : Path} (hWritten : path.IsWritten)
    {piece : List Char} (hPiece : piece ∈ path.pieces) : ∀ c ∈ piece, isPrintable c = true :=
  fun c hMem => hWritten.isPrintable_text c
    (Text.mem_of_mem_splitOn (List.mem_of_mem_drop hPiece) hMem).1

end Pagewright.Url
