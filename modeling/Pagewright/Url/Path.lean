import Pagewright.Text.Percent
import Pagewright.Text.Search
import Pagewright.Url.Permitted

/-!
# Paths

A path is a list of segments, or plain text where the URL has no place for
segments. A segment `.` stands for where it is and `..` takes the segment
before it away; both count in their percent-coded spellings too.
-/

namespace Pagewright.Url

/-- The path of a URL. -/
inductive Path where
  /-- Text that is no list of segments. -/
  | plain (text : List Char)
  /-- Segments, each after a slash. -/
  | segments (list : List (List Char))
  deriving DecidableEq, Repr, Inhabited

/-- The text of a path. -/
def Path.text : Path → List Char
  | .plain text => text
  | .segments list => list.flatMap ('/' :: ·)

/-! ## Dots -/

/-- A segment with its coded dots as dots. -/
def plainDots : List Char → List Char
  | '%' :: '2' :: 'e' :: rest => '.' :: plainDots rest
  | '%' :: '2' :: 'E' :: rest => '.' :: plainDots rest
  | c :: rest => c :: plainDots rest
  | [] => []

/-- Whether a segment is one dot. -/
def isHere (segment : List Char) : Bool := plainDots segment == ['.']

/-- Whether a segment is two dots. -/
def isAbove (segment : List Char) : Bool := plainDots segment == ['.', '.']

/-- A drive letter, as paths of files may begin with. -/
def isDrive : List Char → Bool
  | [letter, mark] => letter.isAlpha && (mark == ':' || mark == '|')
  | _ => false

/-- The segments without the last one; the drive of a file stays. -/
def shorten (file : Bool) (segments : List (List Char)) : List (List Char) :=
  match file, segments with
  | true, [first] => if isDrive first then [first] else []
  | _, segments => segments.dropLast

/-- A segment in its written form; a drive letter at the front is followed by a colon. -/
def writtenSegment (file : Bool) (before : List (List Char)) (segment : List Char) :
    List Char :=
  match file && before.isEmpty && isDrive segment, segment with
  | true, letter :: _ => [letter, ':']
  | _, _ => Text.Percent.encode (printableExcept pathEscapes) segment

/-- The segments that remain of `raw` ones after those that are `done`. -/
def resolve (file : Bool) : List (List Char) → List (List Char) → List (List Char)
  | done, [] => done
  | done, [segment] =>
    if isAbove segment then shorten file done ++ [[]]
    else if isHere segment then done ++ [[]]
    else done ++ [writtenSegment file done segment]
  | done, segment :: rest =>
    if isAbove segment then resolve file (shorten file done) rest
    else if isHere segment then resolve file done rest
    else resolve file (done ++ [writtenSegment file done segment]) rest

/-- The path of a file has no empty segments in front. -/
def withoutEmptyFront (segments : List (List Char)) : List (List Char) :=
  match segments.dropWhile (·.isEmpty) with
  | [] => [[]]
  | segments => segments

/-! ## Appending plain text -/

/-- The segments without an empty one at the end; a lone one stays. -/
def withoutEmptyEnd (segments : List (List Char)) : List (List Char) :=
  if segments.getLast? = some [] ∧ 1 < segments.length then segments.dropLast else segments

/-- The segments that others are appended to: a lone empty one does not count. -/
def appendBase : List (List Char) → List (List Char)
  | [[]] => []
  | segments => segments

/-- Whether a character vanishes from a URL wherever it stands. -/
def isStripped (c : Char) : Bool := c == '\t' || c == '\n' || c == '\r'

/--
Appends one segment of plain text, escaped so that it stays one segment. The
names `.` and `..` name no segment of their own and are left out.
-/
def appendSegment (special : Bool) (segments : List (List Char)) (name : List Char) :
    List (List Char) :=
  if name = ['.'] ∨ name = ['.', '.'] then segments
  else
    let stripped := name.filter (!isStripped ·)
    let base := appendBase segments
    if stripped = ['.'] then base ++ [[]]
    else if stripped = ['.', '.'] then base.dropLast ++ [[]]
    else base ++ [Text.Percent.encode (printableExcept (segmentEscapes special)) stripped]

end Pagewright.Url
