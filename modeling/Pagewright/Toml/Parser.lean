import Pagewright.Toml.Moment
import Pagewright.Toml.Number
import Pagewright.Toml.Text
import Pagewright.Toml.Tree

/-!
# Reading TOML documents

A document is a sequence of lines: headers, keys with values, and comments.
Arrays may go over several lines and tables in braces may not. `parse?` gives
the keys of the whole document, or nothing where it is malformed.
-/

namespace Pagewright.Toml

/-! ## Comments and blanks -/

/-- The document after a comment, if one comes first, up to the end of its line. -/
def skipComment? : List Char → Option (List Char)
  | '#' :: rest =>
    let tail := rest.dropWhile isPlain
    if tail.isEmpty || (lineEnd? tail).isSome then some tail else none
  | text => some text

/-- The document after blanks, comments and line ends. -/
def skipLines? : Nat → List Char → Option (List Char)
  | 0, text => some text
  | fuel + 1, text => do
    let text ← skipComment? (skipGap text)
    match lineEnd? text with
    | some rest => skipLines? fuel rest
    | none => some text

/-- The document after the rest of a line that may hold a comment only. -/
def endLine? (text : List Char) : Option (List Char) := do
  match ← skipComment? (skipGap text) with
  | [] => some []
  | text => lineEnd? text

/-! ## Values -/

/-- Whether a character ends a number, word or date. -/
def endsScalar (c : Char) : Bool :=
  isGap c || c == '\n' || c == '\r' || c == ',' || c == ']' || c == '\x7d' || c == '#'

/-- A date, a blank and a time: the text of all three and the rest. -/
def spacedMoment? (text : List Char) : Option (Value × List Char) :=
  let date := text.takeWhile (!endsScalar ·)
  match (date? date).map (·.2), text.dropWhile (!endsScalar ·) with
  | some [], ' ' :: rest => do
    let moment ← moment? (date ++ [' '] ++ rest.takeWhile (!endsScalar ·))
    some (.text (String.ofList moment), rest.dropWhile (!endsScalar ·))
  | _, _ => none

/-- A number, word or moment and the rest. -/
def plainValue? (text : List Char) : Option (Value × List Char) :=
  spacedMoment? text <|> do
    let word := text.takeWhile (!endsScalar ·)
    let value ← scalar? word <|> (moment? word).map fun s => .text (String.ofList s)
    some (value, text.dropWhile (!endsScalar ·))

mutual

/-- A value and the rest; `fuel` bounds the length of the document. -/
def value? : Nat → List Char → Option (Value × List Char)
  | 0, _ => none
  | fuel + 1, text =>
    match text with
    | '[' :: rest => items? fuel [] rest
    | '\x7b' :: rest =>
      match skipGap rest with
      | '\x7d' :: rest => some (.table [], rest)
      | rest => pairs? fuel [] rest
    | c :: rest =>
      if c = '"' ∨ c = '\'' then
        (text? (c :: rest)).map fun (s, rest) => (.text (String.ofList s), rest)
      else plainValue? (c :: rest)
    | [] => none

/-- The items of an array after those already read. -/
def items? : Nat → List Value → List Char → Option (Value × List Char)
  | 0, _, _ => none
  | fuel + 1, done, text => do
    match ← skipLines? text.length text with
    | ']' :: rest => some (.list done.reverse, rest)
    | text =>
      let (item, rest) ← value? fuel text
      match ← skipLines? rest.length rest with
      | ',' :: rest => items? fuel (item :: done) rest
      | ']' :: rest => some (.list (item :: done).reverse, rest)
      | _ => none

/-- The pairs of a table in braces after those already read. -/
def pairs? : Nat → Branches → List Char → Option (Value × List Char)
  | 0, _, _ => none
  | fuel + 1, done, text => do
    let (key, rest) ← key? (text.length + 1) text
    let rest ← Text.stripStart? ['='] rest
    let (value, rest) ← value? fuel (skipGap rest)
    let done ← addValue key value done
    match skipGap rest with
    | ',' :: rest => pairs? fuel done rest
    | '\x7d' :: rest => some (.table (finishEntries done), rest)
    | _ => none

end

/-! ## Documents -/

/-- What has been read of a document: the keys of the last header, and everything so far. -/
structure Progress where
  header : List String
  root : Branches

/-- Adds a value to the table of the last header. -/
def Progress.add? (progress : Progress) (key : List String) (value : Value) :
    Option Progress := do
  some { progress with root := ← underHeader progress.header (addValue key value) progress.root }

/-- Starts the table of a header, whose last key is handled by `start`. -/
def Progress.start? (progress : Progress) (key : List String)
    (start : String → Branches → Option Branches) : Option Progress := do
  let last ← key.getLast?
  some ⟨key, ← underHeader key.dropLast (start last) progress.root⟩

/-- One line that is neither empty nor a comment. -/
def line? (progress : Progress) (text : List Char) : Option (Progress × List Char) :=
  match text with
  | '[' :: '[' :: rest => do
    let (key, rest) ← key? (rest.length + 1) rest
    let rest ← Text.stripStart? [']', ']'] rest
    some (← progress.start? key openRow, ← endLine? rest)
  | '[' :: rest => do
    let (key, rest) ← key? (rest.length + 1) rest
    let rest ← Text.stripStart? [']'] rest
    some (← progress.start? key declareTable, ← endLine? rest)
  | text => do
    let (key, rest) ← key? (text.length + 1) text
    let rest ← Text.stripStart? ['='] rest
    let (value, rest) ← value? (2 * rest.length + 2) (skipGap rest)
    some (← progress.add? key value, ← endLine? rest)

/-- All lines; `fuel` bounds the length of the document. -/
def lines? : Nat → Progress → List Char → Option Branches
  | 0, _, _ => none
  | fuel + 1, progress, text => do
    match ← skipLines? text.length text with
    | [] => some progress.root
    | text => do
      let (progress, rest) ← line? progress text
      lines? fuel progress rest

/-- The document without the mark that some editors put in front. -/
def withoutMark : List Char → List Char
  | '\ufeff' :: rest => rest
  | text => text

/-- The keys of a document. -/
def parse? (document : String) : Option Entries :=
  let text := withoutMark document.toList
  (lines? (text.length + 1) ⟨[], []⟩ text).map finishEntries

end Pagewright.Toml
