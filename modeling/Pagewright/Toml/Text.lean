import Pagewright.Url.Address

/-!
# Texts and keys of TOML documents

Texts stand between double quotes, where escapes count, or single quotes,
where nothing does; tripled quotes enclose texts of several lines. A key is
bare or quoted. Each reader gives what it read and the rest of the document,
or nothing where the document is malformed.
-/

namespace Pagewright.Toml

/-- Whether a character separates words within a line. -/
def isGap (c : Char) : Bool := c == ' ' || c == '\t'

/-- The document without blanks in front, on the same line. -/
def skipGap (text : List Char) : List Char := text.dropWhile isGap

/-- Whether a character may stand in a document by itself: no control but the tab. -/
def isPlain (c : Char) : Bool := c == '\t' || (' ' ≤ c && c != '\x7f')

/-- The document after the end of a line, if one comes first. -/
def lineEnd? : List Char → Option (List Char)
  | '\n' :: rest => some rest
  | '\r' :: '\n' :: rest => some rest
  | _ => none

/-! ## Escapes -/

/-- The character of a number of hexadecimal digits. -/
def codedChar? (digits : List Char) : Option Char := do
  let n ← Url.numberIn? 16 digits
  if n.isValidChar then some (Char.ofNat n) else none

/-- The character of an escape after its backslash. -/
def escape? : List Char → Option (Char × List Char)
  | 'b' :: rest => some ('\x08', rest)
  | 't' :: rest => some ('\t', rest)
  | 'n' :: rest => some ('\n', rest)
  | 'f' :: rest => some ('\x0c', rest)
  | 'r' :: rest => some ('\r', rest)
  | '"' :: rest => some ('"', rest)
  | '\\' :: rest => some ('\\', rest)
  | 'u' :: a :: b :: c :: d :: rest => (codedChar? [a, b, c, d]).map (·, rest)
  | 'U' :: a :: b :: c :: d :: e :: f :: g :: h :: rest =>
    (codedChar? [a, b, c, d, e, f, g, h]).map (·, rest)
  | _ => none

/-- The document after a backslash at the end of a line: all blanks and lines are skipped. -/
def foldedLine? (text : List Char) : Option (List Char) :=
  (lineEnd? (skipGap text)).map fun rest =>
    rest.dropWhile fun c => isGap c || c == '\n' || c == '\r'

/-! ## Texts -/

/-- The rest of a text on one line with escapes; `fuel` bounds the length of the document. -/
def escapedText : Nat → List Char → List Char → Option (List Char × List Char)
  | 0, _, _ => none
  | _ + 1, _, [] => none
  | _ + 1, done, '"' :: rest => some (done.reverse, rest)
  | fuel + 1, done, '\\' :: rest => do
    let (c, rest) ← escape? rest
    escapedText fuel (c :: done) rest
  | fuel + 1, done, c :: rest =>
    if isPlain c then escapedText fuel (c :: done) rest else none

/-- The rest of a text on one line without escapes. -/
def rawText : List Char → List Char → Option (List Char × List Char)
  | _, [] => none
  | done, c :: rest =>
    if c = '\'' then some (done.reverse, rest)
    else if isPlain c then rawText (c :: done) rest
    else none

/-- How many of a quote come first, five at most. -/
def quoteRun (quote : Char) (text : List Char) : Nat :=
  ((text.take 5).takeWhile (· == quote)).length

/--
The rest of a text of several lines. Three quotes end it, and up to two more
before them belong to the text.
-/
def longText (quote : Char) : Nat → List Char → List Char → Option (List Char × List Char)
  | 0, _, _ => none
  | _ + 1, _, [] => none
  | fuel + 1, done, c :: rest =>
    if c = quote then
      let run := quoteRun quote (c :: rest)
      if 3 ≤ run then
        some ((List.replicate (run - 3) quote ++ done).reverse, rest.drop (run - 1))
      else longText quote fuel (c :: done) rest
    else if c = '\\' ∧ quote = '"' then
      match foldedLine? rest with
      | some rest => longText quote fuel done rest
      | none => do
        let (c, rest) ← escape? rest
        longText quote fuel (c :: done) rest
    else match lineEnd? (c :: rest) with
      | some rest => longText quote fuel ('\n' :: done) rest
      | none => if isPlain c then longText quote fuel (c :: done) rest else none

/-- A text of several lines after its quotes; a line end right behind them does not count. -/
def longTextBody (quote : Char) (text : List Char) : Option (List Char × List Char) :=
  longText quote (text.length + 1) [] ((lineEnd? text).getD text)

/-- A text on one line after its quote. -/
def shortText? : List Char → Option (List Char × List Char)
  | '"' :: rest => escapedText (rest.length + 1) [] rest
  | '\'' :: rest => rawText [] rest
  | _ => none

/-- Any text. -/
def text? : List Char → Option (List Char × List Char)
  | '"' :: '"' :: '"' :: rest => longTextBody '"' rest
  | '\'' :: '\'' :: '\'' :: rest => longTextBody '\'' rest
  | text => shortText? text

/-! ## Keys -/

/-- Whether a character may stand in a bare key. -/
def isBareKeyChar (c : Char) : Bool := c.isAlphanum || c == '_' || c == '-'

/-- One part of a key. -/
def keyPart? (text : List Char) : Option (String × List Char) :=
  match text.takeWhile isBareKeyChar with
  | [] => (shortText? text).map fun (part, rest) => (String.ofList part, rest)
  | part => some (String.ofList part, text.dropWhile isBareKeyChar)

/-- The parts of a dotted key, and the document after the blanks behind it. -/
def key? : Nat → List Char → Option (List String × List Char)
  | 0, _ => none
  | fuel + 1, text => do
    let (part, rest) ← keyPart? (skipGap text)
    match skipGap rest with
    | '.' :: rest => do
      let (parts, rest) ← key? fuel rest
      some (part :: parts, rest)
    | rest => some ([part], rest)

end Pagewright.Toml
