import Pagewright.Json.Value
import Pagewright.Number.Scaled

/-!
# Reading JSON text

The reader follows the JSON grammar and tells two kinds of failure apart: the
text `ended` where more was needed, or it is `malformed`. Arrays and objects
may be nested to a given depth only. Each step consumes a character, so the
length of the text bounds the recursion.

The objects that come out have ascending keys; of a repeated key the last
value counts. A whole number stays whole while it fits 64 bits; any other
number is read by one scaling of its leading digits.
-/

namespace Pagewright.Json

/-- Why a text is not JSON. -/
inductive TextError where
  | ended
  | malformed
  deriving DecidableEq, Repr, Inhabited

/-- The depth of nesting that documents may have. -/
def depthLimit : Nat := 127

/-- The blanks between tokens. -/
def isSpace (c : Char) : Bool := c == ' ' || c == '\n' || c == '\t' || c == '\r'

/-- The text from its first token on. -/
def skipSpace (text : List Char) : List Char := text.dropWhile isSpace

/-- The rest of a word such as `true`. -/
def readWord (value : Json) : List Char → List Char → Except TextError (Json × List Char)
  | [], text => .ok (value, text)
  | _ :: _, [] => .error .ended
  | c :: word, d :: text => if c = d then readWord value word text else .error .malformed

/-! ## Strings -/

/-- The value of a hexadecimal digit. -/
def hexDigit? (c : Char) : Option Nat :=
  if c.isDigit then some (c.toNat - 48)
  else if 'a' ≤ c ∧ c ≤ 'f' then some (c.toNat - 87)
  else if 'A' ≤ c ∧ c ≤ 'F' then some (c.toNat - 55)
  else none

/--
Four hexadecimal digits. A text of fewer than four bytes has ended, whatever
it holds.
-/
def readHex : List Char → Except TextError (Nat × List Char)
  | a :: b :: c :: d :: rest =>
    match hexDigit? a, hexDigit? b, hexDigit? c, hexDigit? d with
    | some a, some b, some c, some d => .ok (((a * 16 + b) * 16 + c) * 16 + d, rest)
    | _, _, _, _ => .error .malformed
  | short =>
    if 4 ≤ (String.ofList short).utf8ByteSize then .error .malformed else .error .ended

/-- The second half of a character given as a pair of surrogates. -/
def readLowSurrogate (high : Nat) : List Char → Except TextError (Char × List Char)
  | [] => .error .ended
  | '\\' :: [] => .error .ended
  | '\\' :: 'u' :: rest => do
    let (low, rest) ← readHex rest
    if 0xdc00 ≤ low ∧ low ≤ 0xdfff then
      .ok (Char.ofNat (0x10000 + (high - 0xd800) * 1024 + (low - 0xdc00)), rest)
    else .error .malformed
  | _ => .error .malformed

/-- What follows a backslash. -/
def readEscape : List Char → Except TextError (Char × List Char)
  | [] => .error .ended
  | '"' :: rest => .ok ('"', rest)
  | '\\' :: rest => .ok ('\\', rest)
  | '/' :: rest => .ok ('/', rest)
  | 'b' :: rest => .ok ('\x08', rest)
  | 'f' :: rest => .ok ('\x0c', rest)
  | 'n' :: rest => .ok ('\n', rest)
  | 'r' :: rest => .ok ('\r', rest)
  | 't' :: rest => .ok ('\t', rest)
  | 'u' :: rest => do
    let (n, rest) ← readHex rest
    if 0xdc00 ≤ n ∧ n ≤ 0xdfff then .error .malformed
    else if 0xd800 ≤ n ∧ n ≤ 0xdbff then readLowSurrogate n rest
    else .ok (Char.ofNat n, rest)
  | _ => .error .malformed

/-- The characters up to the closing quote, after those already read. -/
def readString : Nat → List Char → List Char → Except TextError (String × List Char)
  | 0, _, _ => .error .malformed
  | _ + 1, _, [] => .error .ended
  | fuel + 1, done, c :: rest =>
    if c = '"' then .ok (String.ofList done.reverse, rest)
    else if c = '\\' then
      match readEscape rest with
      | .error e => .error e
      | .ok (c, rest) => readString fuel (c :: done) rest
    else if c.toNat < 0x20 then .error .malformed
    else readString fuel (c :: done) rest

/-! ## Numbers -/

/-- Digits, of which there has to be one. -/
def readDigits (text : List Char) : Except TextError (List Char × List Char) :=
  let (digits, rest) := Number.spanDigits text
  if digits.isEmpty then
    if rest.isEmpty then .error .ended else .error .malformed
  else .ok (digits, rest)

/-- The digits before the point, without a leading zero. -/
def readWhole (text : List Char) : Except TextError (List Char × List Char) := do
  let (digits, rest) ← readDigits text
  match digits with
  | '0' :: _ :: _ => .error .malformed
  | _ => .ok (digits, rest)

/-- The digits after a point, if there is a point. -/
def readPlaces : List Char → Except TextError (Option (List Char) × List Char)
  | '.' :: rest => do
    let (digits, rest) ← readDigits rest
    .ok (some digits, rest)
  | rest => .ok (none, rest)

/-- The exponent, if there is one. -/
def readExponent : List Char → Except TextError (Option Int × List Char)
  | c :: rest =>
    if c = 'e' ∨ c = 'E' then do
      let (negative, rest) := Number.spanSign rest
      let (digits, rest) ← readDigits rest
      let value : Int := Number.digitsValue digits
      .ok (some (if negative then -value else value), rest)
    else .ok (none, c :: rest)
  | [] => .ok (none, [])

/-- A whole number that keeps its kind while it fits 64 bits; `-0` has a sign. -/
def wholeValue? (negative : Bool) (n : Nat) : Option Json :=
  if negative then
    if n ≠ 0 ∧ Number.isInt64 (-(n : Int)) then some (.int (-(n : Int))) else none
  else if Number.isNat64 n then some (.int n) else none

/-- A number after its sign. One that exceeds the format is refused. -/
def readNumber (negative : Bool) (text : List Char) : Except TextError (Json × List Char) := do
  let (whole, rest) ← readWhole text
  let (places, rest) ← readPlaces rest
  let (exponent, rest) ← readExponent rest
  let asWhole := if places.isNone && exponent.isNone then
    wholeValue? negative (Number.digitsValue whole) else none
  match asWhole with
  | some value => .ok (value, rest)
  | none =>
    match (Number.Significand.ofDigits whole (places.getD []) (exponent.getD 0)).toFloat? with
    | some x => .ok (.float (if negative then -x else x), rest)
    | none => .error .malformed

/-! ## Values -/

mutual

/-- A value at the given remaining depth. -/
def readValue : Nat → Nat → List Char → Except TextError (Json × List Char)
  | 0, _, _ => .error .malformed
  | fuel + 1, depth, text =>
    match skipSpace text with
    | [] => .error .ended
    | 'n' :: rest => readWord .null ['u', 'l', 'l'] rest
    | 't' :: rest => readWord (.bool true) ['r', 'u', 'e'] rest
    | 'f' :: rest => readWord (.bool false) ['a', 'l', 's', 'e'] rest
    | '"' :: rest => do
      let (s, rest) ← readString (rest.length + 1) [] rest
      .ok (.str s, rest)
    | '-' :: rest => readNumber true rest
    | '[' :: rest =>
      match depth with
      | 0 => .error .malformed
      | depth + 1 => readItems fuel depth [] rest
    | '\x7b' :: rest =>
      match depth with
      | 0 => .error .malformed
      | depth + 1 => readFields fuel depth true [] rest
    | c :: rest => if c.isDigit then readNumber false (c :: rest) else .error .malformed

/-- The items of an array after those already read, newest first. -/
def readItems : Nat → Nat → List Json → List Char → Except TextError (Json × List Char)
  | 0, _, _, _ => .error .malformed
  | fuel + 1, depth, done, text =>
    match skipSpace text with
    | [] => .error .ended
    | ']' :: rest => .ok (.arr done.reverse, rest)
    | c :: rest => do
      let next ← if done.isEmpty then pure (c :: rest)
        else if c = ',' then
          match skipSpace rest with
          | [] => .error .ended
          | ']' :: _ => .error .malformed
          | rest => pure rest
        else .error .malformed
      let (item, rest) ← readValue fuel depth next
      readItems fuel depth (item :: done) rest

/-- The fields of an object after those already read. -/
def readFields : Nat → Nat → Bool → Fields → List Char → Except TextError (Json × List Char)
  | 0, _, _, _, _ => .error .malformed
  | fuel + 1, depth, first, done, text =>
    match skipSpace text with
    | [] => .error .ended
    | '\x7d' :: rest => .ok (.obj done, rest)
    | c :: rest => do
      let next ← if first then pure (c :: rest)
        else if c = ',' then
          match skipSpace rest with
          | [] => .error .ended
          | rest => pure rest
        else .error .malformed
      match next with
      | '"' :: rest => do
        let (key, rest) ← readString (rest.length + 1) [] rest
        match skipSpace rest with
        | [] => .error .ended
        | ':' :: rest => do
          let (value, rest) ← readValue fuel depth rest
          readFields fuel depth false (insert key value done) rest
        | _ => .error .malformed
      | _ => .error .malformed

end

/-- The value in front of a text. -/
def readFront (depth : Nat) (text : List Char) : Except TextError (Json × List Char) :=
  readValue (2 * text.length + 2) depth text

/-- Nothing but blanks may follow a value. -/
def readEnd (text : List Char) : Except TextError Unit :=
  if (skipSpace text).isEmpty then .ok () else .error .malformed

/-- The value that a whole text stands for. -/
def parse (text : String) : Except TextError Json := do
  let (value, rest) ← readFront depthLimit text.toList
  readEnd rest
  .ok value

end Pagewright.Json
