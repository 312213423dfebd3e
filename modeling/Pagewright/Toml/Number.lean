import Pagewright.Number.Literal
import Pagewright.Toml.Tree
import Pagewright.Url.Address

/-!
# Numbers and words of TOML documents

Integers have 64 bits and may be written in base 16, 8 or 2; underscores may
stand between digits. Floats have a fraction or an exponent, or are one of the
words for infinity and for an undefined number.
-/

namespace Pagewright.Toml

/-- The digits of a run in which underscores stand between digits only. -/
def digitRun? (isDigit : Char → Bool) (text : List Char) : Option (List Char) :=
  let parts := Text.splitOn '_' text
  if parts.all fun part => !part.isEmpty && part.all isDigit then some parts.flatten else none

/-- An integer of 64 bits. -/
def int? (n : Int) : Option Value := if Number.isInt64 n then some (.int n) else none

/-- An integer in another base. -/
def based? (base : Nat) (text : List Char) : Option Value := do
  let digits ← digitRun? (fun c => (Url.digitIn? base c).isSome) text
  int? (← Url.numberIn? base digits)

/-- The digits of a number without leading zeros. -/
def wholeDigits? (text : List Char) : Option (List Char) :=
  (digitRun? Char.isDigit text).filter fun digits =>
    digits.length = 1 || digits.head? != some '0'

/-- The exponent of a float. -/
def exponent? (text : List Char) : Option Int := do
  let (negative, body) := Number.spanSign text
  let digits ← digitRun? Char.isDigit body
  let value : Int := Number.digitsValue digits
  some (if negative then -value else value)

/-- A float in its parts: whole digits, places and exponent. -/
def floatOf? (negative : Bool) (whole : List Char) (places exponent : Option (List Char)) :
    Option Value := do
  let whole ← wholeDigits? whole
  let places ← match places with
    | some places => digitRun? Char.isDigit places
    | none => some []
  let exponent ← match exponent with
    | some text => exponent? text
    | none => some 0
  let x := Number.ofDecimal negative (Number.digitsValue (whole ++ places))
    (exponent - places.length)
  if x.isFinite then some (.float x) else none

/-- A decimal number after its sign. -/
def decimal? (negative : Bool) (text : List Char) : Option Value :=
  let lowered := text.map fun c => if c = 'E' then 'e' else c
  match Text.splitFirst 'e' lowered with
  | (front, some exponent) =>
    let (whole, places) := Text.splitFirst '.' front
    floatOf? negative whole places (some exponent)
  | (front, none) =>
    match Text.splitFirst '.' front with
    | (whole, some places) => floatOf? negative whole (some places) none
    | (whole, none) => do
      let value : Int := Number.digitsValue (← wholeDigits? whole)
      int? (if negative then -value else value)

/-- A float that is a word. -/
def floatWord? (negative : Bool) (text : List Char) : Option Value :=
  let apply (x : Float) : Value := .float (if negative then -x else x)
  if text = "inf".toList then some (apply (1.0 / 0.0))
  else if text = "nan".toList then some (apply (0.0 / 0.0))
  else none

/-- A number or a word. -/
def scalar? : List Char → Option Value
  | ['t', 'r', 'u', 'e'] => some (.bool true)
  | ['f', 'a', 'l', 's', 'e'] => some (.bool false)
  | '0' :: 'x' :: digits => based? 16 digits
  | '0' :: 'o' :: digits => based? 8 digits
  | '0' :: 'b' :: digits => based? 2 digits
  | text =>
    let (negative, body) := Number.spanSign text
    floatWord? negative body <|> decimal? negative body

end Pagewright.Toml
