import Pagewright.Number.Literal
import Pagewright.Text.Search

/-!
# Dates and times of TOML documents

A moment is a date, a time of day, or both with a mark between them and
perhaps an offset behind. Its text is normalized: `T` as the mark, `Z` for no
offset, and no zeros at the end of a fraction.
-/

namespace Pagewright.Toml

/-- The value of exactly `count` digits, and the rest. -/
def fixedDigits? (count : Nat) (text : List Char) : Option (Nat × List Char) :=
  let digits := text.take count
  if digits.length = count ∧ digits.all Char.isDigit then
    some (Number.digitsValue digits, text.drop count)
  else none

/-- A number with leading zeros up to a width. -/
def padded (width n : Nat) : List Char :=
  let digits := (toString n).toList
  List.replicate (width - digits.length) '0' ++ digits

/-- The days of a month. -/
def daysIn (year month : Nat) : Nat :=
  if month = 2 then
    if year % 4 = 0 ∧ (year % 100 ≠ 0 ∨ year % 400 = 0) then 29 else 28
  else if month = 4 ∨ month = 6 ∨ month = 9 ∨ month = 11 then 30
  else 31

/-- A date and the rest. -/
def date? (text : List Char) : Option (List Char × List Char) := do
  let (year, rest) ← fixedDigits? 4 text
  let (month, rest) ← fixedDigits? 2 (← Text.stripStart? ['-'] rest)
  let (day, rest) ← fixedDigits? 2 (← Text.stripStart? ['-'] rest)
  if month = 0 ∨ 12 < month ∨ day = 0 ∨ daysIn year month < day then none
  else some (padded 4 year ++ ['-'] ++ padded 2 month ++ ['-'] ++ padded 2 day, rest)

/-- The fraction of a second, nine places at most, and the rest. -/
def fraction? : List Char → Option (List Char × List Char)
  | '.' :: rest =>
    let digits := rest.takeWhile Char.isDigit
    let kept := ((digits.take 9).reverse.dropWhile (· == '0')).reverse
    if digits.isEmpty then none
    else some (if kept.isEmpty then [] else '.' :: kept, rest.dropWhile Char.isDigit)
  | rest => some ([], rest)

/-- A time of day and the rest. -/
def time? (text : List Char) : Option (List Char × List Char) := do
  let (hour, rest) ← fixedDigits? 2 text
  let (minute, rest) ← fixedDigits? 2 (← Text.stripStart? [':'] rest)
  let (second, rest) ← fixedDigits? 2 (← Text.stripStart? [':'] rest)
  let (fraction, rest) ← fraction? rest
  if 23 < hour ∨ 59 < minute ∨ 60 < second then none
  else
    some (padded 2 hour ++ [':'] ++ padded 2 minute ++ [':'] ++ padded 2 second ++ fraction,
      rest)

/-- An offset that ends the text. -/
def offset? : List Char → Option (List Char)
  | [] => some []
  | [mark] => if mark = 'Z' ∨ mark = 'z' then some ['Z'] else none
  | sign :: rest => do
    let (hour, rest) ← fixedDigits? 2 rest
    let (minute, rest) ← fixedDigits? 2 (← Text.stripStart? [':'] rest)
    if (sign ≠ '+' ∧ sign ≠ '-') ∨ !rest.isEmpty ∨ 23 < hour ∨ 59 < minute then none
    else
      let sign := if hour = 0 ∧ minute = 0 then '+' else sign
      some (sign :: (padded 2 hour ++ [':'] ++ padded 2 minute))

/-- Whether a character stands between a date and a time. -/
def isDateMark (c : Char) : Bool := c == 'T' || c == 't' || c == ' '

/-- The normalized text of a moment that is the whole text. -/
def moment? (text : List Char) : Option (List Char) :=
  match date? text with
  | some (date, []) => some date
  | some (date, mark :: rest) => do
    let (time, rest) ← time? rest
    let offset ← offset? rest
    if isDateMark mark then some (date ++ ['T'] ++ time ++ offset) else none
  | none => do
    let (time, rest) ← time? text
    if rest.isEmpty then some time else none

end Pagewright.Toml
