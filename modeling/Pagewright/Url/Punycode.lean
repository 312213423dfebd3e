import Pagewright.Text.Search

/-!
# International labels in ASCII

A label of a host name with characters outside ASCII is written in ASCII: its
ASCII characters first, then the other ones in ascending order, each as the
distance from the one before in a number of variable length. The thresholds of
the digits follow the distances seen so far.
-/

namespace Pagewright.Url.Punycode

open Text (splitFirst)

/-- A digit of base 36. -/
def digit (d : Nat) : Char := if d < 26 then Char.ofNat (97 + d) else Char.ofNat (22 + d)

/-- From which value on a digit at a position continues the number. -/
def threshold (position bias : Nat) : Nat :=
  if position ≤ bias then 1 else min 26 (position - bias)

theorem threshold_pos (position bias : Nat) : 1 ≤ threshold position bias := by
  unfold threshold; split <;> omega

/-- A number in digits of rising positions. -/
def writeNumber (bias position number : Nat) : List Char :=
  let t := threshold position bias
  if number < t then [digit number]
  else digit (t + (number - t) % (36 - t))
    :: writeNumber bias (position + 36) ((number - t) / (36 - t))
termination_by number
decreasing_by
  have hPos := threshold_pos position bias
  have hLe : (number - threshold position bias) / (36 - threshold position bias)
      ≤ number - threshold position bias := Nat.div_le_self _ _
  omega

/-- How often a distance is divided before it is small, and what is left of it. -/
def shrink (distance position : Nat) : Nat × Nat :=
  if 455 < distance then shrink (distance / 35) (position + 36) else (distance, position)
termination_by distance
decreasing_by exact Nat.div_lt_self (by omega) (by omega)

/-- The bias after a distance. -/
def adapt (distance count : Nat) (first : Bool) : Nat :=
  let scaled := if first then distance / 700 else distance / 2
  let (distance, position) := shrink (scaled + scaled / count) 0
  position + 36 * distance / (distance + 38)

/-- What is known between two characters. -/
structure State where
  output : List Char
  distance : Nat
  bias : Nat
  written : Nat

/-- Passes one character of the label on the way to the next `target`. -/
def pass (basic target : Nat) (state : State) (c : Char) : State :=
  if c.toNat < target then { state with distance := state.distance + 1 }
  else if c.toNat = target then
    { output := state.output ++ writeNumber state.bias 36 state.distance
      distance := 0
      bias := adapt state.distance (state.written + 1) (state.written == basic)
      written := state.written + 1 }
  else state

/-- Writes all characters with the given numbers, in ascending order. -/
def writeTargets (label : List Char) (basic : Nat) : List Nat → Nat → State → State
  | [], _, state => state
  | target :: rest, next, state =>
    let skipped :=
      { state with distance := state.distance + (target - next) * (state.written + 1) }
    let passed := label.foldl (pass basic target) skipped
    writeTargets label basic rest (target + 1) { passed with distance := passed.distance + 1 }

/-- The numbers of the characters outside ASCII, ascending, each once. -/
def targets (label : List Char) : List Nat :=
  (((label.map Char.toNat).filter (128 ≤ ·)).eraseDups).mergeSort

/-- A label in ASCII, without the mark in front. -/
def encode (label : List Char) : List Char :=
  let basic := label.filter (·.toNat < 128)
  let start : State := ⟨[], 0, 72, basic.length⟩
  basic ++ (if basic.isEmpty then [] else ['-'])
    ++ (writeTargets label basic.length (targets label) 128 start).output

/-! ## Reading -/

/-- The value of a digit of base 36. -/
def digitValue? (c : Char) : Option Nat :=
  if 'a' ≤ c ∧ c ≤ 'z' then some (c.toNat - 97)
  else if '0' ≤ c ∧ c ≤ '9' then some (c.toNat - 22)
  else none

/-- A number in digits of rising positions, and the text behind it. -/
def readNumber? (bias : Nat) : Nat → Nat → Nat → List Char → Option (Nat × List Char)
  | _, _, _, [] => none
  | position, weight, number, c :: rest => do
    let d ← digitValue? c
    let t := threshold position bias
    let number := number + d * weight
    if d < t then some (number, rest)
    else readNumber? bias (position + 36) (weight * (36 - t)) number rest

/--
Inserts the characters that are written as distances; `fuel` bounds how many
there are. The last one was inserted with the number `code` before `place`.
-/
def insertRest? : Nat → Nat → Nat → Nat → List Char → List Char → Option (List Char)
  | _, _, _, _, label, [] => some label
  | 0, _, _, _, _, _ => none
  | fuel + 1, bias, code, place, label, text => do
    let (distance, rest) ← readNumber? bias 36 1 0 text
    let count := label.length + 1
    let code := code + (place + distance) / count
    let next := (place + distance) % count
    if 0x10ffff < code then none
    insertRest? fuel (adapt distance count (place == 0)) code (next + 1)
      (label.insertIdx next (Char.ofNat code)) rest

/-- The label of a text in ASCII without the mark in front. -/
def decode? (text : List Char) : Option (List Char) :=
  let (rest, basic) := splitFirst '-' text.reverse
  insertRest? rest.length 72 128 0 (basic.getD []).reverse rest.reverse

end Pagewright.Url.Punycode
