import Pagewright.Text.Percent
import Pagewright.Text.Search

/-!
# Numeric hosts

Hosts may be addresses of the network: four bytes written in one to four
numbers of base 8, 10 or 16, or eight groups of sixteen bits in brackets.
Addresses have one written form, the shortest of its kind.
-/

namespace Pagewright.Url

open Text (splitOn)

/-! ## Numbers in a base -/

/-- The value of a digit in a base. -/
def digitIn? (base : Nat) (c : Char) : Option Nat :=
  (Text.Percent.hexValue? c).filter (· < base)

/-- The value of digits in a base. -/
def numberIn? (base : Nat) (digits : List Char) : Option Nat :=
  digits.foldl (fun value c =>
    match value, digitIn? base c with
    | some value, some digit => some (base * value + digit)
    | _, _ => none) (some 0)

/-- A number of base 16 after `0x`, of base 8 after `0`, else of base 10. -/
def addressPart? : List Char → Option Nat
  | [] => none
  | '0' :: 'x' :: digits => numberIn? 16 digits
  | '0' :: 'X' :: digits => numberIn? 16 digits
  | '0' :: digits => numberIn? 8 digits
  | digits => numberIn? 10 digits

/-! ## Four bytes -/

/-- The parts of a dotted text, without the empty part after a final dot. -/
def dottedParts (host : List Char) : List (List Char) :=
  match (splitOn '.' host).reverse with
  | [] :: front@(_ :: _) => front.reverse
  | parts => parts.reverse

/-- Whether a host is meant as an address: its last part is a number. -/
def endsInNumber (host : List Char) : Bool :=
  match (dottedParts host).getLast? with
  | some last => (!last.isEmpty && last.all Char.isDigit) || (addressPart? last).isSome
  | none => false

/--
The value of the numbers of an address: all but the last are single bytes, the
last fills what remains of the four.
-/
def joinBytes? : Nat → List Nat → Option Nat
  | 0, _ => none
  | _, [] => none
  | room, [last] => if last < Nat.pow 256 room then some last else none
  | room + 1, byte :: rest =>
    if byte < 256 then (joinBytes? room rest).map (byte * Nat.pow 256 room + ·) else none

/-- Four bytes. -/
def parseFourBytes? (host : List Char) : Option Nat := do
  joinBytes? 4 (← (dottedParts host).mapM addressPart?)

/-- The written form of four bytes. -/
def writeFourBytes (value : Nat) : List Char :=
  Text.joinWith ['.'] ([3, 2, 1, 0].map fun place =>
    (toString (value / Nat.pow 256 place % 256)).toList)

/-! ## Eight groups -/

/-- One group: up to four hexadecimal digits. -/
def group? (digits : List Char) : Option Nat :=
  if digits.isEmpty || 4 < digits.length then none else numberIn? 16 digits

/-- A byte in base 10 without leading zeros. -/
def plainByte? (digits : List Char) : Option Nat :=
  if digits.isEmpty || (1 < digits.length && digits.head? == some '0') then none
  else (numberIn? 10 digits).filter (· < 256)

/-- Two groups written as four bytes with dots. -/
def bytePair? (text : List Char) : Option (List Nat) :=
  match (splitOn '.' text).mapM plainByte? with
  | some [a, b, c, d] => some [256 * a + b, 256 * c + d]
  | _ => none

/-- Groups with colons between them, the last of which may be two as bytes. -/
def groupsOf? : List (List Char) → Option (List Nat)
  | [] => some []
  | [last] => if last.contains '.' then bytePair? last else (group? last).map ([·])
  | first :: rest => do
    let group ← group? first
    some (group :: (← groupsOf? rest))

/-- The groups on one side of the gap. -/
def side? (text : List Char) : Option (List Nat) :=
  if text.isEmpty then some [] else groupsOf? (splitOn ':' text)

/-- The texts before and after the first `::`, if there is one. -/
def splitGap : List Char → List Char × Option (List Char)
  | ':' :: ':' :: rest => ([], some rest)
  | c :: rest =>
    let (before, after) := splitGap rest
    (c :: before, after)
  | [] => ([], none)

/-- Eight groups; the gap `::` stands for one zero or more. -/
def parseEightGroups? (text : List Char) : Option (List Nat) :=
  match splitGap text with
  | (whole, none) => (side? whole).filter (·.length == 8)
  | (before, some after) => do
    let left ← side? before
    if before.contains '.' then none
    let right ← side? after
    if 7 < left.length + right.length then none
    some (left ++ List.replicate (8 - left.length - right.length) 0 ++ right)

/-- How many groups are zero from the start on. -/
def leadingZeros (groups : List Nat) : Nat := (groups.takeWhile (· == 0)).length

/-- Where the first of the longest runs of zeros starts, and its length. -/
def longestZeros : Nat → List Nat → Nat × Nat
  | _, [] => (0, 0)
  | start, group :: rest =>
    let here := leadingZeros (group :: rest)
    let later := longestZeros (start + 1) rest
    if later.2 ≤ here then (start, here) else later

/-- A group in hexadecimal digits. -/
def writeGroup (group : Nat) : List Char := Nat.toDigits 16 group

/-- Groups with colons between them. -/
def writeGroups (groups : List Nat) : List Char := Text.joinWith [':'] (groups.map writeGroup)

/-- The written form of eight groups; a run of two zeros or more becomes the gap. -/
def writeEightGroups (groups : List Nat) : List Char :=
  let (start, count) := longestZeros 0 groups
  if count < 2 then writeGroups groups
  else writeGroups (groups.take start) ++ [':', ':'] ++ writeGroups (groups.drop (start + count))

end Pagewright.Url
