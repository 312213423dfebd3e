import Pagewright.Url.Address
import Pagewright.Url.Permitted
import Pagewright.Url.Punycode

/-!
# Hosts

The host of a web address is a domain name or a numeric address and has one
written form: lower case, percent escapes resolved, labels in ASCII, addresses
in their shortest form. Under other schemes a host is plain text.

Of the rules for names outside ASCII the common ones are kept: the letters of
the Latin, Greek and Cyrillic scripts are folded, and controls, blanks and
private characters are refused. Tables of all characters are not kept.
-/

namespace Pagewright.Url

/-! ## Domain names -/

/-- Characters that vanish from a domain name. -/
def isIgnorable (n : Nat) : Bool :=
  n == 0xad || n == 0x200b || n == 0x2060 || n == 0x2064 || n == 0xfeff ||
    (0xfe00 ≤ n && n ≤ 0xfe0f) || (0xe0100 ≤ n && n ≤ 0xe01ef)

/-- Dots of other scripts. -/
def isForeignDot (n : Nat) : Bool := n == 0x3002 || n == 0xff0e || n == 0xff61

/-- Capital letters of scripts whose small letters follow at the same distance. -/
def smallLetter (n : Nat) : Nat :=
  if (0xc0 ≤ n ∧ n ≤ 0xde ∧ n ≠ 0xd7) ∨ (0x391 ≤ n ∧ n ≤ 0x3a9) ∨ (0x410 ≤ n ∧ n ≤ 0x42f) then
    n + 0x20
  else if 0x400 ≤ n ∧ n ≤ 0x40f then n + 0x50
  else if (0x100 ≤ n ∧ n ≤ 0x137) ∨ (0x14a ≤ n ∧ n ≤ 0x177) ∨ (0x460 ≤ n ∧ n ≤ 0x481) then
    n + (1 - n % 2)
  else if 0x139 ≤ n ∧ n ≤ 0x148 then n + n % 2
  else n

/-- What a character of a domain name counts as. -/
def foldDomainChar (c : Char) : List Char :=
  let n := c.toNat
  if n < 0x80 then [c.toLower]
  else if isIgnorable n then []
  else if isForeignDot n then ['.']
  else if 0xff01 ≤ n ∧ n ≤ 0xff5e then [(Char.ofNat (n - 0xfee0)).toLower]
  else [Char.ofNat (smallLetter n)]

/-- Characters outside ASCII that no domain name holds: controls, blanks, unassigned marks. -/
def isBarred (c : Char) : Bool :=
  let n := c.toNat
  (0x80 ≤ n && n ≤ 0xa0) || (0x2000 ≤ n && n ≤ 0x200a) || (0x2028 ≤ n && n ≤ 0x202f) ||
    n == 0x3000 || (0xe000 ≤ n && n ≤ 0xf8ff) || (0xfff0 ≤ n && n ≤ 0xffff) || 0xe0000 ≤ n

/-- Characters of ASCII that no host holds. -/
def forbiddenInHost : List Char :=
  ['\x00', '\t', '\n', '\r', ' ', '#', '/', ':', '<', '>', '?', '@', '[', '\\', ']', '^', '|']

/-- Characters that no domain name holds. -/
def isForbiddenInDomain (c : Char) : Bool :=
  forbiddenInHost.contains c || c < ' ' || c == '%' || c == '\x7f' || isBarred c

/-- A label in ASCII. -/
def asciiLabel (label : List Char) : List Char :=
  if label.all (·.toNat < 0x80) then label
  else ['x', 'n', '-', '-'] ++ Punycode.encode label

/-- Whether a label is the form in ASCII of another one, if it is marked as such. -/
def isOwnLabel (label : List Char) : Bool :=
  match Text.stripStart? ['x', 'n', '-', '-'] label with
  | none => true
  | some code =>
    match Punycode.decode? code with
    | some text => text.any (0x80 ≤ ·.toNat) && Punycode.encode text == code &&
        text.all fun c => foldDomainChar c == [c] && !isForbiddenInDomain c
    | none => false

/-- The written form of a domain name. -/
def domain? (name : List Char) : Option (List Char) :=
  let folded := name.flatMap foldDomainChar
  let labels := Text.splitOn '.' folded
  if folded.isEmpty || folded.any isForbiddenInDomain || !labels.all isOwnLabel then none
  else some (Text.joinWith ['.'] (labels.map asciiLabel))

/-! ## Hosts of all kinds -/

/-- The text between brackets, if there are brackets around all of it. -/
def bracketed? (text : List Char) : Option (List Char) :=
  match text.reverse with
  | ']' :: inner => some inner.reverse
  | _ => none

/-- The written form of an address in brackets, given what follows the first bracket. -/
def bracketHost? (text : List Char) : Option (List Char) := do
  let groups ← parseEightGroups? (← bracketed? text)
  some (['['] ++ writeEightGroups groups ++ [']'])

/-- The written form of the host of a web address. -/
def webHost? : List Char → Option (List Char)
  | '[' :: rest => bracketHost? rest
  | text => do
    let name ← domain? (Text.Percent.decode text)
    if endsInNumber name then (parseFourBytes? name).map writeFourBytes else some name

/-- The written form of a host under any other scheme. -/
def plainHost? : List Char → Option (List Char)
  | '[' :: rest => bracketHost? rest
  | text =>
    if text.any forbiddenInHost.contains then none
    else some (Text.Percent.encode isPrintable text)

end Pagewright.Url
