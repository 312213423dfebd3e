import Pagewright.Config.Value
import Pagewright.Number.Literal
import Pagewright.Text.Characters

/-!
# Keys and layering

A key leads through tables by name and through lists by position, as in
`classifier.heading_sizes[1]`. Names are compared without regard to letter
case. Setting a table at a key merges it, key by key, into what is there;
setting anything else replaces what is there.

## Main results

* `entryAt_setEntry_self`, `entryAt_setEntry_ne` — setting one key changes no other.
-/

namespace Pagewright.Config

/-- One step of a key. -/
inductive Step where
  | child (name : String)
  | item (index : Int)
  deriving DecidableEq, Repr, Inhabited

/-- A key: the steps from the root. -/
abbrev Key := List Step

/-! ## Reading keys -/

/-- Whether a character may stand in a name. -/
def isNameChar (c : Char) : Bool := c.isAlphanum || c == ' ' || c == '_' || c == '-'

/-- A name in front of a text, and the rest. -/
def name? (text : List Char) : Option (String × List Char) :=
  match text.takeWhile isNameChar with
  | [] => none
  | name => some (String.ofList name, text.dropWhile isNameChar)

/-- A position in brackets, after the opening one, and the rest. -/
def index? (text : List Char) : Option (Int × List Char) :=
  let inner := text.takeWhile (· != ']')
  let isGap (c : Char) : Bool := c == ' ' || c == '\t'
  let body := ((inner.dropWhile isGap).reverse.dropWhile isGap).reverse
  match text.dropWhile (· != ']') with
  | _ :: rest =>
    if body.head? = some '+' then none
    else ((Number.parseInt? body).filter Number.isInt64).map (·, rest)
  | [] => none

/-- The steps after the first name; `fuel` bounds the length of the text. -/
def steps? : Nat → List Char → Option Key
  | _, [] => some []
  | 0, _ => none
  | fuel + 1, '.' :: rest => do
    let (name, rest) ← name? rest
    some (.child name :: (← steps? fuel rest))
  | fuel + 1, '[' :: rest => do
    let (index, rest) ← index? rest
    some (.item index :: (← steps? fuel rest))
  | _, _ => none

/-- The key of a text. -/
def Key.parse? (text : String) : Option Key := do
  let (name, rest) ← name? text.toList
  some (.child name :: (← steps? rest.length rest))

/-- The key of a text, or the whole text as one name where it is no key. -/
def Key.ofName (text : String) : Key := (Key.parse? text).getD [.child text]

/-! ## Tables -/

/-- The value at a name. -/
def entryAt (name : String) : Entries → Option Value
  | [] => none
  | (other, value) :: rest => if other = name then some value else entryAt name rest

/-- The table with another value at a name. -/
def setEntry (name : String) (value : Value) : Entries → Entries
  | [] => [(name, value)]
  | (other, old) :: rest =>
    if other = name then (name, value) :: rest else (other, old) :: setEntry name value rest

theorem entryAt_setEntry_self (name : String) (value : Value) (entries : Entries) :
    entryAt name (setEntry name value entries) = some value := by
  induction entries with
  | nil => simp [setEntry, entryAt]
  | cons entry rest ih =>
    obtain ⟨other, old⟩ := entry
    by_cases h : other = name
    · simp [setEntry, entryAt, h]
    · simp [setEntry, entryAt, h, ih]

theorem entryAt_setEntry_ne {name other : String} (h : name ≠ other) (value : Value)
    (entries : Entries) :
    entryAt other (setEntry name value entries) = entryAt other entries := by
  induction entries with
  | nil => simp [setEntry, entryAt, h]
  | cons entry rest ih =>
    obtain ⟨first, old⟩ := entry
    by_cases hFirst : first = name
    · subst hFirst
      simp [setEntry, entryAt, h]
    · by_cases hOther : first = other
      · subst hOther
        simp [setEntry, entryAt, hFirst]
      · simp [setEntry, entryAt, hFirst, hOther, ih]

mutual

/-- A table with a value set at a name, a table being merged. -/
def mergeEntry (name : String) : Value → Entries → Entries
  | .table _ incoming, entries =>
    let lowered := Text.small name
    let target := (entryAt lowered entries).getD (.ofEntries [])
    setEntry lowered (mergeEntries incoming target) entries
  | value, entries => setEntry (Text.small name) value entries

/-- A value with the keys of a table merged in; what is no table gives way to one. -/
def mergeEntries : Entries → Value → Value
  | [], target => target
  | (name, value) :: rest, target =>
    mergeEntries rest (.ofEntries (mergeEntry name value target.entries))

end

/-! ## Lists -/

/-- The position that an index means: a negative one counts on from the end. -/
def position (length : Nat) (index : Int) : Nat :=
  if 0 ≤ index then index.toNat else length + index.natAbs

/-- A list with another item at a position, filled up with missing ones before it. -/
def setItem (position : Nat) (item : Value) (items : List Value) : List Value :=
  let filled := items ++ List.replicate (position + 1 - items.length) .missing
  filled.set position item

/-! ## Setting a key -/

/-- What is here with a value set at a key from here on. -/
def put : Key → Value → Value → Value
  | [], value, _ => value
  | [.child name], value, here => .ofEntries (mergeEntry name value here.entries)
  | .child name :: step :: rest, value, here =>
    let lowered := Text.small name
    let inner := (entryAt lowered here.entries).getD .missing
    .ofEntries (setEntry lowered (put (step :: rest) value inner) here.entries)
  | .item index :: rest, value, here =>
    let place := position here.items.length index
    let inner := here.items[place]?.getD .missing
    .list none (setItem place (put rest value inner) here.items)

end Pagewright.Config
