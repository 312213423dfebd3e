/-!
# Values and tables under construction

A document is a table of keys with values. Dates and times are kept as their
text, since nothing computes with them.

While a document is read, each table remembers how it came to be, because that
decides what may still be added to it. A table is declared by one header only;
one that is implied by the header of a table within it may be declared later;
one that a dotted key made grows through dotted keys only. Values are closed.
-/

namespace Pagewright.Toml

/-- A value of a TOML document. -/
inductive Value where
  | bool (b : Bool)
  | int (n : Int)
  | float (x : Float)
  | text (s : String)
  | list (items : List Value)
  | table (entries : List (String × Value))
  deriving Repr, Inhabited

/-- Keys with their values in the order of the document. -/
abbrev Entries := List (String × Value)

/-- How a table came to be. -/
inductive Standing where
  | declared
  | implied
  | dotted
  deriving DecidableEq, Repr

/-- What a key leads to. -/
inductive Branch where
  | value (v : Value)
  | table (standing : Standing) (entries : List (String × Branch))
  /-- Tables under one header, the last of which is still open. -/
  | rows (first : List (List (String × Branch))) (last : List (String × Branch))
  deriving Inhabited

/-- The keys of a table under construction. -/
abbrev Branches := List (String × Branch)

/-- What a key leads to in a table. -/
def branchAt (key : String) : Branches → Option Branch
  | [] => none
  | (other, branch) :: rest => if other = key then some branch else branchAt key rest

/-- The table with another branch at a key. -/
def setBranch (key : String) (branch : Branch) : Branches → Branches
  | [] => [(key, branch)]
  | (other, old) :: rest =>
    if other = key then (key, branch) :: rest else (other, old) :: setBranch key branch rest

/-- Changes the table that the keys of a header lead to. -/
def underHeader : List String → (Branches → Option Branches) → Branches → Option Branches
  | [], change, entries => change entries
  | key :: rest, change, entries =>
    match branchAt key entries with
    | none => do
      let inner ← underHeader rest change []
      some (setBranch key (.table .implied inner) entries)
    | some (.table standing inner) => do
      let inner ← underHeader rest change inner
      some (setBranch key (.table standing inner) entries)
    | some (.rows first last) => do
      let last ← underHeader rest change last
      some (setBranch key (.rows first last) entries)
    | some (.value _) => none

/-- Adds a value at a dotted key. -/
def addValue : List String → Value → Branches → Option Branches
  | [], _, _ => none
  | [key], value, entries =>
    match branchAt key entries with
    | none => some (setBranch key (.value value) entries)
    | some _ => none
  | key :: next :: rest, value, entries =>
    match branchAt key entries with
    | none => do
      let inner ← addValue (next :: rest) value []
      some (setBranch key (.table .dotted inner) entries)
    | some (.table standing inner) =>
      if standing = .declared ∨ (standing = .implied ∧ rest.isEmpty) then none
      else do
        let inner ← addValue (next :: rest) value inner
        some (setBranch key (.table standing inner) entries)
    | some (.rows first last) =>
      -- rows are closed themselves, but a table may be added within the last one
      if rest.isEmpty then none
      else do
        let last ← addValue (next :: rest) value last
        some (setBranch key (.rows first last) entries)
    | some (.value _) => none

/-- Declares a table. -/
def declareTable (key : String) (entries : Branches) : Option Branches :=
  match branchAt key entries with
  | none => some (setBranch key (.table .declared []) entries)
  | some (.table .implied inner) => some (setBranch key (.table .declared inner) entries)
  | some _ => none

/-- Opens one more table under a header of many. -/
def openRow (key : String) (entries : Branches) : Option Branches :=
  match branchAt key entries with
  | none => some (setBranch key (.rows [] []) entries)
  | some (.rows first last) => some (setBranch key (.rows (first ++ [last]) []) entries)
  | some _ => none

mutual

/-- The finished value of a branch. -/
def Branch.finish : Branch → Value
  | .value v => v
  | .table _ entries => .table (finishEntries entries)
  | .rows first last => .list (finishRows first ++ [.table (finishEntries last)])

/-- The finished keys of a table. -/
def finishEntries : List (String × Branch) → Entries
  | [] => []
  | (key, branch) :: rest => (key, branch.finish) :: finishEntries rest

/-- The finished tables under one header. -/
def finishRows : List (List (String × Branch)) → List Value
  | [] => []
  | entries :: rest => .table (finishEntries entries) :: finishRows rest

end

end Pagewright.Toml
