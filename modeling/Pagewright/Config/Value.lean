import Pagewright.Toml.Tree

/-!
# Setting values

A setting is a scalar, a list or a table, and remembers where it was given so
that a complaint about it can say so.
-/

namespace Pagewright.Config

/-- A single value. -/
inductive Scalar where
  | nothing
  | bool (b : Bool)
  | int (n : Int)
  | float (x : Float)
  | text (s : String)
  deriving DecidableEq, Repr, Inhabited

/-- Where a value was given, where that has a name. -/
abbrev Origin := Option String

/-- A setting or a group of settings. -/
inductive Value where
  | scalar (origin : Origin) (s : Scalar)
  | list (origin : Origin) (items : List Value)
  | table (origin : Origin) (entries : List (String × Value))
  deriving Repr, Inhabited

/-- Keys with their values. -/
abbrev Entries := List (String × Value)

namespace Value

/-- A value that is not there. -/
def missing : Value := .scalar none .nothing

/-- A table without a place of its own. -/
def ofEntries (entries : Entries) : Value := .table none entries

/-- The keys of a table; nothing else has any. -/
def entries : Value → Entries
  | table _ entries => entries
  | _ => []

/-- The items of a list; nothing else has any. -/
def items : Value → List Value
  | list _ items => items
  | _ => []

mutual

/-- The value of a document. -/
def ofToml (origin : Origin) : Toml.Value → Value
  | .bool b => scalar origin (.bool b)
  | .int n => scalar origin (.int n)
  | .float x => scalar origin (.float x)
  | .text s => scalar origin (.text s)
  | .list items => list origin (ofTomlItems origin items)
  | .table entries => table origin (ofTomlEntries origin entries)

/-- The values of an array. -/
def ofTomlItems (origin : Origin) : List Toml.Value → List Value
  | [] => []
  | item :: rest => ofToml origin item :: ofTomlItems origin rest

/-- The values of the keys of a table. -/
def ofTomlEntries (origin : Origin) : List (String × Toml.Value) → Entries
  | [] => []
  | (key, value) :: rest => (key, ofToml origin value) :: ofTomlEntries origin rest

end

end Value

end Pagewright.Config
