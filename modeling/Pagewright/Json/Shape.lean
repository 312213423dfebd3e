import Pagewright.Json.Value
import Pagewright.Number.Form
import Pagewright.Number.Literal
import Pagewright.Text.Quoted

/-!
# Reading records from JSON values

A reader turns a value into a typed one or says what is wrong with its shape.
A record may be given as an object, by field name, or as an array, by the
place of each field; entries missing at the end of the array take their
defaults. Field readers look keys up, so unknown keys are ignored; they are
written in ascending key order, and the first bad field is the one reported.

## Main results

* `field_of_lookup`, `field_of_missing` — a field is read from its key or has
  its default.
-/

namespace Pagewright.Json

/-- What is wrong with the shape of a value. -/
inductive ShapeError where
  | wrongType (found : Json) (expected : String)
  | wrongValue (found : Json) (expected : String)
  | wrongLength (length : Nat) (expected : String)
  | unknownVariant (name : String) (known : List String)
  | missingField (name : String)
  /-- A layout node has to be an object. -/
  | notANode
  /-- A count or a weight has to be a number from zero up. -/
  | notNonNegative (x : Float)
  deriving Repr, Inhabited

/-- A name between backquotes. -/
def ticked (name : String) : String := "`" ++ name ++ "`"

/-- The kind of a value, with the value where it is short. -/
def describe : Json → String
  | .null => "null"
  | .bool b => "boolean " ++ ticked (if b then "true" else "false")
  | .int n => "integer " ++ ticked (toString n)
  | .float x => "floating point " ++ ticked (Number.jsonText x)
  | .str s => "string " ++ Text.quoted s
  | .arr _ => "sequence"
  | .obj _ => "map"

/-- The names that would have been right. -/
def expectedNames : List String → String
  | [a, b] => ticked a ++ " or " ++ ticked b
  | [a] => ticked a
  | names => "one of " ++ String.intercalate ", " (names.map ticked)

/-- The wording of a shape error. -/
def ShapeError.message : ShapeError → String
  | .wrongType found expected => s!"invalid type: {describe found}, expected {expected}"
  | .wrongValue found expected => s!"invalid value: {describe found}, expected {expected}"
  | .wrongLength length expected => s!"invalid length {length}, expected {expected}"
  | .unknownVariant name known =>
    "unknown variant " ++ ticked name ++ ", expected " ++ expectedNames known
  | .missingField name => "missing field " ++ ticked name
  | .notANode => "expected a layout node object"
  | .notNonNegative x => "expected a non-negative number, got " ++ Number.plainText x

/-- Reads a value of some type. -/
abbrev Reader (α : Type) := Json → Except ShapeError α

/-! ## Scalars -/

/-- A text. -/
def readText : Reader String
  | .str s => .ok s
  | other => .error (.wrongType other "a string")

/-- A number. -/
def readFloat : Reader Float
  | .int n => .ok (Number.ofInt n)
  | .float x => .ok x
  | other => .error (.wrongType other "f64")

/-- A truth value. -/
def readBool : Reader Bool
  | .bool b => .ok b
  | other => .error (.wrongType other "a boolean")

/-- A whole number of 32 bits. -/
def readNat32 : Reader UInt32
  | .int n =>
    if Number.isNat32 n then .ok (UInt32.ofNat n.toNat)
    else .error (.wrongValue (.int n) "u32")
  | other => .error (.wrongType other "u32")

/-- An object of any fields. -/
def readMap : Reader Fields
  | .obj fields => .ok fields
  | other => .error (.wrongType other "a map")

/-- A value that may be left out or be null. -/
def readOption {α : Type} (read : Reader α) : Reader (Option α)
  | .null => .ok none
  | value => (read value).map some

/-- An array of values. -/
def readList {α : Type} (read : Reader α) : Reader (List α)
  | .arr items => items.mapM read
  | other => .error (.wrongType other "a sequence")

/-! ## Names from a fixed list -/

/--
Where a value stands: on its own, or inside a layout node. Inside a node an
empty object may stand for nothing, and overlong records are reported by the
number of their fields.
-/
inductive Place where
  | alone
  | inNode
  deriving DecidableEq, Repr

/-- The payload of a name that has none. -/
def readNothing (place : Place) : Reader Unit
  | .null => .ok ()
  | .obj [] => if place = .inNode then .ok () else .error (.wrongType (.obj []) "unit")
  | other => .error (.wrongType other "unit")

/-- The value that a name stands for. -/
def findVariant {α : Type} (variants : List (String × α)) (name : String) :
    Except ShapeError α :=
  match variants.find? (·.1 = name) with
  | some variant => .ok variant.2
  | none => .error (.unknownVariant name (variants.map (·.1)))

/-- One of a list of names, alone or as the only key of an object. -/
def readVariant {α : Type} (place : Place) (variants : List (String × α)) : Reader α
  | .str name => findVariant variants name
  | .obj [(name, payload)] => do
    let value ← findVariant variants name
    readNothing place payload
    .ok value
  | .obj fields => .error (.wrongValue (.obj fields) "map with a single key")
  | other => .error (.wrongType other "string or map")

/-! ## Records -/

/-- The field of a key, or its default. -/
def field {α : Type} (fields : Fields) (key : String) (read : Reader α) (absent : α) :
    Except ShapeError α :=
  match lookup key fields with
  | some value => read value
  | none => .ok absent

/-- The field at a place, or its default. -/
def entry {α : Type} (items : List Json) (index : Nat) (read : Reader α) (absent : α) :
    Except ShapeError α :=
  match items[index]? with
  | some value => read value
  | none => .ok absent

theorem field_of_lookup {α : Type} {fields : Fields} {key : String} {value : Json}
    (h : lookup key fields = some value) (read : Reader α) (absent : α) :
    field fields key read absent = read value := by
  rw [field, h]

theorem field_of_missing {α : Type} {fields : Fields} {key : String}
    (h : lookup key fields = none) (read : Reader α) (absent : α) :
    field fields key read absent = .ok absent := by
  rw [field, h]

/-- The number of fields, spelled for a message. -/
def countedElements (count : Nat) : String :=
  if count = 1 then "1 element in sequence" else s!"{count} elements in sequence"

/-- Refuses entries beyond the fields of a record. -/
def checkLength (place : Place) (count : Nat) (items : List Json) : Except ShapeError Unit :=
  if items.length ≤ count then .ok ()
  else match place with
    | .alone => .error (.wrongLength items.length "fewer elements in array")
    | .inNode => .error (.wrongLength items.length (countedElements count))

/-- A record of `count` fields, given as an object or as an array. -/
def readRecord {α : Type} (name : String) (place : Place) (count : Nat)
    (byKey : Fields → Except ShapeError α) (byPlace : List Json → Except ShapeError α) :
    Reader α
  | .obj fields => byKey fields
  | .arr items => do
    let value ← byPlace items
    checkLength place count items
    .ok value
  | other => .error (.wrongType other s!"struct {name}")

end Pagewright.Json
