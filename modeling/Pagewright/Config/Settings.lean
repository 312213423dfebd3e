import Pagewright.Config.Error
import Pagewright.Config.Key
import Pagewright.Design.Thresholds
import Pagewright.Number.Literal
import Pagewright.Number.Rounding
import Pagewright.Page.Dialect

/-!
# Settings

The settings in three groups: access to the design service, thresholds of the
classification, and the defaults of page-builder documents. A scalar of
another type than its setting is converted where that makes sense: numbers and
truth values to text, text to numbers, and numbers to whole numbers by
rounding.
-/

namespace Pagewright.Config

/-- Access to the design service. -/
structure Service where
  baseUrl : String
  token : String
  timeoutSeconds : Nat
  depth : UInt32
  deriving DecidableEq, Repr, Inhabited

/-- What page-builder documents have without being told. -/
structure PageDefaults where
  title : String
  dialect : Page.Dialect
  deriving DecidableEq, Repr, Inhabited

/-- All settings. -/
structure Settings where
  service : Service
  thresholds : Design.Thresholds
  page : PageDefaults
  deriving DecidableEq, Repr, Inhabited

/-! ## Conversions -/

/-- Reads a value, given its key. -/
abbrev Reader (α : Type) := String → Value → Except ConfigError α

/-- Complains that a value does not convert. -/
def refuse {α : Type} (expected key : String) (value : Value) : Except ConfigError α :=
  .error (.wrongType value.found expected key value.origin)

/-- A truth value by one of its names. -/
def truthOf? (text : String) : Option Bool :=
  match Text.small text with
  | "true" | "on" | "yes" => some true
  | "false" | "off" | "no" => some false
  | _ => none

/-- A text. -/
def readText : Reader String := fun key value =>
  match value with
  | .scalar _ (.text s) => .ok s
  | .scalar _ (.bool b) => .ok (if b then "true" else "false")
  | .scalar _ (.int n) => .ok (toString n)
  | .scalar _ (.float x) => .ok (Number.plainText x)
  | other => refuse "a string" key other

/-- A number. -/
def readFloat : Reader Float := fun key value =>
  match value with
  | .scalar _ (.float x) => .ok x
  | .scalar _ (.int n) => .ok (Number.ofInt n)
  | .scalar _ (.bool b) => .ok (if b then 1.0 else 0.0)
  | .scalar origin (.text s) =>
    match truthOf? s, Number.parse? s.toList with
    | some b, _ => .ok (if b then 1.0 else 0.0)
    | none, some x => .ok x
    | none, none => refuse "a floating point" key (.scalar origin (.text s))
  | other => refuse "a floating point" key other

/-- What a natural number of 64 bits is called. -/
def nat64Name : String := "an unsigned 64 bit or less integer"

/-- A natural number of 64 bits without a minus sign. -/
def parseNat64? (text : String) : Option Nat :=
  if text.toList.head? = some '-' then none
  else ((Number.parseInt? text.toList).filter Number.isNat64).map Int.toNat

/-- A natural number of 64 bits. -/
def readNat64 : Reader Nat := fun key value =>
  match value with
  | .scalar origin (.int n) =>
    if Number.isNat64 n then .ok n.toNat else refuse nat64Name key (.scalar origin (.int n))
  | .scalar _ (.float x) => .ok (Number.nearest 0 0xffffffffffffffff x).toNat
  | .scalar _ (.bool b) => .ok (if b then 1 else 0)
  | .scalar origin (.text s) =>
    match truthOf? s, parseNat64? s with
    | some b, _ => .ok (if b then 1 else 0)
    | none, some n => .ok n
    | none, none => refuse nat64Name key (.scalar origin (.text s))
  | other => refuse nat64Name key other

/-- A natural number of 32 bits. -/
def readNat32 : Reader UInt32 := fun key value => do
  let n ← readNat64 key value
  if Number.isNat32 n then .ok (UInt32.ofNat n)
  else .error (.wrongType (.unsigned n) "an unsigned 32 bit integer" key value.origin)

/-- A dialect by its name. -/
def readDialect : Reader Page.Dialect := fun key value => do
  .ok (Page.Dialect.ofName (← readText key value))

/-! ## Groups -/

/-- The fields of a group, given as a table by name or as a list by place. -/
inductive Group where
  | named (parentKey : String) (entries : Entries)
  | listed (parentKey : String) (items : List Value)

/-- The fields of a value that has to be a group. -/
def groupOf (name key : String) : Value → Except ConfigError Group
  | .table _ entries => .ok (.named key entries)
  | .list _ items => .ok (.listed key items)
  | other => .error (.wrongShape other.found ("struct " ++ name))

/-- A field of a group, if it is there. -/
def Group.field? {α : Type} (group : Group) (place : Nat) (name : String) (read : Reader α) :
    Except ConfigError (Option α) :=
  match group with
  | named key entries =>
    match entryAt name entries with
    | some value => (read (key ++ "." ++ name) value).map some
    | none => .ok none
  | listed key items =>
    match items[place]? with
    | some value => (read (key ++ "[" ++ toString place ++ "]") value).map some
    | none => .ok none

/-- A field that a group has to have, of so many fields. -/
def Group.required {α : Type} (group : Group) (shape : String) (place : Nat) (name : String)
    (read : Reader α) : Except ConfigError α := do
  match ← group.field? place name read with
  | some value => .ok value
  | none =>
    match group with
    | named .. => .error (.missingKey name)
    | listed _ items => .error (.tooShort items.length shape)

/-- A field of a group, or its default. -/
def Group.optional {α : Type} (group : Group) (place : Nat) (name : String) (read : Reader α)
    (absent : α) : Except ConfigError α := do
  .ok ((← group.field? place name read).getD absent)

/-- Access to the design service. -/
def readService : Reader Service := fun key value => do
  let group ← groupOf "FigmaConfig" key value
  let shape := "struct FigmaConfig with 4 elements"
  .ok {
    baseUrl := ← group.required shape 0 "base_url" readText
    token := ← group.required shape 1 "token" readText
    timeoutSeconds := ← group.required shape 2 "timeout_secs" readNat64
    depth := ← group.required shape 3 "depth" readNat32 }

/-- Three heading sizes; more are cut off. -/
def readHeadingSizes : Reader Design.HeadingSizes := fun key value =>
  let shape := "an array of length 3"
  match value with
  | .list _ items =>
    let sizes := Group.listed key items
    do
      .ok {
        first := ← sizes.required shape 0 "" readFloat
        second := ← sizes.required shape 1 "" readFloat
        third := ← sizes.required shape 2 "" readFloat }
  | other => .error (.wrongShape other.found shape)

/-- Thresholds; what is missing has its default. -/
def readThresholds : Reader Design.Thresholds := fun key value => do
  let group ← groupOf "Thresholds" key value
  let base : Design.Thresholds := {}
  .ok {
    backgroundCoverage :=
      ← group.optional 0 "background_coverage" readFloat base.backgroundCoverage
    backgroundOffset := ← group.optional 1 "background_offset" readFloat base.backgroundOffset
    centeredLabelTolerance :=
      ← group.optional 2 "centered_label_tolerance" readFloat base.centeredLabelTolerance
    rowThresholdMin := ← group.optional 3 "row_threshold_min" readFloat base.rowThresholdMin
    rowThresholdFactor :=
      ← group.optional 4 "row_threshold_factor" readFloat base.rowThresholdFactor
    headingSizes := ← group.optional 5 "heading_sizes" readHeadingSizes base.headingSizes
    imageMin := ← group.optional 6 "image_min" readNat32 base.imageMin
    imageMax := ← group.optional 7 "image_max" readNat32 base.imageMax
    placeholderBase := ← group.optional 8 "placeholder_base" readText base.placeholderBase }

/-- The defaults of page-builder documents. -/
def readPageDefaults : Reader PageDefaults := fun key value => do
  let group ← groupOf "ExportConfig" key value
  let shape := "struct ExportConfig with 2 elements"
  .ok {
    title := ← group.required shape 0 "title" readText
    dialect := ← group.required shape 1 "dialect" readDialect }

/-- The value of a group at the root. -/
def rootGroup (root : Value) (name : String) : Except ConfigError Value :=
  match entryAt name root.entries with
  | some value => .ok value
  | none => .error (.missingKey name)

/-- All settings. -/
def readSettings (root : Value) : Except ConfigError Settings := do
  .ok {
    service := ← readService "figma" (← rootGroup root "figma")
    thresholds := ← readThresholds "classifier" (← rootGroup root "classifier")
    page := ← readPageDefaults "export" (← rootGroup root "export") }

end Pagewright.Config
