import Pagewright.Config.Settings
import Pagewright.Toml.Parser

/-!
# Layers of settings

Settings come in layers over built-in defaults: files and environment
variables in the order in which they are added, and above all of them single
overrides. A layer sets the keys that it names and leaves the others. The keys
of a layer, those of a table and the overrides have no order among themselves;
they are applied as they stand, and where two of them set the same thing, either
may win.

## Main results

* `build_withFile_missing` — a required file that is not there is an error.
-/

namespace Pagewright.Config

/-! ## Defaults -/

/-- A text that the library itself provides. -/
def builtinText (s : String) : Value := .scalar none (.text s)

/-- A whole number that the library itself provides. -/
def builtinInt (n : Int) : Value := .scalar none (.int n)

/-- A number that the library itself provides. -/
def builtinFloat (x : Float) : Value := .scalar none (.float x)

/-- The settings that hold without any layer. -/
def defaults : Value := .ofEntries
  [("figma", .ofEntries
    [("base_url", builtinText "https://api.figma.com/v1"), ("token", builtinText ""),
     ("timeout_secs", builtinInt 20), ("depth", builtinInt 10)]),
   ("classifier", .ofEntries
    [("background_coverage", builtinFloat 0.92), ("background_offset", builtinFloat 8.0),
     ("centered_label_tolerance", builtinFloat 48.0), ("row_threshold_min", builtinFloat 8.0),
     ("row_threshold_factor", builtinFloat 0.35),
     ("heading_sizes",
       .list none [builtinFloat 32.0, builtinFloat 24.0, builtinFloat 20.0]),
     ("image_min", builtinInt 80), ("image_max", builtinInt 1200),
     ("placeholder_base", builtinText "https://placehold.co")]),
   ("export", .ofEntries
    [("title", builtinText "Template Title"), ("dialect", builtinText "classic")])]

/-! ## Layers -/

/-- A key with the value that is set at it. -/
structure Assignment where
  key : Key
  value : Value

/-- Sets one key. -/
def Assignment.apply (root : Value) (assignment : Assignment) : Value :=
  put assignment.key assignment.value root

/-- Assignments with one more, which takes the place of one with the same key. -/
def Assignment.insert (assignments : List Assignment) (assignment : Assignment) :
    List Assignment :=
  assignments.filter (·.key != assignment.key) ++ [assignment]

/-- The assignments of a document. -/
def assignmentsOf (origin : Origin) (entries : Toml.Entries) : List Assignment :=
  (Value.ofTomlEntries origin entries).map fun (name, value) => ⟨Key.ofName name, value⟩

/-- The layer of a file with the given content. -/
def fileLayer (name content : String) : Except ConfigError (List Assignment) :=
  match Toml.parse? content with
  | some entries => .ok (assignmentsOf (some name) entries)
  | none => .error (.malformedFile name)

/-! ## The environment -/

/-- What the names of variables begin with that are settings. -/
def variableStart : String := "blueprint__"

/-- A text with every two underscores as a dot, from the left. -/
def dotted : List Char → List Char
  | '_' :: '_' :: rest => '.' :: dotted rest
  | c :: rest => c :: dotted rest
  | [] => []

/-- The name of the setting of a variable, if it is one. -/
def variableKey? (name : String) : Option String :=
  (Text.stripStart? variableStart.toList (Text.small name).toList).map fun rest =>
    String.ofList (dotted rest)

/-- The value of a variable: a truth value, an integer, a number, or text. -/
def variableValue (text : String) : Scalar :=
  match Text.small text with
  | "true" => .bool true
  | "false" => .bool false
  | _ =>
    match (Number.parseInt? text.toList).filter Number.isInt64, Number.parse? text.toList with
    | some n, _ => .int n
    | none, some x => .float x
    | none, none => .text text

/-- The assignment of a variable, if it is a setting. -/
def variableAssignment? (name text : String) : Option Assignment :=
  (variableKey? name).map fun key =>
    ⟨Key.ofName key, .scalar (some "the environment") (variableValue text)⟩

/-- The layer of the variables of the environment; of the same key the last one counts. -/
def environmentLayer (environment : List (String × String)) : List Assignment :=
  (environment.filterMap fun (name, text) => variableAssignment? name text).foldl
    Assignment.insert []

/-! ## The loader -/

/-- Layers in the order in which they were added, and overrides in any order. -/
structure Loader where
  layers : List (Except ConfigError (List Assignment))
  overrides : List Assignment

namespace Loader

/-- The loader of the defaults alone. -/
def new : Loader := ⟨[], []⟩

/-- Adds a layer on top of the others. -/
def withLayer (loader : Loader) (layer : Except ConfigError (List Assignment)) : Loader :=
  { loader with layers := loader.layers ++ [layer] }

/-- Adds a file; it has to be there. A file is given by the name it was found under. -/
def withFile (loader : Loader) (name : String) (found : Option (String × String)) : Loader :=
  match found with
  | some (foundName, content) => loader.withLayer (fileLayer foundName content)
  | none => loader.withLayer (.error (.missingFile name))

/-- Adds a file if it is there. -/
def withOptionalFile (loader : Loader) (found : Option (String × String)) : Loader :=
  match found with
  | some (foundName, content) => loader.withLayer (fileLayer foundName content)
  | none => loader

/-- Adds the variables of the environment. -/
def withEnvironment (loader : Loader) (environment : List (String × String)) : Loader :=
  loader.withLayer (.ok (environmentLayer environment))

/-- Overrides a key above all layers; of the same key the last override counts. -/
def setOverride (loader : Loader) (key : String) (value : Value) :
    Except ConfigError Loader :=
  match Key.parse? key with
  | some steps =>
    .ok { loader with overrides := Assignment.insert loader.overrides ⟨steps, value⟩ }
  | none => .error (.badKey key)

/-- Sets the keys of a layer. -/
def applyLayer (root : Value) (layer : Except ConfigError (List Assignment)) :
    Except ConfigError Value := do
  .ok ((← layer).foldl Assignment.apply root)

/-- All values after the defaults, the layers and the overrides. -/
def values (loader : Loader) : Except ConfigError Value := do
  let layered ← loader.layers.foldlM applyLayer defaults
  .ok (loader.overrides.foldl Assignment.apply layered)

/-- The settings of a loader. -/
def build (loader : Loader) : Except ConfigError Settings := do
  readSettings (← loader.values)

/-- A required file that is not there is an error. -/
theorem build_withFile_missing (name : String) :
    (new.withFile name none).build = .error (.missingFile name) := rfl

end Loader

end Pagewright.Config
