import Pagewright.Format.Basic

/-!
# The registry of formats

A registry keeps formats by name, in ascending order of names; registering a
format replaces the one that had its name.

## Main results

* `find?_register_self`, `find?_register_ne` — a registration changes what is
  found under its own name only.
-/

namespace Pagewright

/-- Formats in ascending order of their names. -/
structure Registry where
  formats : List Format

namespace Registry

/-- A registry without formats. -/
def empty : Registry := ⟨[]⟩

/-- Puts a format at its place. -/
def place (format : Format) : List Format → List Format
  | [] => [format]
  | other :: rest =>
    if other.name = format.name then format :: rest
    else if format.name < other.name then format :: other :: rest
    else other :: place format rest

/-- Registers a format under its name. -/
def register (registry : Registry) (format : Format) : Registry :=
  ⟨place format registry.formats⟩

/-- The three formats of the library, page documents with default settings. -/
def defaults : Registry :=
  ((empty.register Format.layout).register Format.html).register
    (Format.pageBuilder Page.defaultTitle .classic)

/-- The names of the formats. -/
def names (registry : Registry) : List String := registry.formats.map (·.name)

/-- The first format of a name. -/
def findIn (name : String) : List Format → Option Format
  | [] => none
  | format :: rest => if format.name = name then some format else findIn name rest

/-- The format of a name. -/
def find? (registry : Registry) (name : String) : Option Format := findIn name registry.formats

/-- Whether there is a format of a name. -/
def has (registry : Registry) (name : String) : Bool := (registry.find? name).isSome

/-- The format of a name, or the error that there is none. -/
def get (registry : Registry) (name : String) : Except FormatError Format :=
  match registry.find? name with
  | some format => .ok format
  | none => .error (.notFound name)

/-- Reads a text in a format that says that it can be read. -/
def parse (registry : Registry) (source name : String) : Except FormatError Layout.Node := do
  let format ← registry.get name
  match format.reads? with
  | some read => read source
  | none => .error (.noParsing name)

/-- Writes a layout in a format that says that it can be written. -/
def serialize (registry : Registry) (layout : Layout.Node) (name : String) :
    Except FormatError String := do
  let format ← registry.get name
  match format.writes? with
  | some write => write layout
  | none => .error (.noSerialization name)

theorem findIn_place_self (format : Format) (formats : List Format) :
    findIn format.name (place format formats) = some format := by
  induction formats with
  | nil => simp [place, findIn]
  | cons other rest ih =>
    unfold place
    split
    · simp [findIn]
    · split
      · simp [findIn]
      · simp [findIn, *]

theorem findIn_place_ne {format : Format} {name : String} (h : format.name ≠ name)
    (formats : List Format) : findIn name (place format formats) = findIn name formats := by
  induction formats with
  | nil => simp [place, findIn, h]
  | cons other rest ih =>
    unfold place
    split
    · rename_i hSame
      simp [findIn, h, hSame]
    · split
      · simp [findIn, h]
      · simp only [findIn, ih]

theorem find?_register_self (registry : Registry) (format : Format) :
    (registry.register format).find? format.name = some format :=
  findIn_place_self format registry.formats

theorem find?_register_ne (registry : Registry) {format : Format} {name : String}
    (h : format.name ≠ name) : (registry.register format).find? name = registry.find? name :=
  findIn_place_ne h registry.formats

end Registry

end Pagewright
