import Pagewright.Layout.Node
import Pagewright.Text.Search

/-!
# Counting what a layout holds

A census walks a layout once and lists what it meets: every node, every column
of a row and every link of a navigation bar, each with its kind and style. All
figures of the report are counts over that list, so they add up over subtrees
and do not depend on the order of siblings.

## Main results

* `sightings_section`, `sightings_container` — a wrapper is one sighting in
  front of those of its children.
* `mem_tally` — the table of kinds gives each kind the number of its
  sightings.
-/

namespace Pagewright.Layout

/-- Something met on the walk through a layout. -/
structure Sighting where
  kind : String
  style : Option Style
  /-- The source of an image node. -/
  imageSource : Option String := none
  deriving DecidableEq, Repr, Inhabited

/-! ## The walk -/

mutual

/-- What a node holds, itself first. -/
def Node.sightings : Node → List Sighting
  | .section style children => ⟨"section", style, none⟩ :: Node.allSightings children
  | .container style children => ⟨"container", style, none⟩ :: Node.allSightings children
  | .columns style entries => ⟨"columns", style, none⟩ :: Column.allSightings entries
  | .heading _ _ style => [⟨"heading", style, none⟩]
  | .text _ style => [⟨"text", style, none⟩]
  | .image src _ style => [⟨"image", style, some src⟩]
  | .button _ _ style => [⟨"button", style, none⟩]
  | .input _ style => [⟨"input", style, none⟩]
  | .nav style items =>
    ⟨"nav", style, none⟩ :: items.map fun item => ⟨"navItem", item.style, none⟩
  | .unknown fields style => [⟨Node.declaredKind fields, style, none⟩]

/-- What the nodes of a list hold. -/
def Node.allSightings : List Node → List Sighting
  | [] => []
  | node :: rest => node.sightings ++ Node.allSightings rest

/-- What a column holds; the column itself counts as a container. -/
def Column.sightings : Column → List Sighting
  | .mk style children => ⟨"container", style, none⟩ :: Node.allSightings children

/-- What the columns of a row hold. -/
def Column.allSightings : List Column → List Sighting
  | [] => []
  | column :: rest => column.sightings ++ Column.allSightings rest

end

theorem Node.allSightings_eq (nodes : List Node) :
    Node.allSightings nodes = nodes.flatMap Node.sightings := by
  induction nodes with
  | nil => rfl
  | cons node rest ih => simp [Node.allSightings, ih]

theorem Column.allSightings_eq (columns : List Column) :
    Column.allSightings columns = columns.flatMap Column.sightings := by
  induction columns with
  | nil => rfl
  | cons column rest ih => simp [Column.allSightings, ih]

theorem sightings_section (style : Option Style) (children : List Node) :
    (Node.section style children).sightings =
      ⟨"section", style, none⟩ :: children.flatMap Node.sightings := by
  rw [Node.sightings, Node.allSightings_eq]

theorem sightings_container (style : Option Style) (children : List Node) :
    (Node.container style children).sightings =
      ⟨"container", style, none⟩ :: children.flatMap Node.sightings := by
  rw [Node.sightings, Node.allSightings_eq]

/-! ## Counts by kind -/

/-- Adds a name to names in ascending order, unless it is among them. -/
def insertName (name : String) : List String → List String
  | [] => [name]
  | other :: rest =>
    if other = name then other :: rest
    else if name < other then name :: other :: rest
    else other :: insertName name rest

/-- The different names of a list in ascending order. -/
def distinctNames (names : List String) : List String := names.foldr insertName []

theorem mem_insertName {name other : String} {names : List String} :
    other ∈ insertName name names ↔ other = name ∨ other ∈ names := by
  induction names with
  | nil => simp [insertName]
  | cons head rest ih =>
    unfold insertName
    split
    · rename_i h
      subst h
      simp
    · split
      · simp
      · simp only [List.mem_cons, ih]
        exact or_left_comm

theorem mem_distinctNames {name : String} {names : List String} :
    name ∈ distinctNames names ↔ name ∈ names := by
  induction names with
  | nil => simp [distinctNames]
  | cons head rest ih =>
    rw [distinctNames, List.foldr_cons, mem_insertName, List.mem_cons]
    exact or_congr_right ih

/-- How often each kind occurs, in ascending order of kinds. -/
def tally (kinds : List String) : List (String × Nat) :=
  (distinctNames kinds).map fun kind => (kind, kinds.count kind)

theorem mem_tally {kind : String} {n : Nat} {kinds : List String} :
    (kind, n) ∈ tally kinds ↔ kind ∈ kinds ∧ n = kinds.count kind := by
  simp only [tally, List.mem_map, Prod.mk.injEq, mem_distinctNames]
  constructor
  · rintro ⟨k, hk, rfl, rfl⟩
    exact ⟨hk, rfl⟩
  · rintro ⟨hk, rfl⟩
    exact ⟨kind, hk, rfl, rfl⟩

/-! ## The report -/

/-- How many sightings set each group of style fields. -/
structure StyleCounts where
  backgroundColor : Nat
  border : Nat
  borderRadius : Nat
  boxShadow : Nat
  typography : Nat
  gap : Nat
  padding : Nat
  widthPercent : Nat
  flexGrow : Nat
  deriving DecidableEq, Repr, Inhabited

/-- The number of sightings whose style has a property. -/
def countStyled (has : Style → Bool) (found : List Sighting) : Nat :=
  found.countP fun sighting => sighting.style.any has

/-- The style counts of what was met. -/
def StyleCounts.of (found : List Sighting) : StyleCounts where
  backgroundColor := countStyled (·.backgroundColor.isSome) found
  border := countStyled (·.border.isSome) found
  borderRadius := countStyled (·.borderRadius.isSome) found
  boxShadow := countStyled (·.boxShadow.isSome) found
  typography := countStyled Style.hasTypography found
  gap := countStyled (·.gap.isSome) found
  padding := countStyled (·.padding.isSome) found
  widthPercent := countStyled (·.widthPercent.isSome) found
  flexGrow := countStyled (·.flexGrow.isSome) found

/-- The host that serves placeholder images. -/
def placeholderHost : String := "placehold.co"

/-- Whether a sighting is an image that stands in for a real one. -/
def Sighting.isPlaceholder (sighting : Sighting) : Bool :=
  sighting.imageSource.any fun src => Text.contains src placeholderHost

/-- What a reader of the report should know. -/
inductive Warning where
  | noLayout
  | noBackground
  | noTypography
  | placeholders
  deriving DecidableEq, Repr, Inhabited

/-- The wording of a warning. -/
def Warning.message : Warning → String
  | .noLayout => "Layout JSON is empty."
  | .noBackground => "No background colors detected."
  | .noTypography => "No typography styles detected."
  | .placeholders => "Placeholder images are being used."

/-- The figures of a layout. -/
structure Report where
  totalNodes : Nat
  kinds : List (String × Nat)
  styles : StyleCounts
  images : Nat
  placeholders : Nat
  warnings : List Warning
  deriving DecidableEq, Repr, Inhabited

/-- The warnings that figures call for. -/
def warningsOf (styles : StyleCounts) (placeholders : Nat) : List Warning :=
  (if styles.backgroundColor = 0 then [.noBackground] else []) ++
  (if styles.typography = 0 then [.noTypography] else []) ++
  (if 0 < placeholders then [.placeholders] else [])

/-- The figures of what was met. -/
def Report.of (found : List Sighting) : Report :=
  let styles := StyleCounts.of found
  let placeholders := found.countP Sighting.isPlaceholder
  { totalNodes := found.length
    kinds := tally (found.map (·.kind))
    styles
    images := found.countP (·.imageSource.isSome)
    placeholders
    warnings := warningsOf styles placeholders }

/-- The report of a layout; without one there is nothing to count. -/
def report : Option Node → Report
  | none => { Report.of [] with warnings := [.noLayout] }
  | some node => Report.of node.sightings

/-! ## The JSON form -/

/-- A count. -/
def countToJson (n : Nat) : Json := .int n

/-- The JSON form of style counts. -/
def StyleCounts.toJson (c : StyleCounts) : Json :=
  .obj [("backgroundColor", countToJson c.backgroundColor), ("border", countToJson c.border),
    ("borderRadius", countToJson c.borderRadius), ("boxShadow", countToJson c.boxShadow),
    ("typography", countToJson c.typography), ("gap", countToJson c.gap),
    ("padding", countToJson c.padding), ("widthPercent", countToJson c.widthPercent),
    ("flexGrow", countToJson c.flexGrow)]

/-- The JSON form of a report. -/
def Report.toJson (r : Report) : Json :=
  .obj [("total_nodes", countToJson r.totalNodes),
    ("types", .obj (r.kinds.map fun entry => (entry.1, countToJson entry.2))),
    ("styles", r.styles.toJson),
    ("images", .obj [("total", countToJson r.images),
      ("placeholders", countToJson r.placeholders)]),
    ("warnings", .arr (r.warnings.map fun warning => .str warning.message))]

end Pagewright.Layout
