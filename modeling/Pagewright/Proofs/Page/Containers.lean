import Pagewright.Proofs.Page.Pruned

/-!
# The container page of a layout

The container dialect does without sections and columns. What it makes of a
layout is the pruned layout itself: each section, container, row and column is
one container around what is kept inside it, and each leaf is one widget. Shares
are those of the columns that are kept, counted among themselves, while paths
count all columns; apart from ids the page is the image of the pruned layout
alone.

## Main results

* `unlabelled_build` — what is built of a node is the image of the pruned node.
* `containers_exportLayout` — the container page of a layout.
-/

namespace Pagewright.Page

open Layout

/-! ## The image of a layout -/

/-- The settings of a wrapper whose children are laid out in a direction, if in any. -/
def directedSettings (direction : Option Direction) (style : Option Style) : Settings :=
  match direction with
  | some direction => Json.insert "flex_direction" (.str direction.name) (wrapperSettings style)
  | none => wrapperSettings style

/-- The direction that a style asks for. -/
def ownDirection (style : Option Style) : Option Direction := style.bind Style.direction

/-- Settings with a width in percent, where there is a share of the row to be had. -/
def sharedSettings (share : Option Nat) (settings : Settings) : Settings :=
  match share with
  | some share =>
    Json.insert "width"
      (.obj [("size", .int share), ("sizes", .arr []), ("unit", .str "%")]) settings
  | none => settings

/-- The widget of a leaf. A leaf without one is never part of a page. -/
def leafImage (leaf : Node) : Element Unit :=
  let (widget, settings) := (leafWidget leaf).getD (.html, [])
  Element.ofWidget () widget settings

mutual

/-- A node with everything inside it: wrappers as containers, leaves as widgets. -/
def nodeImage (inner : Bool) : Node → Element Unit
  | .section style children | .container style children =>
    Element.ofContainer () inner (directedSettings (ownDirection style) style)
      (nodeImages children)
  | .columns style entries =>
    Element.ofContainer () inner (directedSettings (some .row) style)
      (columnImages (columnShares (entries.map fun column => SizeHint.ofStyle column.style)) 0
        entries)
  | leaf => leafImage leaf

/-- The nodes inside a wrapper, one after the other. -/
def nodeImages : List Node → List (Element Unit)
  | [] => []
  | node :: rest => nodeImage true node :: nodeImages rest

/-- The columns of a row, the first of which has the share at a position. -/
def columnImages (shares : Option (List Nat)) (position : Nat) :
    List Column → List (Element Unit)
  | [] => []
  | .mk style children :: rest =>
    Element.ofContainer () true
        (sharedSettings (shares.bind (·[position]?))
          (directedSettings (ownDirection style) style))
        (nodeImages children)
      :: columnImages shares (position + 1) rest

end

/-- The page of a layout in which everything shows: the block of its root, or an empty
block around a leaf. -/
def pageImage (layout : Node) : Element Unit :=
  if layout.isWrapper then nodeImage false layout
  else Element.ofContainer () false [] [nodeImage false layout]

theorem nodeImage_leaf (inner : Bool) {leaf : Node} (hLeaf : leaf.isWrapper = false) :
    nodeImage inner leaf = leafImage leaf := by
  cases leaf with
  | «section» | container | columns => cases hLeaf
  | heading | text | image | button | input | nav | unknown => rfl

theorem nodeImages_eq (nodes : List Node) : nodeImages nodes = nodes.map (nodeImage true) := by
  induction nodes with
  | nil => rfl
  | cons node rest ih => rw [nodeImages, ih, List.map_cons]

/-- The image of a column with a share. -/
def columnImage (column : Column) (share : Option Nat) : Element Unit :=
  Element.ofContainer () true
    (sharedSettings share (directedSettings (ownDirection column.style) column.style))
    (nodeImages column.children)

theorem columnImages_eq (shares : Option (List Nat)) (position : Nat) (entries : List Column) :
    columnImages shares position entries =
      (entries.zipIdx position).map fun entry =>
        columnImage entry.1 (shares.bind (·[entry.2]?)) := by
  induction entries generalizing position with
  | nil => rfl
  | cons column rest ih =>
    obtain ⟨style, children⟩ := column
    rw [columnImages, ih, List.zipIdx_cons, List.map_cons]
    rfl

/-! ## What is built -/

/-- Nodes inside a wrapper are built as the images of those that are kept. -/
theorem unlabelled_buildNodes (depth : Nat) {nodes : List Node}
    (hNodes : ∀ node ∈ nodes, ∀ path e, build .container path depth node = some e →
      e.unlabelled = nodeImage true (node.pruned Node.hasContent))
    (path : Path) (index : Nat) :
    (buildNodes .container path depth index nodes).map Element.unlabelled =
      nodeImages (Node.prunedAll Node.hasContent nodes) := by
  rw [map_buildNodes hNodes path index, nodeImages_eq, Node.prunedAll_eq_map_filter, List.map_map]
  rfl

/-- Columns are built as the images of those that are kept, which share the row. -/
theorem unlabelled_buildColumns (depth : Nat) {entries : List Column}
    (hEntries : ∀ column ∈ entries, ∀ node ∈ column.children, ∀ path e,
      build .container path depth node = some e →
        e.unlabelled = nodeImage true (node.pruned Node.hasContent))
    (path : Path) :
    (buildColumns .container path depth (rowShares entries) 0 0 entries).map
        Element.unlabelled =
      columnImages (columnShares ((Column.prunedAll Node.hasContent entries).map
        fun column => SizeHint.ofStyle column.style)) 0
          (Column.prunedAll Node.hasContent entries) := by
  have hColumn : ∀ column ∈ entries, ∀ index share,
      (Dialect.wrapColumn .container path index column.style share
        (buildNodes .container (Dialect.cellPath path index) depth 0
          column.children)).unlabelled =
        columnImage (column.pruned Node.hasContent) share := by
    intro column hMem index share
    have hInside := unlabelled_buildNodes depth (hEntries column hMem)
      (Dialect.cellPath path index) 0
    simp only [Dialect.wrapColumn, Element.ofContainer, Element.unlabelled_eq, hInside]
    rfl
  have hShares : (Column.prunedAll Node.hasContent entries).map
      (fun column => SizeHint.ofStyle column.style) =
        (entries.filter Column.hasContent).map fun column => SizeHint.ofStyle column.style := by
    rw [Column.prunedAll_eq_map_filter, List.map_map]
    rfl
  have hMap := @map_buildColumns .container (Element Unit) Element.unlabelled
    (fun column share => columnImage (column.pruned Node.hasContent) share) path depth entries
    hColumn (rowShares entries) 0 0
  rw [hMap, hShares, columnImages_eq, Column.prunedAll_eq_map_filter, List.zipIdx_map,
    List.map_map]
  rfl

/-- In the container dialect a node is built as the image of what pruning leaves of it. -/
theorem unlabelled_build (node : Node) :
    ∀ path depth e, build .container path depth node = some e →
      e.unlabelled = nodeImage (decide (0 < depth)) (node.pruned Node.hasContent) := by
  have hBlock (style : Option Style) (children : List Node)
      (ih : ∀ child ∈ children, ∀ path depth e, build .container path depth child = some e →
        e.unlabelled = nodeImage (decide (0 < depth)) (child.pruned Node.hasContent))
      (path : Path) (depth : Nat) (e : Element Path)
      (hBuilt : build .container path depth (.container style children) = some e) :
      e.unlabelled = nodeImage (decide (0 < depth))
        ((Node.container style children).pruned Node.hasContent) := by
    obtain ⟨-, rfl⟩ := eq_of_build_container hBuilt
    have hInside := unlabelled_buildNodes (depth + 1)
      (fun child hChild path e hChildBuilt => ih child hChild path (depth + 1) e hChildBuilt)
      (path.under .elements) 0
    show Element.unlabelled (Element.ofContainer path _ _
      (buildNodes .container (path.under .elements) (depth + 1) 0 children)) = _
    simp only [Element.ofContainer, Element.unlabelled_eq, hInside]
    rfl
  induction node using Node.induct with
  | inSection style children ih =>
    intro path depth e hBuilt
    rw [build_section_block (.inl rfl)] at hBuilt
    exact hBlock style children ih path depth e hBuilt
  | inContainer style children ih => exact hBlock style children ih
  | inColumns style entries ih =>
    intro path depth e hBuilt
    obtain ⟨-, rfl⟩ := eq_of_build_columns hBuilt
    have hInside := unlabelled_buildColumns (depth + 2)
      (fun column hColumn node hNode path e hNodeBuilt =>
        ih column hColumn node hNode path (depth + 2) e hNodeBuilt) path
    show Element.unlabelled (Element.ofContainer path _ _ _) = _
    simp only [Element.ofContainer, Element.unlabelled_eq, hInside]
    rfl
  | atLeaf leaf hLeaf =>
    intro path depth e hBuilt
    obtain ⟨-, widget, settings, hWidget, rfl⟩ := eq_of_build_leaf hLeaf hBuilt
    rw [nodeImage_leaf _ ((Node.isWrapper_pruned _ leaf).trans hLeaf), leafImage,
      leafWidget_pruned _ hLeaf, hWidget]
    rfl

/-! ## The page -/

/-- Apart from ids the container page of a layout is the image of what pruning leaves of
it, and it is empty where the layout has no content. -/
theorem containers_exportLayout (layout : Node) (title : String) :
    (exportLayout (some layout) title .container).content.map Element.unlabelled =
      if layout.hasContent then [pageImage (layout.pruned Node.hasContent)] else [] := by
  show (content .container layout).map Element.unlabelled = _
  have hSome := build_isSome (d := .container) rootPath 0 layout
  rw [unlabelled_content, pageShape, rootBlock]
  cases hBuilt : build .container rootPath 0 layout with
  | none =>
    rw [hBuilt] at hSome
    rw [← hSome]
    rfl
  | some e =>
    rw [hBuilt] at hSome
    have hImage := unlabelled_build layout rootPath 0 e hBuilt
    have hBlock : (if e.kind = Dialect.topLevel .container then e.unlabelled
        else Dialect.holder .container e.unlabelled) =
          pageImage (layout.pruned Node.hasContent) := by
      rw [pageImage, Node.isWrapper_pruned, hImage]
      cases hWrapper : layout.isWrapper with
      | true =>
        rw [if_pos (kind_of_build_wrapper hWrapper hBuilt).1]
        rfl
      | false =>
        have hWidget := (kind_of_build_leaf hWrapper hBuilt).1
        rw [if_neg (by rw [hWidget]; decide)]
        rfl
    rw [← hSome, ← hBlock]
    rfl

end Pagewright.Page
