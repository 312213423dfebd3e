import Pagewright.Proofs.Page.Preservation
import Pagewright.Proofs.Page.Shares

/-!
# Sized rows

A row whose columns have shares is exported with one size on each of its columns.
The sized rows of a page are looked at as lists of cells, a cell being the size
of a column and what the column shows; the sized rows of a layout are the same
list, with shares for sizes.

Building gives one sized row for each sized row of the layout. Flattening keeps
them all, because it takes apart columns without settings only. A split may take
the sole column of a row apart: then there is one row of one cell less.

## Main results

* `sizedRows_build` — building sizes the rows of a node as their shares say.
* `sizedRows_content` — a page has the sized rows of its layout, but for a row of
  one column that was taken apart.
* `rows_exportLayout` — the columns of a row are filled up.
-/

namespace Pagewright.Page

open Layout

variable {ι κ : Type} {d : Dialect}

/-! ## Sizes -/

/-- The setting that holds the size of a column. -/
def Dialect.sizeKey : Dialect → String
  | container => "width"
  | _ => "_column_size"

/-- A share of a row as the size of a column. -/
def Dialect.sizeValue (d : Dialect) (share : Nat) : Json :=
  match d with
  | container => Dialect.widthSetting share
  | _ => .str (toString share)

/-- The kind of the elements that stand for columns. -/
def Dialect.cellKind : Dialect → ElementKind
  | container => .container
  | _ => .column

/-- The size of a column, if it has one. -/
def Element.size (d : Dialect) (e : Element ι) : Option Json :=
  if e.kind = d.cellKind then Json.lookup d.sizeKey e.settings else none

/-- The size of a column and what the column shows. -/
abbrev Cell : Type := Option Json × List (Option (WidgetKind × Settings))

/-- The elements inside an element as the columns of a row. -/
def Element.cells (d : Dialect) (e : Element ι) : List Cell :=
  e.elements.map fun cell => (cell.size d, cell.placements.map Placement.shown)

/-- Whether an element is a row with sizes. -/
def Element.isSizedRow (d : Dialect) (e : Element ι) : Bool :=
  e.kind == d.topLevel && e.elements.any fun cell => (cell.size d).isSome

/-- The sized rows of a tree in document order. -/
def Element.sizedRows (d : Dialect) (e : Element ι) : List (List Cell) :=
  (e.preorder.filter (Element.isSizedRow d)).map (Element.cells d)

theorem sizedRows_eq (e : Element ι) :
    e.sizedRows d = (if e.isSizedRow d then [e.cells d] else []) ++
      e.elements.flatMap (Element.sizedRows d) := by
  have hInside : e.elements.flatMap (Element.sizedRows d) =
      ((e.elements.flatMap Element.preorder).filter (Element.isSizedRow d)).map
        (Element.cells d) := by
    rw [List.filter_flatMap, List.map_flatMap]
    rfl
  rw [hInside, Element.sizedRows, Element.preorder_eq, List.filter_cons]
  split <;> rfl

/-- What is no sized row itself has the sized rows inside it. -/
theorem sizedRows_of_not {e : Element ι} (hRow : e.isSizedRow d = false) :
    e.sizedRows d = e.elements.flatMap (Element.sizedRows d) := by
  rw [sizedRows_eq, hRow, if_neg Bool.false_ne_true, List.nil_append]

theorem isSizedRow_of_kind {e : Element ι} (hKind : e.kind ≠ d.topLevel) :
    e.isSizedRow d = false := by
  rw [Element.isSizedRow, beq_eq_false_iff_ne.2 hKind, Bool.false_and]

/-- In the classic dialects a column is no row. -/
theorem sizedRows_of_column (hDialect : d ≠ .container) {column : Element ι}
    (hColumn : column.kind = .column) :
    column.sizedRows d = column.elements.flatMap (Element.sizedRows d) := by
  refine sizedRows_of_not (isSizedRow_of_kind ?_)
  rw [hColumn, topLevel_of_classic hDialect]
  exact nofun

theorem isSizedRow_of_sizes {e : Element ι} (hSizes : ∀ cell ∈ e.elements, cell.size d = none) :
    e.isSizedRow d = false := by
  rw [Element.isSizedRow, Bool.and_eq_false_iff]
  refine .inr (List.any_eq_false.2 fun cell hMem => ?_)
  rw [hSizes cell hMem]
  exact Bool.false_ne_true

/-- Neither the label nor the settings of an element matter to its rows. -/
theorem sizedRows_congr {e other : Element ι} (hKind : other.kind = e.kind)
    (hElements : other.elements = e.elements) : other.sizedRows d = e.sizedRows d := by
  rw [sizedRows_eq, sizedRows_eq e, Element.isSizedRow, Element.isSizedRow, Element.cells,
    Element.cells, hKind, hElements]

/-! Labels play no part in it. -/

theorem size_map (f : ι → κ) (e : Element ι) : (Element.map f e).size d = e.size d := by
  rw [Element.size, Element.size, Element.map_kind, Element.map_settings]

theorem sizedRows_map (f : ι → κ) (e : Element ι) :
    (Element.map f e).sizedRows d = e.sizedRows d := by
  have hSome : (fun cell : Element κ => (cell.size d).isSome) ∘ Element.map f =
      fun cell => (cell.size d).isSome :=
    funext fun cell => by rw [Function.comp_apply, size_map]
  have hRow : Element.isSizedRow d ∘ Element.map f = Element.isSizedRow d := by
    funext x
    rw [Function.comp_apply, Element.isSizedRow, Element.isSizedRow, Element.map_kind,
      Element.map_elements, List.any_map, hSome]
  have hCells : Element.cells d ∘ Element.map f = Element.cells d := by
    funext x
    rw [Function.comp_apply, Element.cells, Element.cells, Element.map_elements, List.map_map]
    refine List.map_congr_left fun cell _ => ?_
    rw [Function.comp_apply, size_map, Element.placements_map]
  rw [Element.sizedRows, Element.sizedRows, Element.preorder_map, List.filter_map, List.map_map,
    hRow, hCells]

/-! ## Rows of a layout -/

/-- The columns of a row that have content, each with its share as a size and
what it shows. -/
def rowCells (d : Dialect) (entries : List Column) : List Cell :=
  (entries.filter Column.hasContent).zipIdx.map fun entry =>
    (((rowShares entries).bind (·[entry.2]?)).map d.sizeValue, entry.1.shown.map leafWidget)

/-- The rows of a layout that have shares, in document order. -/
def layoutSizedRows (d : Dialect) (node : Node) : List (List Cell) :=
  (node.rows.filter fun entries => (rowShares entries).isSome).map (rowCells d)

/-- Rows have as many shares as columns with content. -/
theorem complete_rowShares {entries : List Column} {shares : List Nat}
    (hShares : rowShares entries = some shares) :
    Shares.Complete Shares.total (entries.filter Column.hasContent).length shares := by
  have hComplete := complete_columnShares hShares
  rwa [List.length_map] at hComplete

theorem rowShares_of_empty {entries : List Column}
    (hNone : entries.filter Column.hasContent = []) : rowShares entries = none := by
  rw [rowShares, hNone]
  rfl

/-- With the shares of its row given, the sizes of a row are these shares. -/
theorem map_fst_rowCells {entries : List Column} {shares : List Nat}
    (hShares : rowShares entries = some shares) :
    (rowCells d entries).map Prod.fst = shares.map fun share => some (d.sizeValue share) := by
  have hLength := (complete_rowShares hShares).length
  refine List.ext_getElem (by simp [rowCells, hLength]) fun k hLeft hRight => ?_
  have hShare : k < shares.length := by simpa using hRight
  simp [rowCells, hShares, List.getElem?_eq_getElem hShare]

/-- A row has sizes exactly when it has shares. -/
theorem any_rowCells (entries : List Column) :
    ((rowCells d entries).any fun cell => cell.1.isSome) = (rowShares entries).isSome := by
  have hFirst : ((rowCells d entries).any fun cell => cell.1.isSome) =
      ((rowCells d entries).map Prod.fst).any Option.isSome := by
    rw [List.any_map]
    rfl
  rw [hFirst]
  cases hShares : rowShares entries with
  | none =>
    rw [rowCells, hShares, List.map_map]
    exact List.any_eq_false.2 fun size hMem => by
      obtain ⟨entry, -, rfl⟩ := List.mem_map.1 hMem
      exact Bool.false_ne_true
  | some shares =>
    have hSum := (complete_rowShares hShares).sum
    rw [map_fst_rowCells hShares]
    cases shares with
    | nil => cases hSum
    | cons share rest => rfl

theorem map_snd_rowCells (entries : List Column) :
    (rowCells d entries).map Prod.snd =
      (entries.filter Column.hasContent).map fun column => column.shown.map leafWidget := by
  have hShown : Prod.snd ∘ (fun entry : Column × Nat =>
      (((rowShares entries).bind (·[entry.2]?)).map d.sizeValue, entry.1.shown.map leafWidget)) =
        (fun column : Column => column.shown.map leafWidget) ∘ Prod.fst := rfl
  rw [rowCells, List.map_map, hShown, ← List.map_map, List.zipIdx_map_fst]

private theorem rows_flatMap (nodes : List Node) :
    ((nodes.flatMap Node.rows).filter fun entries => (rowShares entries).isSome).map
      (rowCells d) = nodes.flatMap (layoutSizedRows d) := by
  rw [List.filter_flatMap, List.map_flatMap]
  rfl

theorem layoutSizedRows_container (style : Option Style) (children : List Node) :
    layoutSizedRows d (.container style children) = children.flatMap (layoutSizedRows d) := by
  rw [layoutSizedRows, Node.rows_container, rows_flatMap]

theorem layoutSizedRows_section (style : Option Style) (children : List Node) :
    layoutSizedRows d (.section style children) = children.flatMap (layoutSizedRows d) := by
  rw [layoutSizedRows, Node.rows_section, rows_flatMap]

theorem layoutSizedRows_columns (style : Option Style) (entries : List Column) :
    layoutSizedRows d (.columns style entries) =
      (if (rowShares entries).isSome then [rowCells d entries] else []) ++
        entries.flatMap fun column => column.children.flatMap (layoutSizedRows d) := by
  rw [layoutSizedRows, Node.rows_columns, List.filter_cons]
  have hInside : ((entries.flatMap fun column => column.children.flatMap Node.rows).filter
      fun entries => (rowShares entries).isSome).map (rowCells d) =
        entries.flatMap fun column => column.children.flatMap (layoutSizedRows d) := by
    rw [List.filter_flatMap, List.map_flatMap]
    exact List.flatMap_congr fun column _ => rows_flatMap column.children
  split
  · rw [List.map_cons, hInside, List.singleton_append]
  · rw [hInside, List.nil_append]

theorem layoutSizedRows_leaf {leaf : Node} (hLeaf : leaf.isWrapper = false) :
    layoutSizedRows d leaf = [] := by
  rw [layoutSizedRows, Node.rows_leaf hLeaf]
  rfl

/-- Nodes without content have no sized rows. -/
theorem layoutSizedRows_of_not_hasContent {node : Node} (hNone : node.hasContent = false) :
    layoutSizedRows d node = [] := by
  have hEmpty : node.rows.filter (fun entries => (rowShares entries).isSome) = [] := by
    refine List.filter_eq_nil_iff.2 fun entries hMem => ?_
    rw [rowShares_of_empty (Node.rows_of_not_hasContent node hNone entries hMem)]
    exact Bool.false_ne_true
  rw [layoutSizedRows, hEmpty, List.map_nil]

/-! ## Building -/

/-- The size of a column is its share. -/
theorem size_wrapColumn (path : Path) (index : Nat) (style : Option Style)
    (share : Option Nat) (elements : List (Element Path)) :
    (d.wrapColumn path index style share elements).size d = share.map d.sizeValue := by
  have hCell : (d.wrapColumn path index style share elements).kind = d.cellKind := by
    cases d <;> rfl
  rw [Element.size, if_pos hCell]
  cases d with
  | container =>
    cases share with
    | none => exact lookup_containerSettings (by decide) (by decide) style false
    | some share => exact Json.lookup_insert_self _ _ _
  | classic | classicSimple =>
    cases share with
    | none => exact lookup_wrapperSettings (by decide) style
    | some share => exact Json.lookup_insert_self _ _ _

/-- Nothing but a column has a size. -/
theorem size_of_build (node : Node) : ∀ (path : Path) (depth : Nat) (e : Element Path),
    build d path depth node = some e → e.size d = none := by
  refine build_induct (motive := fun _ e => e.size d = none)
    ?leaf ?container ?columns ?sectionBlock ?sectionRow node
  case leaf =>
    intro node path widget settings _ _ _
    cases d <;> rfl
  case container =>
    intro style children path depth _ _
    cases d with
    | container => exact lookup_containerSettings (by decide) (by decide) style false
    | classic | classicSimple => rfl
  case columns =>
    intro style entries path depth _ _
    cases d with
    | container => exact lookup_containerSettings (by decide) (by decide) style true
    | classic | classicSimple => rfl
  case sectionBlock =>
    intro style children e _ hSize
    exact hSize
  case sectionRow =>
    intro style rowStyle entries path depth hDialect _
    cases d with
    | container => exact absurd rfl hDialect
    | classic | classicSimple => rfl

theorem size_of_mem_buildNodes {path : Path} {depth index : Nat} {nodes : List Node}
    {e : Element Path} (hMem : e ∈ buildNodes d path depth index nodes) : e.size d = none := by
  obtain ⟨node, -, nodePath, hBuilt⟩ := mem_buildNodes hMem
  exact size_of_build node nodePath depth e hBuilt

/-- A plain column is no sized row, nor is the section around it. -/
theorem sizedRows_holder (id column : ι) (hDialect : d ≠ .container) (inner : Bool)
    (settings : Settings) (elements : List (Element ι)) :
    (Element.ofSection id inner settings [Element.ofColumn column [] elements]).sizedRows d =
      elements.flatMap (Element.sizedRows d) := by
  have hSize : (Element.ofColumn column [] elements).size d = none := by
    rw [Element.size]
    split <;> rfl
  have hSection : (Element.ofSection id inner settings
      [Element.ofColumn column [] elements]).isSizedRow d = false := by
    refine isSizedRow_of_sizes fun cell hMem => ?_
    rw [List.mem_singleton.1 hMem, hSize]
  rw [sizedRows_of_not hSection, Element.ofSection, List.flatMap_singleton,
    sizedRows_of_column hDialect rfl, Element.ofColumn]

/-- A block is no sized row itself. -/
theorem sizedRows_wrapBlock (path : Path) (depth : Nat) (style : Option Style)
    {elements : List (Element Path)} (hSizes : ∀ e ∈ elements, e.size d = none) :
    (d.wrapBlock path depth style elements).sizedRows d =
      elements.flatMap (Element.sizedRows d) := by
  cases d with
  | container =>
    exact sizedRows_of_not (isSizedRow_of_sizes hSizes)
  | classic | classicSimple => exact sizedRows_holder _ _ (by simp) _ _ elements

/-- Nor is a column. -/
theorem sizedRows_wrapColumn (path : Path) (index : Nat) (style : Option Style)
    (share : Option Nat) {elements : List (Element Path)}
    (hSizes : ∀ e ∈ elements, e.size d = none) :
    (d.wrapColumn path index style share elements).sizedRows d =
      elements.flatMap (Element.sizedRows d) := by
  have hRow : (d.wrapColumn path index style share elements).isSizedRow d = false := by
    refine isSizedRow_of_sizes fun cell hMem => ?_
    rw [wrapColumn_elements] at hMem
    exact hSizes cell hMem
  rw [sizedRows_of_not hRow, wrapColumn_elements]

theorem isSizedRow_eq (e : Element ι) :
    e.isSizedRow d = (e.kind == d.topLevel && (e.cells d).any fun cell => cell.1.isSome) := by
  rw [Element.isSizedRow, Element.cells, List.any_map]
  rfl

/-- The columns of a row are sized by its shares. -/
theorem cells_buildColumns (path : Path) (depth : Nat) (entries : List Column) :
    (buildColumns d path depth (rowShares entries) 0 0 entries).map
        (fun cell => (cell.size d, cell.placements.map Placement.shown)) =
      rowCells d entries :=
  @map_buildColumns d Cell (fun cell => (cell.size d, cell.placements.map Placement.shown))
    (fun column share => (share.map d.sizeValue, column.shown.map leafWidget)) path depth entries
    (fun column _ index share => by rw [size_wrapColumn, map_shown_wrapColumn])
    (rowShares entries) 0 0

/-- What stands for a row has the sized rows of the row. -/
theorem sizedRows_row {path : Path} {depth : Nat} {style : Option Style}
    {entries : List Column} {e : Element Path} (hKind : e.kind = d.topLevel)
    (hElements : e.elements = buildColumns d path depth (rowShares entries) 0 0 entries)
    (ih : ∀ column ∈ entries, ∀ child ∈ column.children, ∀ path depth e,
      build d path depth child = some e → e.sizedRows d = layoutSizedRows d child) :
    e.sizedRows d = layoutSizedRows d (.columns style entries) := by
  have hCells : e.cells d = rowCells d entries := by
    rw [Element.cells, hElements, cells_buildColumns]
  have hRow : e.isSizedRow d = (rowShares entries).isSome := by
    rw [isSizedRow_eq, hKind, hCells, any_rowCells, beq_self_eq_true, Bool.true_and]
  have hColumn : ∀ column ∈ entries, ∀ index share,
      (d.wrapColumn path index column.style share (buildNodes d (Dialect.cellPath path index)
        depth 0 column.children)).sizedRows d =
          column.children.flatMap (layoutSizedRows d) := by
    intro column hMem index share
    rw [sizedRows_wrapColumn path index column.style share fun _ => size_of_mem_buildNodes]
    exact flatMap_buildNodes (fun child hChild path e => ih column hMem child hChild path depth e)
      (fun _ _ hNone => layoutSizedRows_of_not_hasContent hNone) _ 0
  have hNone : ∀ column ∈ entries, column.hasContent = false →
      column.children.flatMap (layoutSizedRows d) = [] := by
    intro column _ hContent
    rw [Column.hasContent_eq] at hContent
    exact List.flatMap_eq_nil_iff.2 fun node hNode =>
      layoutSizedRows_of_not_hasContent (Node.anyContent_eq_false_iff.1 hContent node hNode)
  rw [sizedRows_eq, hRow, hCells, hElements, layoutSizedRows_columns,
    flatMap_buildColumns hColumn hNone]

/-- Building sizes the rows of a node as their shares say. -/
theorem sizedRows_build (node : Node) : ∀ (path : Path) (depth : Nat) (e : Element Path),
    build d path depth node = some e → e.sizedRows d = layoutSizedRows d node := by
  refine build_induct (motive := fun node e => e.sizedRows d = layoutSizedRows d node)
    ?leaf ?container ?columns ?sectionBlock ?sectionRow node
  case leaf =>
    intro node path widget settings hLeaf _ _
    have hKind : (Element.ofWidget path widget settings).kind ≠ d.topLevel := by
      cases d <;> simp [Dialect.topLevel, Element.ofWidget]
    rw [layoutSizedRows_leaf hLeaf, sizedRows_of_not (isSizedRow_of_kind hKind)]
    rfl
  case container =>
    intro style children path depth _ ih
    rw [sizedRows_wrapBlock path depth style fun _ => size_of_mem_buildNodes,
      layoutSizedRows_container]
    exact flatMap_buildNodes (fun child hChild path e => ih child hChild path _ e)
      (fun _ _ hNone => layoutSizedRows_of_not_hasContent hNone) _ 0
  case columns =>
    intro style entries path depth _ ih
    exact sizedRows_row (wrapRow_kind path depth style _).1
      (wrapRow_elements path depth style _) ih
  case sectionBlock =>
    intro style children e _ hRows
    rw [layoutSizedRows_section, hRows, layoutSizedRows_container]
  case sectionRow =>
    intro style rowStyle entries path depth _ hRows
    rw [layoutSizedRows_section, List.flatMap_singleton, ← hRows]
    exact sizedRows_congr rfl rfl

/-! ## Passes -/

theorem size_of_settings {e : Element ι} (hSettings : e.settings = []) : e.size d = none := by
  rw [Element.size, hSettings]
  split <;> rfl

theorem sizedRows_unwrap (hDialect : d ≠ .container) (e : Element ι) :
    (unwrap e).flatMap (Element.sizedRows d) = e.sizedRows d := by
  unfold unwrap
  cases hRedundant : isRedundant e with
  | false => simp
  | true =>
    obtain ⟨-, -, -, column, hElements, hColumn, hSettings⟩ :=
      exists_column_of_isRedundant hRedundant
    have hPlain : e.isSizedRow d = false := by
      refine isSizedRow_of_sizes fun cell hMem => ?_
      rw [hElements, List.mem_singleton] at hMem
      exact hMem ▸ size_of_settings hSettings
    rw [if_pos rfl, sizedRows_of_not hPlain, hElements, List.flatMap_singleton,
      List.flatMap_singleton, sizedRows_of_column hDialect hColumn]

theorem size_flatten (e : Element ι) : (flattenElement e).size d = e.size d := by
  rw [Element.size, Element.size, flattenElement_kind, flattenElement_settings]

/-- Flattening keeps every sized row. -/
theorem sizedRows_flatten (hDialect : d ≠ .container) (e : Element ι) :
    (flattenElement e).sizedRows d = e.sizedRows d := by
  have hTop := topLevel_of_classic hDialect
  induction e using Element.induct with
  | step e ih =>
    have hInside : (e.elements.map flattenElement).flatMap (Element.sizedRows d) =
        e.elements.flatMap (Element.sizedRows d) := by
      rw [List.flatMap_map]
      exact List.flatMap_congr ih
    by_cases hSection : e.kind = .section
    · have hElements : (flattenElement e).elements = e.elements.map flattenElement := by
        rw [flattenElement_elements, flattenInside, if_neg (by simp [hSection])]
      have hCells : (flattenElement e).cells d = e.cells d := by
        rw [Element.cells, Element.cells, hElements, List.map_map]
        refine List.map_congr_left fun cell _ => ?_
        rw [Function.comp_apply, size_flatten, Element.placements_flatten]
      rw [sizedRows_eq, isSizedRow_eq, hCells, flattenElement_kind, ← isSizedRow_eq, hElements,
        hInside, ← sizedRows_eq]
    · have hKind : e.kind ≠ d.topLevel := hTop ▸ hSection
      have hFlatKind : (flattenElement e).kind ≠ d.topLevel := by rwa [flattenElement_kind]
      rw [sizedRows_of_not (isSizedRow_of_kind hFlatKind),
        sizedRows_of_not (isSizedRow_of_kind hKind), flattenElement_elements, flattenInside]
      split
      · rw [List.flatMap_assoc,
          List.flatMap_congr fun inside _ => sizedRows_unwrap hDialect inside, hInside]
      · exact hInside

/-- A split loses one row at most, and only a row of one column. -/
theorem sizedRows_splitShape (hDialect : d ≠ .container) (e : Element Unit) :
    ∃ lost, e.sizedRows d = lost ++ (splitShape e).flatMap (Element.sizedRows d) ∧
      ∀ row ∈ lost, row.length = 1 := by
  have hWhole : ∃ lost, e.sizedRows d = lost ++ [e.unlabelled].flatMap (Element.sizedRows d) ∧
      ∀ row ∈ lost, row.length = 1 := by
    refine ⟨[], ?_, fun row hMem => absurd hMem List.not_mem_nil⟩
    rw [List.nil_append, List.flatMap_singleton, Element.unlabelled_unit]
  unfold splitShape
  split
  · rename_i elements hSole
    split
    · exact hWhole
    · obtain ⟨-, -, -, column, hElements, hColumn, rfl⟩ := soleColumn?_eq_some_iff.1 hSole
      have hSections := @flatMap_sections Unit (List Cell) (Element.sizedRows d)
        (fun x => sizedRows_congr rfl rfl) (sizedRows_holder () () hDialect false [])
        column.elements
      refine ⟨if e.isSizedRow d then [e.cells d] else [], ?_, fun row hMem => ?_⟩
      · rw [hSections, Element.map_unlabelled_unit, sizedRows_eq, hElements,
          List.flatMap_singleton, sizedRows_of_column hDialect hColumn]
      · split at hMem
        · rw [List.mem_singleton.1 hMem, Element.cells, List.length_map, hElements]
          rfl
        · cases hMem
  · exact hWhole

/-! ## Pages -/

theorem sizedRows_rootBlock {layout : Node} {block : Element Unit}
    (hRoot : rootBlock d layout = some block) : block.sizedRows d = layoutSizedRows d layout := by
  obtain ⟨e, hBuilt, rfl⟩ := Option.map_eq_some_iff.1 hRoot
  have hRows : e.unlabelled.sizedRows d = layoutSizedRows d layout :=
    (sizedRows_map _ e).trans (sizedRows_build layout rootPath 0 e hBuilt)
  have hSize : e.unlabelled.size d = none :=
    (size_map _ e).trans (size_of_build layout rootPath 0 e hBuilt)
  split
  · exact hRows
  · rw [← hRows]
    cases d with
    | container =>
      refine (sizedRows_of_not (isSizedRow_of_sizes fun cell hMem => ?_)).trans
        (List.flatMap_singleton _ _)
      rw [List.mem_singleton.1 hMem, hSize]
    | classic | classicSimple =>
      exact (sizedRows_holder () () (by simp) false [] [e.unlabelled]).trans
        (List.flatMap_singleton _ _)

/-- A page has the sized rows of its layout, but for a row of one column at most. -/
theorem sizedRows_content (layout : Node) :
    ∃ lost, layoutSizedRows d layout =
        lost ++ (content d layout).flatMap (Element.sizedRows d) ∧
      ∀ row ∈ lost, row.length = 1 := by
  have hLabels : (content d layout).flatMap (Element.sizedRows d) =
      (pageShape d layout).flatMap (Element.sizedRows d) := by
    rw [← unlabelled_content, List.flatMap_map]
    exact List.flatMap_congr fun e _ => (sizedRows_map _ e).symm
  rw [hLabels, pageShape]
  cases hRoot : rootBlock d layout with
  | none =>
    have hContent := rootBlock_isSome (d := d) layout
    rw [hRoot] at hContent
    exact ⟨[], layoutSizedRows_of_not_hasContent hContent.symm, fun row hMem =>
      absurd hMem List.not_mem_nil⟩
  | some block =>
    rw [Option.toList_some, List.flatMap_singleton, ← sizedRows_rootBlock hRoot]
    cases d with
    | container =>
      refine ⟨[], ?_, fun row hMem => absurd hMem List.not_mem_nil⟩
      exact (List.flatMap_singleton _ _).symm
    | classic =>
      refine ⟨[], ?_, fun row hMem => absurd hMem List.not_mem_nil⟩
      rw [passShape, List.flatMap_singleton, sizedRows_flatten (by simp)]
      rfl
    | classicSimple =>
      obtain ⟨lost, hRows, hLost⟩ := sizedRows_splitShape (d := .classicSimple) (by simp) block
      refine ⟨lost, ?_, hLost⟩
      rw [passShape, List.flatMap_map,
        List.flatMap_congr fun e _ => sizedRows_flatten (by simp) e]
      exact hRows

/-- An element at the top of a row has no sized column, or stands for a row of the
layout and carries its shares. -/
theorem cells_of_mem_content {layout : Node} {e : Element String}
    (hMem : e ∈ Element.preorderAll (content d layout)) (hKind : e.kind = d.topLevel) :
    (∀ cell ∈ e.elements, cell.size d = none) ∨
      ∃ entries ∈ layout.rows, (rowShares entries).isSome = true ∧
        e.cells d = rowCells d entries := by
  cases hRow : e.isSizedRow d with
  | false =>
    refine .inl fun cell hCell => ?_
    rw [Element.isSizedRow, hKind, beq_self_eq_true, Bool.true_and, List.any_eq_false] at hRow
    exact Option.not_isSome_iff_eq_none.1 (hRow cell hCell)
  | true =>
    right
    obtain ⟨lost, hRows, -⟩ := sizedRows_content (d := d) layout
    have hPage : e.cells d ∈ (content d layout).flatMap (Element.sizedRows d) := by
      rw [Element.preorderAll_eq] at hMem
      obtain ⟨block, hBlock, hInside⟩ := List.mem_flatMap.1 hMem
      refine List.mem_flatMap.2 ⟨block, hBlock, ?_⟩
      exact List.mem_map.2 ⟨e, List.mem_filter.2 ⟨hInside, hRow⟩, rfl⟩
    have hLayout : e.cells d ∈ layoutSizedRows d layout := by
      rw [hRows]
      exact List.mem_append_right lost hPage
    obtain ⟨entries, hEntries, hCells⟩ := List.mem_map.1 hLayout
    obtain ⟨hRowMem, hShares⟩ := List.mem_filter.1 hEntries
    exact ⟨entries, hRowMem, hShares, hCells.symm⟩

theorem pageWidgets_singleton (cell : Element ι) :
    pageWidgets [cell] = cell.placements.map Placement.shown := by
  rw [pageWidgets_eq, Element.allPlacements_eq, List.flatMap_singleton]

/-- The shares of a row of columns are computed without leaving 32 bits and fill the
row: one for each column, none empty, one hundred in all. So do the sizes of the
columns on a page. Either no column inside an element has a size, or the element
stands for a row of the layout, and its columns, which show what the columns with
content show, have the shares of these. Every row of several columns that has shares
is on the page, in the order of the layout. -/
theorem rows_exportLayout (layout : Node) (title : String) (d : Dialect) :
    (∀ styles : List (Option Style), styles.length < 40000000 →
        ∀ result, Shares.SharesRun (styles.map SizeHint.ofStyle) result ↔
          result = columnShares (styles.map SizeHint.ofStyle)) ∧
      (∀ (styles : List (Option Style)) (shares : List Nat),
        columnShares (styles.map SizeHint.ofStyle) = some shares →
          shares.length = styles.length ∧ (∀ share ∈ shares, 1 ≤ share) ∧ shares.sum = 100) ∧
      (∀ e ∈ Element.preorderAll (exportLayout (some layout) title d).content,
        e.kind = d.topLevel →
          (∀ cell ∈ e.elements, cell.size d = none) ∨
            ∃ entries ∈ layout.rows, ∃ shares, rowShares entries = some shares ∧
              (∀ share ∈ shares, 1 ≤ share) ∧ shares.sum = 100 ∧
              (e.elements.map (Element.size d) =
                shares.map fun share => some (d.sizeValue share)) ∧
              e.elements.map (fun cell => pageWidgets [cell]) =
                (entries.filter Column.hasContent).map fun column =>
                  column.shown.map leafWidget) ∧
      ((exportLayout (some layout) title d).content.flatMap (Element.sizedRows d)).filter
          (fun row => 1 < row.length) =
        (layoutSizedRows d layout).filter fun row => 1 < row.length := by
  refine ⟨fun styles hLength => ?_, fun styles shares hShares => ?_, fun e hMem hKind => ?_, ?_⟩
  · exact Shares.sharesRun_of_length (by rwa [List.length_map])
  · obtain ⟨hLength, hPositive, hSum⟩ := complete_columnShares hShares
    exact ⟨by rw [hLength, List.length_map], hPositive, hSum⟩
  · refine (cells_of_mem_content hMem hKind).imp_right ?_
    rintro ⟨entries, hEntries, hSome, hCells⟩
    obtain ⟨shares, hShares⟩ := Option.isSome_iff_exists.1 hSome
    obtain ⟨-, hPositive, hSum⟩ := complete_rowShares hShares
    have hSizes : e.elements.map (Element.size d) = (e.cells d).map Prod.fst := by
      rw [Element.cells, List.map_map]
      rfl
    have hWidgets : e.elements.map (fun cell => pageWidgets [cell]) =
        (e.cells d).map Prod.snd := by
      rw [Element.cells, List.map_map]
      exact List.map_congr_left fun cell _ => pageWidgets_singleton cell
    refine ⟨entries, hEntries, shares, hShares, hPositive, hSum, ?_, ?_⟩
    · rw [hSizes, hCells, map_fst_rowCells hShares]
    · rw [hWidgets, hCells, map_snd_rowCells]
  · obtain ⟨lost, hRows, hLost⟩ := sizedRows_content (d := d) layout
    have hNone : lost.filter (fun row => decide (1 < row.length)) = [] := by
      refine List.filter_eq_nil_iff.2 fun row hMem => ?_
      rw [hLost row hMem]
      decide
    rw [hRows, List.filter_append, hNone, List.nil_append]
    rfl

end Pagewright.Page
