import Pagewright.Proofs.Page.Content
import Pagewright.Proofs.Page.Flatten
import Pagewright.Proofs.Page.Grammar

/-!
# What flattening leaves in a column

A node inside a column is built as one element. If this is a redundant wrapper,
flattening puts what is inside it in its place, and so on inside that. What then
stands in the column for the node are its *faces*: the node itself where it is
a leaf or has settings, and the faces of what it holds where it has none.

Whether a wrapper has settings can be told from the layout. A block has those of
its style. A row may also give its columns shares of its width, so that it is
redundant only around a single column without a share.

## Main results

* `flags_column` — what stands in a flattened column, element by element.
* `isRedundant_wrapBlock`, `isRedundant_row` — which wrappers are taken out.
* `flags_build` — what stands for a node are its faces.
-/

namespace Pagewright.Page

open Layout

variable {ι κ : Type} {d : Dialect}

/-! ## Flattening in a column -/

/-- What stands in a flattened column for one of its elements, sections and widgets told apart. -/
def Element.flags (e : Element ι) : List Bool := (unwrap (flattenElement e)).map isInnerSection

theorem isInnerSection_flattenElement (e : Element ι) :
    (flattenElement e).isInnerSection = e.isInnerSection := by
  rw [Element.isInnerSection, flattenElement_kind, flattenElement_inner, Element.isInnerSection]

theorem flags_of_not_redundant {e : Element ι} (hKept : isRedundant e = false) :
    e.flags = [e.isInnerSection] := by
  rw [Element.flags, unwrap_of_not_redundant ((isRedundant_flattenElement e).trans hKept),
    List.map_singleton, isInnerSection_flattenElement]

/-- What stands in a flattened column. -/
theorem flags_column {column : Element ι} (hKind : column.kind = .column) :
    (flattenElement column).elements.map Element.isInnerSection =
      column.elements.flatMap Element.flags := by
  rw [flattenElement_elements, flattenInside, if_pos hKind, List.flatMap_map, List.map_flatMap]
  rfl

theorem flags_of_redundant {e column : Element ι} (hRedundant : isRedundant e = true)
    (hColumn : e.elements = [column]) : e.flags = column.elements.flatMap Element.flags := by
  obtain ⟨-, -, -, only, hOnly, hKind, -⟩ := exists_column_of_isRedundant hRedundant
  have hSame : column = only := (List.cons.inj (hColumn.symm.trans hOnly)).1
  rw [Element.flags, unwrap_flattenElement hRedundant hColumn, flags_column (hSame ▸ hKind)]

theorem flags_map (f : ι → κ) (e : Element ι) : (Element.map f e).flags = e.flags := by
  rw [Element.flags, flattenElement_map, unwrap_map, List.map_map, Element.flags]
  exact List.map_congr_left fun x _ => Element.map_isInnerSection f x

/-- There are several blocks in a flattened column if several elements stand
there and some section is among them. -/
theorem one_lt_blockCount_flags {column : Element ι} (hKind : column.kind = .column) :
    1 < blockCount (flattenElement column).elements ↔
      1 < (column.elements.flatMap Element.flags).length ∧
        true ∈ column.elements.flatMap Element.flags := by
  rw [one_lt_blockCount_iff, ← flags_column hKind, List.length_map, List.mem_map]

/-! ## Faces -/

/-- Whether a row has only one column with content, without background, padding and share. -/
def isBareRow (entries : List Column) : Bool :=
  match entries.filter Column.hasContent with
  | [column] => (wrapperSettings column.style).isEmpty &&
      ((rowShares entries).bind (·[0]?)).isNone
  | _ => false

mutual

/-- The nodes that stand for a node in the column of a flattened page. -/
def faces : Node → List Node
  | .section style children =>
    if (wrapperSettings style).isEmpty then facesOfAll children
    else if Node.anyContent children then [.section style children] else []
  | .container style children =>
    if (wrapperSettings style).isEmpty then facesOfAll children
    else if Node.anyContent children then [.container style children] else []
  | .columns style entries =>
    if (wrapperSettings style).isEmpty && isBareRow entries then facesOfRow entries
    else if Column.anyContent entries then [.columns style entries] else []
  | leaf => if leaf.hasContent then [leaf] else []

/-- The nodes that stand for several nodes. -/
def facesOfAll : List Node → List Node
  | [] => []
  | node :: rest => faces node ++ facesOfAll rest

/-- The nodes that stand for the nodes in several columns. -/
def facesOfRow : List Column → List Node
  | [] => []
  | .mk _ children :: rest => facesOfAll children ++ facesOfRow rest

end

theorem facesOfAll_eq (nodes : List Node) : facesOfAll nodes = nodes.flatMap faces := by
  induction nodes with
  | nil => rfl
  | cons node rest ih => rw [facesOfAll, ih, List.flatMap_cons]

theorem facesOfRow_eq (entries : List Column) :
    facesOfRow entries = entries.flatMap fun column => column.children.flatMap faces := by
  induction entries with
  | nil => rfl
  | cons column rest ih =>
    obtain ⟨style, children⟩ := column
    rw [facesOfRow, ih, facesOfAll_eq, List.flatMap_cons]
    rfl

theorem faces_leaf {leaf : Node} (hLeaf : leaf.isWrapper = false) :
    faces leaf = if leaf.hasContent then [leaf] else [] := by
  cases leaf with
  | «section» | container | columns => cases hLeaf
  | heading | text | image | button | input | nav | unknown => rfl

/-- Without content there is nothing to stand for. -/
theorem faces_of_not_hasContent (node : Node) : node.hasContent = false → faces node = [] := by
  have hAll {nodes : List Node} (hNone : Node.anyContent nodes = false)
      (ih : ∀ node ∈ nodes, node.hasContent = false → faces node = []) :
      nodes.flatMap faces = [] :=
    List.flatMap_eq_nil_iff.2 fun node hMem =>
      ih node hMem (Node.anyContent_eq_false_iff.1 hNone node hMem)
  induction node using Node.induct with
  | inSection style children ih =>
    intro hNone
    rw [Node.hasContent] at hNone
    rw [faces, facesOfAll_eq, hAll hNone ih, hNone]
    split <;> rfl
  | inContainer style children ih =>
    intro hNone
    rw [Node.hasContent] at hNone
    rw [faces, facesOfAll_eq, hAll hNone ih, hNone]
    split <;> rfl
  | inColumns style entries ih =>
    intro hNone
    rw [Node.hasContent] at hNone
    have hRow : facesOfRow entries = [] := by
      rw [facesOfRow_eq, List.flatMap_eq_nil_iff]
      intro column hMem
      have hColumn : column.hasContent = false := by
        refine Bool.eq_false_iff.2 fun hSome => ?_
        rw [Column.anyContent_iff.2 ⟨column, hMem, hSome⟩] at hNone
        cases hNone
      exact hAll ((Column.hasContent_eq column).symm.trans hColumn) (ih column hMem)
    rw [faces, hRow, hNone]
    split <;> rfl
  | atLeaf leaf hLeaf =>
    intro hNone
    rw [faces_leaf hLeaf, hNone]
    rfl

/-! ## Redundant wrappers of a layout -/

theorem isInnerSection_of_isInside (hDialect : d ≠ .container) {e : Element ι}
    (hInside : e.IsInside d) (hKind : e.kind = d.topLevel) : e.isInnerSection = true := by
  rw [topLevel_of_classic hDialect] at hKind
  rcases hInside with hWidget | ⟨-, hInner⟩
  · rw [hKind] at hWidget
    cases hWidget
  · rw [Element.isInnerSection, hKind, hInner]
    rfl

/-- A block is redundant if it has neither background nor padding. -/
theorem isRedundant_wrapBlock (hDialect : d ≠ .container) {path : Path} {depth : Nat}
    {style : Option Style} {elements : List (Element Path)}
    (hInside : (d.wrapBlock path depth style elements).IsInside d) :
    isRedundant (d.wrapBlock path depth style elements) = (wrapperSettings style).isEmpty := by
  have hInner := isInnerSection_of_isInside hDialect hInside
    (wrapBlock_kind path depth style elements).1
  rw [isRedundant, hInner, Bool.true_and]
  cases d with
  | container => exact absurd rfl hDialect
  | classic | classicSimple => exact Bool.and_true _

theorem wrapRow_settings (hDialect : d ≠ .container) (path : Path) (depth : Nat)
    (style : Option Style) (elements : List (Element Path)) :
    (d.wrapRow path depth style elements).settings = wrapperSettings style := by
  cases d with
  | container => exact absurd rfl hDialect
  | classic | classicSimple => rfl

/-- A share is a setting. -/
theorem isEmpty_wrapColumn (hDialect : d ≠ .container) (path : Path) (index : Nat)
    (style : Option Style) (share : Option Nat) (elements : List (Element Path)) :
    (d.wrapColumn path index style share elements).settings.isEmpty =
      ((wrapperSettings style).isEmpty && share.isNone) := by
  have hSet (value : Json) :
      (Json.insert "_column_size" value (wrapperSettings style)).isEmpty = false := by
    have hLookup := Json.lookup_insert_self "_column_size" value (wrapperSettings style)
    cases hNew : Json.insert "_column_size" value (wrapperSettings style) with
    | cons first others => rfl
    | nil => rw [hNew] at hLookup; cases hLookup
  cases d with
  | container => exact absurd rfl hDialect
  | classic | classicSimple =>
    cases share with
    | none => exact (Bool.and_true _).symm
    | some share => exact (hSet _).trans (Bool.and_false _).symm

/-- A row is redundant if it has no settings and only one column, without settings as well. -/
theorem isRedundant_row (hDialect : d ≠ .container) {path : Path} {depth : Nat}
    {entries : List Column} {e : Element Path} (hInner : e.isInnerSection = true)
    (hElements : e.elements = buildColumns d path depth (rowShares entries) 0 0 entries) :
    isRedundant e = (e.settings.isEmpty && isBareRow entries) := by
  rw [isRedundant, hInner, Bool.true_and, hElements, isBareRow]
  congr 1
  split
  · rename_i column hColumn
    split
    · rename_i only hOnly
      obtain ⟨index, hSole⟩ := buildColumns_sole (d := d) hOnly path depth (rowShares entries) 0
      rw [hColumn] at hSole
      rw [(List.cons.inj hSole).1, isEmpty_wrapColumn hDialect, wrapColumn_kind,
        if_neg hDialect]
      cases d with
      | container => exact absurd rfl hDialect
      | classic | classicSimple => exact Bool.and_true _
    · rename_i hMany
      exact absurd hColumn (buildColumns_ne_singleton hMany path depth _ 0 0 column)
  · rename_i hMany
    split
    · rename_i only hOnly
      obtain ⟨index, hSole⟩ := buildColumns_sole (d := d) hOnly path depth (rowShares entries) 0
      exact absurd hSole (hMany _)
    · rfl

/-! ## What flattening leaves of a node -/

/-- The faces of a node, sections and widgets told apart. -/
def faceFlags (node : Node) : List Bool := (faces node).map Node.isWrapper

theorem faceFlags_all (nodes : List Node) :
    (facesOfAll nodes).map Node.isWrapper = nodes.flatMap faceFlags := by
  rw [facesOfAll_eq, List.map_flatMap]
  rfl

theorem faceFlags_of_not_hasContent {node : Node} (hNone : node.hasContent = false) :
    faceFlags node = [] := by
  rw [faceFlags, faces_of_not_hasContent node hNone, List.map_nil]

/-- What it means that the faces of a node stand for its element, wherever it is
built inside a column. -/
def Faced (d : Dialect) (node : Node) : Prop :=
  ∀ path depth e, build d path depth node = some e → e.IsInside d → e.flags = faceFlags node

/-- What flattening leaves of the elements of several nodes. -/
theorem flags_buildNodes {depth : Nat} {nodes : List Node} (hDepth : 0 < depth)
    (ih : ∀ node ∈ nodes, Faced d node) (path : Path) (index : Nat) :
    (buildNodes d path depth index nodes).flatMap Element.flags = nodes.flatMap faceFlags :=
  flatMap_buildNodes
    (fun node hMem path e hBuilt =>
      ih node hMem path depth e hBuilt (isInside_of_build hDepth hBuilt))
    (fun _ _ hNone => faceFlags_of_not_hasContent hNone) path index

/-- What flattening leaves of a redundant block. -/
theorem flags_block (hDialect : d ≠ .container) {path : Path} {depth : Nat}
    {style : Option Style} {children : List Node}
    (hRedundant : isRedundant (d.wrapBlock path depth style
      (buildNodes d (d.blockPath path) (d.blockDepth depth) 0 children)) = true)
    (ih : ∀ node ∈ children, Faced d node) :
    (d.wrapBlock path depth style
      (buildNodes d (d.blockPath path) (d.blockDepth depth) 0 children)).flags =
        (facesOfAll children).map Node.isWrapper := by
  rw [faceFlags_all]
  cases d with
  | container => exact absurd rfl hDialect
  | classic | classicSimple =>
    rw [flags_of_redundant hRedundant rfl]
    exact flags_buildNodes (Nat.succ_pos _) ih _ _

/-- What flattening leaves of a redundant row. -/
theorem flags_row {path : Path} {depth : Nat} {entries : List Column} {e : Element Path}
    (hRedundant : isRedundant e = true)
    (hElements : e.elements =
      buildColumns d path (depth + 2) (rowShares entries) 0 0 entries)
    (ih : ∀ column ∈ entries, ∀ node ∈ column.children, Faced d node) :
    e.flags = (facesOfRow entries).map Node.isWrapper := by
  obtain ⟨-, -, -, column, hColumn, -⟩ := exists_column_of_isRedundant hRedundant
  have hColumns := @flatMap_buildColumns d Bool (fun x => x.elements.flatMap Element.flags)
    (fun x => x.children.flatMap faceFlags) path (depth + 2) entries
    (fun x hMem index share => by
      rw [wrapColumn_elements]
      exact flags_buildNodes (Nat.succ_pos _) (ih x hMem) _ _)
    (fun x _ hNone => by
      rw [Column.hasContent_eq] at hNone
      exact List.flatMap_eq_nil_iff.2 fun node hMem =>
        faceFlags_of_not_hasContent (Node.anyContent_eq_false_iff.1 hNone node hMem))
    (rowShares entries) 0 0
  rw [← hElements, hColumn, List.flatMap_singleton] at hColumns
  rw [flags_of_redundant hRedundant hColumn, hColumns, facesOfRow_eq, List.map_flatMap]
  exact List.flatMap_congr fun x _ => by rw [← facesOfAll_eq, faceFlags_all]

/-- A section that stays is the only face of its node. -/
theorem flags_kept (hDialect : d ≠ .container) {node : Node} {e : Element Path}
    (hInside : e.IsInside d) (hKind : e.kind = d.topLevel) (hKept : isRedundant e = false)
    (hFaces : faces node = [node]) (hWrapper : node.isWrapper = true) :
    e.flags = faceFlags node := by
  rw [flags_of_not_redundant hKept, isInnerSection_of_isInside hDialect hInside hKind, faceFlags,
    hFaces, List.map_singleton, hWrapper]

theorem inheritRow_of_plain {style : Option Style} (hPlain : wrapperSettings style = [])
    (row : Element Path) : Dialect.inheritRow style row = row := by
  cases row
  rw [Dialect.inheritRow, hPlain]
  rfl

/-- What flattening leaves of a section around a row, if it is known of the row. -/
theorem flags_sectionRow (hDialect : d ≠ .container) {style rowStyle : Option Style}
    {entries : List Column} {row : Element Path}
    (hContent : (Node.columns rowStyle entries).hasContent = true) (hKind : row.kind = d.topLevel)
    (hRow : row.IsInside d → row.flags = faceFlags (.columns rowStyle entries))
    (hInside : (Dialect.inheritRow style row).IsInside d) :
    (Dialect.inheritRow style row).flags =
      faceFlags (.section style [.columns rowStyle entries]) := by
  cases hPlain : (wrapperSettings style).isEmpty with
  | true =>
    rw [inheritRow_of_plain (List.isEmpty_iff.1 hPlain)] at hInside ⊢
    rw [hRow hInside, faceFlags, faceFlags, faces, if_pos hPlain, facesOfAll, facesOfAll,
      List.append_nil]
  | false =>
    have hKept : isRedundant (Dialect.inheritRow style row) = false := by
      refine Bool.eq_false_iff.2 fun hRedundant => ?_
      obtain ⟨-, -, hNone, -⟩ := exists_column_of_isRedundant hRedundant
      have hEmpty := isEmpty_inheritSettings (wrapperSettings style) row.settings
      rw [hPlain, Bool.false_and] at hEmpty
      exact Bool.eq_false_iff.1 hEmpty (List.isEmpty_iff.2 hNone)
    refine flags_kept hDialect hInside hKind hKept ?_ rfl
    rw [faces, hPlain, Node.anyContent, hContent]
    rfl

/-- What flattening leaves of an element are the faces of its node. -/
theorem flags_build (hDialect : d ≠ .container) (node : Node) : Faced d node := by
  have hSome {node : Node} {path : Path} {depth : Nat} {e : Element Path}
      (hBuilt : build d path depth node = some e) : node.hasContent = true := by
    rw [← build_isSome path depth, hBuilt]
    rfl
  intro path depth e hBuilt
  -- A section around a row is told from the row alone, and has a face only where
  -- the row has content; so the motive asks for content.
  refine build_induct (d := d)
    (motive := fun node e => node.hasContent = true → e.IsInside d → e.flags = faceFlags node)
    ?leaf ?container ?columns ?sectionBlock ?sectionRow node path depth e hBuilt (hSome hBuilt)
  case leaf =>
    intro node path widget settings hLeaf _ _ hContent _
    rw [flags_of_not_redundant rfl, faceFlags, faces_leaf hLeaf, if_pos hContent,
      List.map_singleton, hLeaf]
    rfl
  case container =>
    intro style children path depth hContent ih _ hInside
    have hChildren : ∀ child ∈ children, Faced d child :=
      fun child hMem path depth e hBuilt => ih child hMem path depth e hBuilt (hSome hBuilt)
    have hRedundant := isRedundant_wrapBlock hDialect hInside
    cases hPlain : (wrapperSettings style).isEmpty with
    | true =>
      rw [flags_block hDialect (hRedundant.trans hPlain) hChildren, faceFlags, faces,
        if_pos hPlain]
    | false =>
      refine flags_kept hDialect hInside (wrapBlock_kind path depth style _).1
        (hRedundant.trans hPlain) ?_ rfl
      rw [faces, hPlain, hContent]
      rfl
  case columns =>
    intro style entries path depth hContent ih _ hInside
    have hChildren : ∀ column ∈ entries, ∀ child ∈ column.children, Faced d child :=
      fun column hColumn child hMem path depth e hBuilt =>
        ih column hColumn child hMem path depth e hBuilt (hSome hBuilt)
    have hKind := (wrapRow_kind (d := d) path depth style
      (buildColumns d path (depth + 2) (rowShares entries) 0 0 entries)).1
    have hElements := wrapRow_elements (d := d) path depth style
      (buildColumns d path (depth + 2) (rowShares entries) 0 0 entries)
    have hRedundant := isRedundant_row hDialect
      (isInnerSection_of_isInside hDialect hInside hKind) hElements
    rw [wrapRow_settings hDialect] at hRedundant
    cases hPlain : (wrapperSettings style).isEmpty && isBareRow entries with
    | true =>
      rw [flags_row (hRedundant.trans hPlain) hElements hChildren, faceFlags, faces,
        if_pos hPlain]
    | false =>
      refine flags_kept hDialect hInside hKind (hRedundant.trans hPlain) ?_ rfl
      rw [faces, hPlain, hContent]
      rfl
  case sectionBlock =>
    intro style children e _ hContainer hContent hInside
    rw [hContainer hContent hInside, faceFlags, faceFlags, faces, faces]
    split
    · rfl
    · split <;> rfl
  case sectionRow =>
    intro style rowStyle entries path depth hDialect hRow hContent hInside
    have hKind := (wrapRow_kind (d := d) path depth rowStyle
      (buildColumns d path (depth + 2) (rowShares entries) 0 0 entries)).1
    rw [Node.hasContent, Node.anyContent, Node.anyContent, Bool.or_false] at hContent
    exact flags_sectionRow hDialect hContent hKind (hRow hContent) hInside

end Pagewright.Page
