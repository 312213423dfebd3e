import Pagewright.Proofs.Page.Faces

/-!
# Pages that stay undivided

`classicSimple` splits a page into its blocks, so that each of them can be
edited on its own, and flattens what the split leaves. The split sees the page
as it was before flattening. All there is on it may be one wrapper without
settings: this is one block, and the page stays undivided. Flattening takes the
wrapper out, and whatever stood in it then stands together in the one column of
the page, be it one block or several.

Such a layout is *buried*. Nothing else keeps several blocks together: where the
column has several elements, one of them an inner section, there is a split,
and where all of them are widgets, flattening does not bring in any section.

## Main results

* `soleColumn?_build` — what stands in the only column of a page before any pass.
* `undivided_passShape_iff` — what the passes leave undivided.
* `undivided_exportLayout_iff` — the layouts whose pages stay undivided are the
  buried ones.
-/

namespace Pagewright.Page

open Layout

variable {ι κ : Type} {d : Dialect}

/-! ## The only column of a page -/

/-- The nodes of the only column with content in a row. -/
def soleColumnNodes? (entries : List Column) : Option (List Node) :=
  match entries.filter Column.hasContent with
  | [column] => some column.children
  | _ => none

/-- The nodes in the only column of a page, where nothing around it has a
background or padding. -/
def columnNodes? : Node → Option (List Node)
  | .section style [.columns rowStyle entries] =>
    if (wrapperSettings style).isEmpty && (wrapperSettings rowStyle).isEmpty then
      soleColumnNodes? entries
    else none
  | .section style children | .container style children =>
    if (wrapperSettings style).isEmpty then some children else none
  | .columns style entries =>
    if (wrapperSettings style).isEmpty then soleColumnNodes? entries else none
  | _ => none

theorem columnNodes?_leaf {leaf : Node} (hLeaf : leaf.isWrapper = false) :
    columnNodes? leaf = none := by
  cases leaf with
  | «section» | container | columns => cases hLeaf
  | heading | text | image | button | input | nav | unknown => rfl

theorem soleColumn?_row (hDialect : d ≠ .container) (path : Path) (settings : Settings)
    (entries : List Column) : ∃ inside,
      soleColumn? (Element.ofSection path false settings
          (buildColumns d path 2 (rowShares entries) 0 0 entries)) =
        (if settings.isEmpty then soleColumnNodes? entries else none).map
          (buildNodes d inside 2 0) := by
  cases settings with
  | cons entry rest => exact ⟨path, rfl⟩
  | nil =>
    rw [if_pos List.isEmpty_nil, soleColumnNodes?]
    split
    · rename_i column hSole
      obtain ⟨index, hElements⟩ := buildColumns_sole (d := d) hSole path 2 (rowShares entries) 0
      refine ⟨Dialect.cellPath path index, soleColumn?_eq_some_iff.2
        ⟨rfl, rfl, rfl, _, hElements, ?_, wrapColumn_elements path index column.style _ _⟩⟩
      rw [wrapColumn_kind, if_neg hDialect]
    · rename_i hMany
      refine ⟨path, Option.eq_none_iff_forall_ne_some.2 fun elements hSome => ?_⟩
      obtain ⟨-, -, -, only, hOnly, -⟩ := soleColumn?_eq_some_iff.1 hSome
      exact buildColumns_ne_singleton hMany path 2 (rowShares entries) 0 0 only hOnly

theorem soleColumn?_block (id column : ι) (settings : Settings) (elements : List (Element ι)) :
    soleColumn? (Element.ofSection id false settings [Element.ofColumn column [] elements]) =
      if settings.isEmpty then some elements else none := by
  cases settings <;> rfl

/-- What stands in the only column of a page before any pass. -/
theorem soleColumn?_build {path : Path} {layout : Node} {e : Element Path}
    (hBuilt : build .classicSimple path 0 layout = some e) : ∃ inside,
      soleColumn? e = (columnNodes? layout).map (buildNodes .classicSimple inside 2 0) := by
  have hDialect : Dialect.classicSimple ≠ .container := nofun
  cases hWrapper : layout.isWrapper with
  | false =>
    obtain ⟨-, widget, settings, -, rfl⟩ := eq_of_build_leaf hWrapper hBuilt
    rw [columnNodes?_leaf hWrapper]
    exact ⟨path, rfl⟩
  | true =>
    cases layout with
    | «section» style children =>
      rcases row_or_block .classicSimple children with ⟨-, rowStyle, entries, rfl⟩ | hBlock
      · rw [build_section_row hDialect] at hBuilt
        obtain ⟨row, hRow, rfl⟩ := Option.map_eq_some_iff.1 hBuilt
        obtain ⟨-, rfl⟩ := eq_of_build_columns hRow
        obtain ⟨inside, hSole⟩ := soleColumn?_row hDialect path
          (inheritSettings (wrapperSettings style) (wrapperSettings rowStyle)) entries
        exact ⟨inside, hSole.trans (by rw [isEmpty_inheritSettings, columnNodes?])⟩
      · rw [build_section_block hBlock] at hBuilt
        obtain ⟨-, rfl⟩ := eq_of_build_container hBuilt
        refine ⟨Dialect.blockPath .classicSimple path, (soleColumn?_block path _ _ _).trans ?_⟩
        rw [columnNodes?]
        · split <;> rfl
        · exact hBlock.resolve_left hDialect
    | container style children =>
      obtain ⟨-, rfl⟩ := eq_of_build_container hBuilt
      refine ⟨Dialect.blockPath .classicSimple path, (soleColumn?_block path _ _ _).trans ?_⟩
      rw [columnNodes?]
      split <;> rfl
    | columns style entries =>
      obtain ⟨-, rfl⟩ := eq_of_build_columns hBuilt
      obtain ⟨inside, hSole⟩ := soleColumn?_row hDialect path (wrapperSettings style) entries
      exact ⟨inside, hSole.trans (by rw [columnNodes?])⟩
    | heading | text | image | button | input | nav | unknown => cases hWrapper

/-! ## Undivided pages -/

/-- Whether all of a page is one plain section with one column that holds several blocks. -/
def Undivided (content : List (Element ι)) : Prop :=
  ∃ block column, content = [block] ∧ block.settings = [] ∧ block.elements = [column] ∧
    1 < blockCount column.elements

theorem blockCount_map (f : ι → κ) (es : List (Element ι)) :
    blockCount (es.map (Element.map f)) = blockCount es := by
  have hBlocks : blocks (es.map (Element.map f)) = (blocks es).map (Block.map f) :=
    blocksFrom_map f es []
  rw [← length_blocks, hBlocks, List.length_map, length_blocks]

theorem undivided_map (f : ι → κ) (content : List (Element ι)) :
    Undivided (content.map (Element.map f)) ↔ Undivided content := by
  constructor
  · rintro ⟨block, column, hContent, hSettings, hElements, hCount⟩
    obtain ⟨own, rfl, rfl⟩ := List.map_eq_singleton_iff.1 hContent
    rw [Element.map_elements] at hElements
    obtain ⟨inside, hInside, rfl⟩ := List.map_eq_singleton_iff.1 hElements
    rw [Element.map_elements, blockCount_map] at hCount
    exact ⟨own, inside, rfl, Element.map_settings f own ▸ hSettings, hInside, hCount⟩
  · rintro ⟨block, column, rfl, hSettings, hElements, hCount⟩
    refine ⟨Element.map f block, Element.map f column, rfl,
      (Element.map_settings f block).trans hSettings, ?_, ?_⟩
    · rw [Element.map_elements, hElements, List.map_singleton]
    · rwa [Element.map_elements, blockCount_map]

/-- A section stays alone in a split exactly when its column is one block at most. -/
theorem splitShape_eq_singleton_iff {e x : Element Unit} :
    splitShape e = [x] ↔ e = x ∧ ∀ elements, soleColumn? e = some elements →
      blockCount elements ≤ 1 := by
  unfold splitShape
  cases soleColumn? e with
  | none => simp [Element.unlabelled_unit]
  | some elements =>
    simp only [Option.some.injEq, forall_eq', length_blocks, Element.unlabelled_unit]
    split
    · rename_i hOne
      simp [hOne]
    · rename_i hMany
      refine ⟨fun hAlone => ?_, fun hOwn => absurd hOwn.2 hMany⟩
      have hLength := congrArg List.length hAlone
      rw [List.length_map, length_blocks, List.length_singleton] at hLength
      exact absurd (Nat.le_of_eq hLength) hMany

/-- Only sections leave sections behind. -/
theorem isInnerSection_of_mem_flags {e : Element ι} (hMem : true ∈ e.flags) :
    e.isInnerSection = true := by
  cases hRedundant : isRedundant e with
  | true =>
    obtain ⟨hKind, hInner, -⟩ := exists_column_of_isRedundant hRedundant
    rw [Element.isInnerSection, hKind, hInner]
    rfl
  | false =>
    rw [flags_of_not_redundant hRedundant, List.mem_singleton] at hMem
    exact hMem.symm

/-- A plain section with one column and at most one element in it, out of which
several blocks come when it is flattened. -/
def Buries (block : Element ι) : Prop :=
  ∃ elements, soleColumn? block = some elements ∧ elements.length ≤ 1 ∧
    1 < (elements.flatMap Element.flags).length ∧ true ∈ elements.flatMap Element.flags

/-- The passes leave a page undivided exactly when several blocks come out of the
only element in its column. -/
theorem undivided_passShape_iff {block : Element Unit} (hTop : block.IsTop .classicSimple) :
    Undivided (passShape .classicSimple block) ↔ Buries block := by
  have hObeys := (proper_iff.1 hTop.proper).1
  have hSection : block.kind = .section := hTop.kind
  rw [Element.Obeys, hSection] at hObeys
  have hFlat : (flattenElement block).elements = block.elements.map flattenElement := by
    rw [flattenElement_elements, flattenInside, if_neg (by rw [hSection]; decide)]
  rw [passShape]
  constructor
  · rintro ⟨flat, flatColumn, hAlone, hSettings, hElements, hCount⟩
    obtain ⟨own, hOwn, rfl⟩ := List.map_eq_singleton_iff.1 hAlone
    obtain ⟨rfl, hWhole⟩ := splitShape_eq_singleton_iff.1 hOwn
    rw [hFlat] at hElements
    obtain ⟨column, hColumn, rfl⟩ := List.map_eq_singleton_iff.1 hElements
    have hKind : column.kind = .column := hObeys.2.2.2 column (hColumn ▸ List.mem_singleton_self _)
    have hSole : soleColumn? block = some column.elements :=
      soleColumn?_eq_some_iff.2 ⟨hSection, hTop.outer,
        (flattenElement_settings block).symm.trans hSettings, column, hColumn, hKind, rfl⟩
    obtain ⟨hSeveral, hSome⟩ := (one_lt_blockCount_flags hKind).1 hCount
    refine ⟨column.elements, hSole, ?_, hSeveral, hSome⟩
    -- Of widgets alone flattening would not make a section.
    have hOne := hWhole column.elements hSole
    rw [← length_blocks, length_blocks_le_one_iff] at hOne
    refine hOne.resolve_right fun hNone => ?_
    obtain ⟨e, hMem, hFlag⟩ := List.mem_flatMap.1 hSome
    have hInner := isInnerSection_of_mem_flags hFlag
    rw [hNone e hMem] at hInner
    cases hInner
  · rintro ⟨elements, hSole, hShort, hSeveral, hSome⟩
    have hWhole : ∀ others, soleColumn? block = some others → blockCount others ≤ 1 := by
      intro others hOthers
      obtain rfl := Option.some.inj (hSole.symm.trans hOthers)
      rw [← length_blocks]
      exact Nat.le_trans (length_blocks_le elements) hShort
    obtain ⟨-, -, hSettings, column, hColumn, hKind, rfl⟩ := soleColumn?_eq_some_iff.1 hSole
    refine ⟨flattenElement block, flattenElement column, ?_, ?_, ?_,
      (one_lt_blockCount_flags hKind).2 ⟨hSeveral, hSome⟩⟩
    · rw [splitShape_eq_singleton_iff.2 ⟨rfl, hWhole⟩, List.map_singleton]
    · rw [flattenElement_settings, hSettings]
    · rw [hFlat, hColumn, List.map_singleton]

/-- Whether flattening turns the only node in the column of a page into several blocks. -/
def isBuried (layout : Node) : Bool :=
  match columnNodes? layout with
  | some nodes =>
    decide ((nodes.filter Node.hasContent).length ≤ 1) &&
      decide (1 < (nodes.flatMap faces).length) && (nodes.flatMap faces).any Node.isWrapper
  | none => false

/-- What stands in the only column of a page is content of its layout. -/
theorem hasContent_of_columnNodes? {layout : Node} {nodes : List Node}
    (hNodes : columnNodes? layout = some nodes) (hContent : Node.anyContent nodes = true) :
    layout.hasContent = true := by
  have hRow {entries : List Column} (hSole : soleColumnNodes? entries = some nodes) :
      Column.anyContent entries = true := by
    unfold soleColumnNodes? at hSole
    split at hSole
    · rename_i column hColumn
      have hMem : column ∈ entries.filter Column.hasContent := hColumn ▸ List.mem_singleton_self _
      obtain ⟨hEntry, hOwn⟩ := List.mem_filter.1 hMem
      exact Column.anyContent_iff.2 ⟨column, hEntry, hOwn⟩
    · cases hSole
  unfold columnNodes? at hNodes
  split at hNodes
  · obtain ⟨-, hSole⟩ := Option.ite_none_right_eq_some.1 hNodes
    rw [Node.hasContent, Node.anyContent, Node.hasContent, hRow hSole, Bool.true_or]
  · obtain ⟨-, hChildren⟩ := Option.ite_none_right_eq_some.1 hNodes
    rw [Node.hasContent, Option.some.inj hChildren, hContent]
  · obtain ⟨-, hChildren⟩ := Option.ite_none_right_eq_some.1 hNodes
    rw [Node.hasContent, Option.some.inj hChildren, hContent]
  · obtain ⟨-, hSole⟩ := Option.ite_none_right_eq_some.1 hNodes
    rw [Node.hasContent, hRow hSole]
  · cases hNodes

/-- In the block that a page starts from, several blocks come out of the only
element exactly where the layout is buried. -/
theorem buries_rootBlock_iff {layout : Node} {block : Element Unit}
    (hRoot : rootBlock .classicSimple layout = some block) :
    Buries block ↔ isBuried layout = true := by
  have hDialect : Dialect.classicSimple ≠ .container := by decide
  obtain ⟨e, hBuilt, rfl⟩ := Option.map_eq_some_iff.1 hRoot
  cases hWrapper : layout.isWrapper with
  | false =>
    -- A holder holds one widget.
    obtain ⟨-, widget, settings, -, rfl⟩ := eq_of_build_leaf hWrapper hBuilt
    rw [isBuried, columnNodes?_leaf hWrapper]
    simp only [Bool.false_eq_true, iff_false]
    rintro ⟨elements, hSole, -, hSeveral, -⟩
    obtain rfl := Option.some.inj hSole
    exact absurd hSeveral (Nat.lt_irrefl 1)
  | true =>
    obtain ⟨inside, hSole⟩ := soleColumn?_build hBuilt
    rw [if_pos (kind_of_build_wrapper hWrapper hBuilt).1, Buries, Element.unlabelled,
      soleColumn?_map, hSole, isBuried]
    cases columnNodes? layout with
    | none => simp
    | some nodes =>
      have hFlags : ((buildNodes .classicSimple inside 2 0 nodes).map
          (Element.map fun _ => ())).flatMap Element.flags =
            (nodes.flatMap faces).map Node.isWrapper := by
        rw [List.flatMap_map, ← facesOfAll_eq, faceFlags_all]
        refine (List.flatMap_congr fun e _ => flags_map _ e).trans ?_
        exact flags_buildNodes Nat.zero_lt_two (fun node _ => flags_build hDialect node) inside 0
      simp only [Option.map_some, Option.some.injEq, exists_eq_left', List.length_map,
        length_buildNodes, hFlags, List.mem_map, Bool.and_eq_true, decide_eq_true_eq,
        List.any_eq_true, and_assoc]

/-- Buried layouts have content. -/
theorem hasContent_of_isBuried {layout : Node} (hBuried : isBuried layout = true) :
    layout.hasContent = true := by
  unfold isBuried at hBuried
  split at hBuried
  · rename_i nodes hNodes
    simp only [Bool.and_eq_true, decide_eq_true_eq] at hBuried
    refine hasContent_of_columnNodes? hNodes ?_
    by_contra hNone
    have hFaces : nodes.flatMap faces = [] := List.flatMap_eq_nil_iff.2 fun node hMem =>
      faces_of_not_hasContent node
        (Node.anyContent_eq_false_iff.1 (Bool.eq_false_iff.2 hNone) node hMem)
    rw [hFaces] at hBuried
    exact Nat.not_lt_zero 1 hBuried.1.2
  · cases hBuried

/-- A page is left undivided exactly if its layout is buried. -/
theorem undivided_content_iff (layout : Node) :
    Undivided (content .classicSimple layout) ↔ isBuried layout = true := by
  rw [← undivided_map (fun _ => ()) (content .classicSimple layout)]
  have hShape : (content .classicSimple layout).map (Element.map fun _ => ()) =
      pageShape .classicSimple layout := unlabelled_content layout
  have hSome := rootBlock_isSome (d := .classicSimple) layout
  rw [hShape, pageShape]
  cases hRoot : rootBlock .classicSimple layout with
  | none =>
    rw [hRoot] at hSome
    constructor
    · rintro ⟨block, column, hAlone, -⟩
      cases hAlone
    · intro hBuried
      rw [hasContent_of_isBuried hBuried] at hSome
      cases hSome
  | some block =>
    rw [Option.toList_some, List.flatMap_singleton,
      undivided_passShape_iff (isTop_rootBlock hRoot), buries_rootBlock_iff hRoot]

/-- The pages of the dialect that splits are undivided exactly where the layout is
buried: where all that stands in the one column of the page is a wrapper that
flattening takes out, and several blocks come out of it. -/
theorem undivided_exportLayout_iff (layout : Node) (title : String) :
    Undivided (exportLayout (some layout) title .classicSimple).content ↔
      isBuried layout = true :=
  undivided_content_iff layout

/-- Two blocks in a plain container in a plain container. -/
def wrappedBlocks : Node :=
  .container none [.container none
    [.text "a" none, .container (some { backgroundColor := some "#abc" }) [.text "b" none]]]

/-- They stay together in one section. -/
theorem wrappedBlocks_undivided :
    Undivided (exportLayout (some wrappedBlocks) "t" .classicSimple).content :=
  (undivided_content_iff wrappedBlocks).2 rfl

end Pagewright.Page
