import Pagewright.Proofs.Page.Preservation

/-!
# What an exported page shows

Building places the leaves of a layout in front of the backgrounds and paddings
around them; a page then goes through the passes of its dialect. No pass loses,
repeats or moves a widget. Backdrops survive as well, with one exception.

Where a layout is a single row and nothing around the row has a backdrop,
`classicSimple` takes a sole column of the row apart if that gives several
blocks, and the backdrop of the column is then behind none of them. That is
`lostBackdrop`.

## Main results

* `placements_content` — a page places its widgets as the layout says, but for
  the backdrop that is lost.
* `widgets_exportLayout` — every dialect shows the leaves with content, in order.
* `placements_exportLayout` — backdrops survive exactly where none is lost.
-/

namespace Pagewright.Page

open Layout

variable {d : Dialect}

/-! ## The lost backdrop -/

/-- The columns of a layout that is a single row without a backdrop. -/
def plainRow? : Node → Option (List Column)
  | .columns style entries => if (wrapperSettings style).isEmpty then some entries else none
  | .section style [.columns rowStyle entries] =>
    if (wrapperSettings style).isEmpty && (wrapperSettings rowStyle).isEmpty then some entries
    else none
  | _ => none

/-- Whether a column holds several blocks: more than one of its nodes has
content, and one of these is a wrapper. -/
def hasBlocks (column : Column) : Bool :=
  let kept := column.children.filter Node.hasContent
  decide (1 < kept.length) && kept.any Node.isWrapper

/-- The backdrop of the sole column of a row, if the column holds several blocks. -/
def columnLoss (entries : List Column) : Settings :=
  match entries.filter Column.hasContent with
  | [column] => if hasBlocks column then wrapperSettings column.style else []
  | _ => []

/-- The backdrop of the layout that its page shows nowhere. -/
def lostBackdrop (d : Dialect) (layout : Node) : Settings :=
  match d with
  | .classicSimple => ((plainRow? layout).map columnLoss).getD []
  | _ => []

/-! It is the loss of a split. -/

theorem splitLoss_map {ι κ : Type} (f : ι → κ) (e : Element ι) :
    splitLoss (Element.map f e) = splitLoss e := by
  unfold splitLoss
  rw [soleColumn?_map]
  cases soleColumn? e with
  | none => rfl
  | some elements =>
    have hBlocks : (blocks (elements.map (Element.map f))).length = (blocks elements).length :=
      (congrArg List.length (blocksFrom_map f elements [])).trans (List.length_map _)
    simp only [Option.map_some, hBlocks, Element.map_elements, List.flatMap_map,
      Element.map_settings]

/-- A plain column has no backdrop to lose. -/
theorem splitLoss_block {ι : Type} (id column : ι) (inner : Bool) (settings : Settings)
    (elements : List (Element ι)) :
    splitLoss (Element.ofSection id inner settings [Element.ofColumn column [] elements]) =
      [] := by
  unfold splitLoss
  split
  · split
    · rfl
    · simp [Element.ofSection, Element.ofColumn]
  · rfl

/-- In the classic dialects what is built inside a block or a row is an inner
section exactly when it stands for a wrapper. -/
theorem isInnerSection_build (hDialect : d ≠ .container) {path : Path} {depth : Nat}
    (hDepth : 0 < depth) {node : Node} {e : Element Path}
    (hBuilt : build d path depth node = some e) : e.isInnerSection = node.isWrapper := by
  cases hWrapper : node.isWrapper with
  | false =>
    obtain ⟨hKind, hInner⟩ := kind_of_build_leaf hWrapper hBuilt
    rw [Element.isInnerSection, hKind, hInner]
    rfl
  | true =>
    obtain ⟨hKind, hInner⟩ := kind_of_build_wrapper hWrapper hBuilt
    rw [Element.isInnerSection, hKind, hInner, topLevel_of_classic hDialect, decide_eq_true hDepth]
    rfl

/-- The elements of a column make up several blocks exactly when its nodes do. -/
theorem length_blocks_buildNodes (hDialect : d ≠ .container) (path : Path) {depth : Nat}
    (hDepth : 0 < depth) (column : Column) :
    (blocks (buildNodes d path depth 0 column.children)).length ≤ 1 ↔
      hasBlocks column = false := by
  have hSections : (buildNodes d path depth 0 column.children).map Element.isInnerSection =
      (column.children.filter Node.hasContent).map Node.isWrapper :=
    map_buildNodes (fun node _ path e hBuilt => isInnerSection_build hDialect hDepth hBuilt)
      path 0
  have hAny : (∀ e ∈ buildNodes d path depth 0 column.children, e.isInnerSection = false) ↔
      (column.children.filter Node.hasContent).any Node.isWrapper = false := by
    rw [List.any_eq_false, ← List.forall_mem_map (P := fun flag => flag = false), hSections,
      List.forall_mem_map]
    simp
  rw [length_blocks_le_one_iff, hAny, length_buildNodes, hasBlocks, Bool.and_eq_false_iff,
    decide_eq_false_iff_not, Nat.not_lt]

/-- The elements of a row with one column that has content: it has the first share. -/
theorem buildColumns_sole {entries : List Column} {column : Column}
    (hSole : entries.filter Column.hasContent = [column]) (path : Path) (depth : Nat)
    (shares : Option (List Nat)) : ∀ start, ∃ index,
      buildColumns d path depth shares 0 start entries =
        [d.wrapColumn path index column.style (shares.bind (·[0]?))
          (buildNodes d (Dialect.cellPath path index) depth 0 column.children)] := by
  induction entries with
  | nil => cases hSole
  | cons first rest ih =>
    intro start
    obtain ⟨style, children⟩ := first
    rw [List.filter_cons, Column.hasContent] at hSole
    rw [buildColumns]
    cases hContent : Node.anyContent children with
    | false =>
      rw [hContent] at hSole
      exact ih hSole (start + 1)
    | true =>
      rw [hContent, if_pos rfl] at hSole
      obtain ⟨rfl, hNone⟩ := List.cons.inj hSole
      have hRest := length_buildColumns (d := d) path depth shares 1 (start + 1) rest
      rw [hNone, List.length_nil, List.length_eq_zero_iff] at hRest
      exact ⟨start, by rw [if_pos rfl, hRest]; rfl⟩

/-- Any other number of columns with content is that of the elements. -/
theorem buildColumns_ne_singleton {entries : List Column}
    (hMany : ∀ column, entries.filter Column.hasContent ≠ [column]) (path : Path) (depth : Nat)
    (shares : Option (List Nat)) (kept start : Nat) (e : Element Path) :
    buildColumns d path depth shares kept start entries ≠ [e] := by
  intro hElements
  have hLength := length_buildColumns (d := d) path depth shares kept start entries
  rw [hElements, List.length_singleton] at hLength
  obtain ⟨column, hColumn⟩ := List.length_eq_one_iff.1 hLength.symm
  exact hMany column hColumn

/-- What has no sole column loses nothing. -/
theorem splitLoss_of_none {ι : Type} {e : Element ι} (h : soleColumn? e = none) :
    splitLoss e = [] := by
  rw [splitLoss, h]

/-- What splitting a row loses. -/
theorem splitLoss_row (hDialect : d ≠ .container) (path : Path) (entries : List Column)
    (settings : Settings) :
    splitLoss (Element.ofSection path false settings
        (buildColumns d path 2 (rowShares entries) 0 0 entries)) =
      if settings.isEmpty then columnLoss entries else [] := by
  cases settings with
  | cons entry rest => exact splitLoss_of_none rfl
  | nil =>
    rw [if_pos List.isEmpty_nil, columnLoss]
    split
    · rename_i column hSole
      obtain ⟨index, hElements⟩ :=
        buildColumns_sole (d := d) hSole path 2 (rowShares entries) 0
      have hKind : (d.wrapColumn path index column.style ((rowShares entries).bind (·[0]?))
          (buildNodes d (Dialect.cellPath path index) 2 0 column.children)).kind = .column := by
        rw [wrapColumn_kind, if_neg hDialect]
      have hBlocks := length_blocks_buildNodes hDialect (Dialect.cellPath path index)
        Nat.zero_lt_two column
      rw [hElements, splitLoss, soleColumn?_eq_some_iff.2
        ⟨rfl, rfl, rfl, _, rfl, hKind, wrapColumn_elements path index column.style _ _⟩]
      simp only [hBlocks, Element.ofSection, List.flatMap_singleton, backdrop_wrapColumn]
      cases hasBlocks column <;> rfl
    · rename_i hSole
      refine splitLoss_of_none (Option.eq_none_iff_forall_ne_some.2 fun elements hSome => ?_)
      obtain ⟨-, -, -, only, hOnly, -⟩ := soleColumn?_eq_some_iff.1 hSome
      exact buildColumns_ne_singleton hSole path 2 (rowShares entries) 0 0 only hOnly

/-- What splitting the element of a whole layout loses. -/
theorem splitLoss_build {path : Path} {layout : Node} {e : Element Path}
    (hBuilt : build .classicSimple path 0 layout = some e) :
    splitLoss e = lostBackdrop .classicSimple layout := by
  have hDialect : Dialect.classicSimple ≠ .container := nofun
  cases hWrapper : layout.isWrapper with
  | false =>
    obtain ⟨-, widget, settings, -, rfl⟩ := eq_of_build_leaf hWrapper hBuilt
    cases layout with
    | «section» | container | columns => cases hWrapper
    | heading | text | image | button | input | nav | unknown => rfl
  | true =>
    cases layout with
    | «section» style children =>
      rcases row_or_block .classicSimple children with ⟨-, rowStyle, entries, rfl⟩ | hBlock
      · rw [build_section_row hDialect] at hBuilt
        obtain ⟨row, hRow, rfl⟩ := Option.map_eq_some_iff.1 hBuilt
        obtain ⟨-, rfl⟩ := eq_of_build_columns hRow
        refine (splitLoss_row hDialect path entries
          (inheritSettings (wrapperSettings style) (wrapperSettings rowStyle))).trans ?_
        rw [isEmpty_inheritSettings, lostBackdrop, plainRow?]
        split <;> rfl
      · rw [build_section_block hBlock] at hBuilt
        obtain ⟨-, rfl⟩ := eq_of_build_container hBuilt
        have hNoRow : plainRow? (.section style children) = none := by
          unfold plainRow?
          split
          · rename_i hEq; cases hEq
          · rename_i rowStyle entries hEq
            exact absurd (Node.section.inj hEq).2 (hBlock.resolve_left hDialect rowStyle entries)
          · rfl
        rw [lostBackdrop, hNoRow]
        exact splitLoss_block path _ _ _ _
    | container style children =>
      obtain ⟨-, rfl⟩ := eq_of_build_container hBuilt
      exact splitLoss_block path _ _ _ _
    | columns style entries =>
      obtain ⟨-, rfl⟩ := eq_of_build_columns hBuilt
      refine (splitLoss_row hDialect path entries (wrapperSettings style)).trans ?_
      rw [lostBackdrop, plainRow?]
      split <;> rfl
    | heading | text | image | button | input | nav | unknown => cases hWrapper

theorem splitLoss_rootBlock {layout : Node} {block : Element Unit}
    (hRoot : rootBlock .classicSimple layout = some block) :
    splitLoss block = lostBackdrop .classicSimple layout := by
  obtain ⟨e, hBuilt, rfl⟩ := Option.map_eq_some_iff.1 hRoot
  rw [← splitLoss_build hBuilt]
  by_cases hKind : e.kind = Dialect.classicSimple.topLevel
  · rw [if_pos hKind]
    exact splitLoss_map _ e
  · rw [if_neg hKind]
    have hNone : soleColumn? e = none :=
      Option.eq_none_iff_forall_ne_some.2 fun elements hSome =>
        hKind (soleColumn?_eq_some_iff.1 hSome).1
    rw [splitLoss_of_none hNone]
    exact splitLoss_block _ _ _ _ _

/-! ## Pages -/

/-- A holder adds nothing to what it holds. -/
theorem placements_dialectHolder (e : Element Unit) : (d.holder e).placements = e.placements := by
  cases d with
  | container =>
    have hHeld : (Element.ofContainer () false [] [e]).placements =
        [e].flatMap Element.placements :=
      Element.placements_plain (by simp [Element.ofContainer]) rfl
    rwa [List.flatMap_singleton] at hHeld
  | classic | classicSimple =>
    have hHeld := @Element.placements_holder Unit () () [e]
    rwa [List.flatMap_singleton] at hHeld

/-- The block a page starts from holds what the layout holds. -/
theorem placements_rootBlock {layout : Node} {block : Element Unit}
    (hRoot : rootBlock d layout = some block) : block.placements = layoutPlacements d layout := by
  obtain ⟨e, hBuilt, rfl⟩ := Option.map_eq_some_iff.1 hRoot
  have hPlaced : e.unlabelled.placements = layoutPlacements d layout :=
    (Element.placements_map _ e).trans (placements_build layout rootPath 0 e hBuilt)
  split
  · exact hPlaced
  · rw [placements_dialectHolder, hPlaced]

/-- The passes of a dialect lose at most one backdrop. -/
theorem placements_passShape {layout : Node} {block : Element Unit}
    (hRoot : rootBlock d layout = some block) :
    block.placements = ((passShape d block).flatMap Element.placements).map
      (·.within (nonEmpty (lostBackdrop d layout))) := by
  cases d with
  | container =>
    show _ = ([block].flatMap Element.placements).map (·.within [])
    rw [List.flatMap_singleton, map_within_nil]
  | classic =>
    show _ = ([flattenElement block].flatMap Element.placements).map (·.within [])
    rw [List.flatMap_singleton, map_within_nil, Element.placements_flatten]
  | classicSimple =>
    have hFlat : ((splitShape block).map flattenElement).flatMap Element.placements =
        (splitShape block).flatMap Element.placements := by
      rw [List.flatMap_map]
      exact List.flatMap_congr fun e _ => Element.placements_flatten e
    rw [passShape, hFlat, ← splitLoss_rootBlock hRoot]
    exact placements_splitShape block

/-- A page places its widgets as the layout says, but for the backdrop that is lost. -/
theorem placements_content (layout : Node) :
    layoutPlacements d layout = (Element.allPlacements (content d layout)).map
      (·.within (nonEmpty (lostBackdrop d layout))) := by
  have hLabels : Element.allPlacements (content d layout) =
      (pageShape d layout).flatMap Element.placements := by
    rw [← unlabelled_content, Element.allPlacements_eq, List.flatMap_map]
    exact List.flatMap_congr fun e _ => (Element.placements_map _ e).symm
  rw [hLabels, pageShape]
  cases hRoot : rootBlock d layout with
  | none =>
    have hContent := rootBlock_isSome (d := d) layout
    rw [hRoot] at hContent
    exact layoutPlacements_of_not_hasContent hContent.symm
  | some block =>
    rw [Option.toList_some, List.flatMap_singleton, ← placements_rootBlock hRoot,
      placements_passShape hRoot]

/-- A page shows the leaves of its layout that have content. -/
theorem pageWidgets_content (layout : Node) :
    pageWidgets (content d layout) = layout.shown.map leafWidget := by
  rw [pageWidgets_eq, ← map_shown_layoutPlacements (d := d), placements_content (d := d) layout,
    map_shown_within]

/-- Every dialect shows the leaves that have content, in document order, and
nothing else; the page is empty exactly when there are none. -/
theorem widgets_exportLayout (layout : Node) (title : String) (d : Dialect) :
    pageWidgets (exportLayout (some layout) title d).content =
        (layout.leaves.filter Node.hasContent).map leafWidget ∧
      (∀ other, pageWidgets (exportLayout (some layout) title other).content =
        pageWidgets (exportLayout (some layout) title d).content) ∧
      ((exportLayout (some layout) title d).content = [] ↔ layout.hasContent = false) := by
  refine ⟨pageWidgets_content layout, fun other => ?_, (length_content layout).1⟩
  exact (pageWidgets_content (d := other) layout).trans (pageWidgets_content layout).symm

/-! ## Backdrops that survive -/

/-- A layout that is a single row has content exactly when the row has. -/
theorem hasContent_of_plainRow {layout : Node} {entries : List Column}
    (hRow : plainRow? layout = some entries) :
    layout.hasContent = Column.anyContent entries := by
  unfold plainRow? at hRow
  split at hRow
  · obtain ⟨-, hEq⟩ := Option.ite_none_right_eq_some.1 hRow
    rw [Option.some.inj hEq, Node.hasContent]
  · obtain ⟨-, hEq⟩ := Option.ite_none_right_eq_some.1 hRow
    rw [Option.some.inj hEq, Node.hasContent, Node.anyContent, Node.hasContent,
      Node.anyContent, Bool.or_false]
  · cases hRow

/-- A layout that loses a backdrop has content. -/
theorem hasContent_of_lostBackdrop {layout : Node} (hLost : lostBackdrop d layout ≠ []) :
    layout.hasContent = true := by
  cases d with
  | container | classic => exact absurd rfl hLost
  | classicSimple =>
    cases hRow : plainRow? layout with
    | none =>
      rw [lostBackdrop, hRow] at hLost
      exact absurd rfl hLost
    | some entries =>
      rw [hasContent_of_plainRow hRow, Column.anyContent_iff]
      by_contra hEmpty
      have hKept : entries.filter Column.hasContent = [] :=
        List.filter_eq_nil_iff.2 fun column hMem hContent => hEmpty ⟨column, hMem, hContent⟩
      rw [lostBackdrop, hRow, Option.map_some, Option.getD_some, columnLoss, hKept] at hLost
      exact hLost rfl

/-- All backdrops survive exactly where none is lost. -/
theorem placements_content_iff (layout : Node) :
    layoutPlacements d layout = Element.allPlacements (content d layout) ↔
      lostBackdrop d layout = [] := by
  have hPlaced := placements_content (d := d) layout
  constructor
  · intro hEq
    by_contra hLost
    have hShown : layout.shown ≠ [] :=
      (Node.hasContent_iff layout).1 (hasContent_of_lostBackdrop hLost)
    have hMap := map_shown_layoutPlacements (d := d) layout
    cases hFirst : layoutPlacements d layout with
    | nil =>
      rw [hFirst] at hMap
      exact hShown (List.map_eq_nil_iff.1 hMap.symm)
    | cons first rest =>
      -- The first placement would have one backdrop more than itself.
      rw [← hEq, hFirst, List.map_cons] at hPlaced
      have hLength := congrArg (fun p => p.backdrops.length) (List.cons.inj hPlaced).1
      have hOne : (nonEmpty (lostBackdrop d layout)).length = 1 := by
        cases hLoss : lostBackdrop d layout with
        | nil => exact absurd hLoss hLost
        | cons entry others => rfl
      simp only [Placement.within, List.length_append, hOne] at hLength
      omega
  · intro hNone
    rw [hPlaced, hNone]
    exact map_within_nil _

/-- A page places its widgets in front of all backgrounds and paddings of the
layout but the lost one, in the order of the layout; none is missing exactly if
none is lost. -/
theorem placements_exportLayout (layout : Node) (title : String) (d : Dialect) :
    layoutPlacements d layout =
        (Element.allPlacements (exportLayout (some layout) title d).content).map
          (·.within (nonEmpty (lostBackdrop d layout))) ∧
      (layoutPlacements d layout =
          Element.allPlacements (exportLayout (some layout) title d).content ↔
        lostBackdrop d layout = []) :=
  ⟨placements_content layout, placements_content_iff layout⟩

/-- A row whose only column has a background and two blocks. -/
def shadedColumn : Node :=
  .columns none [.mk (some { backgroundColor := some "#abc" })
    [.text "a" none, .container none [.text "b" none]]]

/-- The background of its column is behind nothing on the page. -/
theorem shadedColumn_loses_background :
    layoutPlacements .classicSimple shadedColumn ≠
      Element.allPlacements (exportLayout (some shadedColumn) "t" .classicSimple).content := by
  intro hEq
  have hNone := (placements_content_iff shadedColumn).1 hEq
  cases hNone

end Pagewright.Page
