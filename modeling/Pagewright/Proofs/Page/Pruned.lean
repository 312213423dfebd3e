import Pagewright.Proofs.Layout.Pruned
import Pagewright.Proofs.Page.Export

/-!
# What shows nothing leaves no trace on a page

Two layouts are alike for a dialect when they are built as the same elements
apart from their labels, wherever they stand. Wrappers around alike lists are
alike, and a node without content makes no difference to a list, so a layout is
alike to what pruning leaves of it, as long as no section of it is crowded.

A classic dialect builds a crowded section as it builds a container, but the
section that pruning leaves of it as the row inside. There the exported page
is that of the layout with containers in place of its crowded sections.

## Main results

* `alike_pruned` — pruning makes no difference where no section is crowded.
* `alike_relieved` — nor do containers in place of crowded sections, in a
  classic dialect.
* `exportLayout_pruned` — the page of a layout is the page of its pruned form.
* `crowdedSection_nests` — pruning changes the classic page of a crowded section.
-/

namespace Pagewright.Page

open Layout

variable {d : Dialect}

/-! ## Wrappers without labels

What a wrapper looks like without labels is a matter of its style, its depth and what it holds. -/

section Wrappers

variable {elements others : List (Element Path)}

theorem unlabelled_wrapColumn
    (hElements : elements.map Element.unlabelled = others.map Element.unlabelled)
    (path other : Path) (index otherIndex : Nat) (style : Option Style) (share : Option Nat) :
    (d.wrapColumn path index style share elements).unlabelled =
      (d.wrapColumn other otherIndex style share others).unlabelled := by
  cases d <;>
    simp only [Dialect.wrapColumn, Element.ofContainer, Element.ofColumn, Element.unlabelled_eq,
      hElements]

theorem unlabelled_wrapBlock
    (hElements : elements.map Element.unlabelled = others.map Element.unlabelled)
    (path other : Path) (depth : Nat) (style : Option Style) :
    (d.wrapBlock path depth style elements).unlabelled =
      (d.wrapBlock other depth style others).unlabelled := by
  cases d <;>
    simp only [Dialect.wrapBlock, Element.ofContainer, Element.ofSection, Element.ofColumn,
      Element.unlabelled_eq, List.map_cons, List.map_nil, hElements]

theorem unlabelled_wrapRow
    (hElements : elements.map Element.unlabelled = others.map Element.unlabelled)
    (path other : Path) (depth : Nat) (style : Option Style) :
    (d.wrapRow path depth style elements).unlabelled =
      (d.wrapRow other depth style others).unlabelled := by
  cases d <;>
    simp only [Dialect.wrapRow, Element.ofContainer, Element.ofSection, Element.unlabelled_eq,
      hElements]

end Wrappers

/-! ## Alike layouts -/

/-- Whether two layouts are built as the same elements apart from labels. -/
def Alike (d : Dialect) (node other : Node) : Prop :=
  ∀ path otherPath depth, (build d path depth node).map Element.unlabelled =
    (build d otherPath depth other).map Element.unlabelled

/-- Whether two lists of layouts are built as the same elements apart from labels. -/
def AlikeNodes (d : Dialect) (nodes others : List Node) : Prop :=
  ∀ path otherPath depth index otherIndex,
    (buildNodes d path depth index nodes).map Element.unlabelled =
      (buildNodes d otherPath depth otherIndex others).map Element.unlabelled

/-- Whether two lists of columns are built as the same elements apart from labels. -/
def AlikeColumns (d : Dialect) (entries others : List Column) : Prop :=
  ∀ path otherPath depth shares kept index otherIndex,
    (buildColumns d path depth shares kept index entries).map Element.unlabelled =
      (buildColumns d otherPath depth shares kept otherIndex others).map Element.unlabelled

theorem Alike.trans {node other third : Node} (hFirst : Alike d node other)
    (hSecond : Alike d other third) : Alike d node third :=
  fun path otherPath depth =>
    (hFirst path rootPath depth).trans (hSecond rootPath otherPath depth)

/-! ## Lists -/

theorem AlikeNodes.nil : AlikeNodes d [] [] := fun _ _ _ _ _ => rfl

theorem AlikeNodes.cons {node other : Node} {rest others : List Node}
    (hNode : Alike d node other) (hRest : AlikeNodes d rest others) :
    AlikeNodes d (node :: rest) (other :: others) := by
  intro path otherPath depth index otherIndex
  have hBuilt := hNode (path.under (.child index)) (otherPath.under (.child otherIndex)) depth
  rw [buildNodes, buildNodes, List.map_append, List.map_append, ← Option.toList_map,
    ← Option.toList_map, hBuilt, hRest path otherPath depth (index + 1) (otherIndex + 1)]

/-- A node without content makes no difference. -/
theorem AlikeNodes.skip {node : Node} {rest others : List Node}
    (hNone : node.hasContent = false) (hRest : AlikeNodes d others rest) :
    AlikeNodes d others (node :: rest) := by
  intro path otherPath depth index otherIndex
  have hBuilt : build d (otherPath.under (.child otherIndex)) depth node = none := by
    have hSome := build_isSome (d := d) (otherPath.under (.child otherIndex)) depth node
    rw [hNone] at hSome
    exact Option.isSome_eq_false_iff.1 hSome |> Option.isNone_iff_eq_none.1
  rw [buildNodes, hBuilt]
  exact hRest path otherPath depth index (otherIndex + 1)

/-- Alike lists have content or not alike. -/
theorem AlikeNodes.anyContent {nodes others : List Node} (hAlike : AlikeNodes d nodes others) :
    Node.anyContent nodes = Node.anyContent others := by
  have hLength := congrArg List.length (hAlike rootPath rootPath 0 0 0)
  rw [List.length_map, List.length_map, length_buildNodes, length_buildNodes] at hLength
  have hPos : ∀ list : List Node,
      Node.anyContent list = true ↔ 0 < (list.filter Node.hasContent).length := by
    intro list
    rw [Node.anyContent_iff, List.length_filter_pos_iff]
  rw [Bool.eq_iff_iff, hPos, hPos, hLength]

theorem AlikeColumns.nil : AlikeColumns d [] [] := fun _ _ _ _ _ _ _ => rfl

/-- Columns with the same style and alike nodes are alike. -/
theorem AlikeColumns.cons {style : Option Style} {children inside : List Node}
    {rest others : List Column} (hNodes : AlikeNodes d children inside)
    (hRest : AlikeColumns d rest others) :
    AlikeColumns d (.mk style children :: rest) (.mk style inside :: others) := by
  intro path otherPath depth shares kept index otherIndex
  rw [buildColumns, buildColumns, hNodes.anyContent]
  split
  · rw [List.map_cons, List.map_cons,
      hRest path otherPath depth shares (kept + 1) (index + 1) (otherIndex + 1)]
    exact congrArg (· :: _) (unlabelled_wrapColumn (hNodes _ _ depth 0 0) path otherPath index
      otherIndex style _)
  · exact hRest path otherPath depth shares kept (index + 1) (otherIndex + 1)

/-- A column without content makes no difference. -/
theorem AlikeColumns.skip {column : Column} {rest others : List Column}
    (hNone : column.hasContent = false) (hRest : AlikeColumns d others rest) :
    AlikeColumns d others (column :: rest) := by
  intro path otherPath depth shares kept index otherIndex
  obtain ⟨style, children⟩ := column
  rw [Column.hasContent] at hNone
  rw [buildColumns, if_neg (by rw [hNone]; exact Bool.false_ne_true)]
  exact hRest path otherPath depth shares kept index (otherIndex + 1)

/-- Alike rows have content or not alike. -/
theorem AlikeColumns.anyContent {entries others : List Column}
    (hAlike : AlikeColumns d entries others) :
    Column.anyContent entries = Column.anyContent others := by
  have hLength := congrArg List.length (hAlike rootPath rootPath 0 none 0 0 0)
  rw [List.length_map, List.length_map, length_buildColumns, length_buildColumns] at hLength
  have hPos : ∀ list : List Column,
      Column.anyContent list = true ↔ 0 < (list.filter Column.hasContent).length := by
    intro list
    rw [Column.anyContent_iff, List.length_filter_pos_iff]
  rw [Bool.eq_iff_iff, hPos, hPos, hLength]

/-! ## Wrappers -/

theorem alike_container {style : Option Style} {children others : List Node}
    (hNodes : AlikeNodes d children others) :
    Alike d (.container style children) (.container style others) := by
  intro path otherPath depth
  rw [build_container, build_container, hNodes.anyContent]
  split
  · exact congrArg some (unlabelled_wrapBlock (hNodes _ _ _ 0 0) path otherPath depth style)
  · rfl

theorem alike_columns {style : Option Style} {entries others : List Column}
    (hShares : rowShares entries = rowShares others) (hColumns : AlikeColumns d entries others) :
    Alike d (.columns style entries) (.columns style others) := by
  intro path otherPath depth
  rw [build_columns, build_columns, hColumns.anyContent, hShares]
  split
  · exact congrArg some
      (unlabelled_wrapRow (hColumns path otherPath _ _ 0 0 0) path otherPath depth style)
  · rfl

/-- Sections around alike rows are alike, being these rows. -/
theorem alike_section_row (hDialect : d ≠ .container) {style rowStyle otherStyle : Option Style}
    {entries others : List Column}
    (hRow : Alike d (.columns rowStyle entries) (.columns otherStyle others)) :
    Alike d (.section style [.columns rowStyle entries])
      (.section style [.columns otherStyle others]) := by
  intro path otherPath depth
  have hInherit : Element.unlabelled ∘ Dialect.inheritRow style =
      (fun row => { row with
        settings := inheritSettings (wrapperSettings style) row.settings }) ∘
          Element.unlabelled := by
    funext row
    simp only [Function.comp_apply, Dialect.inheritRow, Element.unlabelled_eq]
  rw [build_section_row hDialect, build_section_row hDialect, Option.map_map, Option.map_map,
    hInherit, ← Option.map_map, ← Option.map_map, hRow path otherPath depth]

/-- Other sections are alike when containers in their place would be. -/
theorem alike_section_block {style : Option Style} {children others : List Node}
    (hBlock : d = .container ∨ ∀ rowStyle entries, children ≠ [.columns rowStyle entries])
    (hOther : d = .container ∨ ∀ rowStyle entries, others ≠ [.columns rowStyle entries])
    (hNodes : AlikeNodes d children others) :
    Alike d (.section style children) (.section style others) := by
  intro path otherPath depth
  rw [build_section_block hBlock, build_section_block hOther]
  exact alike_container hNodes path otherPath depth

/-! ## Leaves and pages -/

theorem alike_leaf {leaf other : Node} (hLeaf : leaf.isWrapper = false)
    (hOther : other.isWrapper = false) (hContent : leaf.hasContent = other.hasContent)
    (hWidget : leafWidget leaf = leafWidget other) : Alike d leaf other := by
  intro path otherPath depth
  rw [build_leaf path depth hLeaf, build_leaf otherPath depth hOther, buildLeaf, buildLeaf,
    hContent, hWidget]
  split
  · rw [Option.map_map, Option.map_map]
    exact congrArg (Option.map · _) (funext fun _ => rfl)
  · rfl

/-- Layouts without content are alike. -/
theorem alike_of_not_hasContent {node other : Node} (hNode : node.hasContent = false)
    (hOther : other.hasContent = false) : Alike d node other := by
  have hNone : ∀ (layout : Node) path depth, layout.hasContent = false →
      build d path depth layout = none := by
    intro layout path depth hContent
    rw [← Option.isNone_iff_eq_none, ← Option.isSome_eq_false_iff, build_isSome, hContent]
  intro path otherPath depth
  rw [hNone node path depth hNode, hNone other otherPath depth hOther]

/-- The pages of alike layouts differ in nothing but ids. -/
theorem Alike.pageShape {layout other : Node} (hAlike : Alike d layout other) :
    pageShape d layout = pageShape d other := by
  have hBlock : ∀ root : Node, rootBlock d root =
      ((build d rootPath 0 root).map Element.unlabelled).map fun e =>
        if e.kind = d.topLevel then e else d.holder e := by
    intro root
    rw [rootBlock, Option.map_map]
    refine congrArg (Option.map · _) (funext fun e => ?_)
    rw [Function.comp_apply, Element.unlabelled_eq]
  rw [Page.pageShape, Page.pageShape, hBlock, hBlock, hAlike rootPath rootPath 0]

/-- Columns share a row as they did before a change that concerns neither their styles nor
whether they have content. -/
theorem rowShares_map {change : Column → Column} {entries : List Column}
    (hStyle : ∀ column, (change column).style = column.style)
    (hContent : ∀ column ∈ entries, (change column).hasContent = column.hasContent) :
    rowShares (entries.map change) = rowShares entries := by
  have hKept : entries.filter (Column.hasContent ∘ change) = entries.filter Column.hasContent :=
    List.filter_congr hContent
  rw [rowShares, rowShares, List.filter_map, hKept, List.map_map]
  simp only [Function.comp_def, hStyle]

/-! ## Pruning -/

theorem alikeNodes_prunedAll {nodes : List Node}
    (hNodes : ∀ node ∈ nodes, Alike d (node.pruned Node.hasContent) node) :
    AlikeNodes d (Node.prunedAll Node.hasContent nodes) nodes := by
  induction nodes with
  | nil => exact AlikeNodes.nil
  | cons node rest ih =>
    have hRest := ih fun other hMem => hNodes other (List.mem_cons_of_mem node hMem)
    rw [Node.prunedAll]
    simp only [Node.hasContent_pruned]
    split
    · exact AlikeNodes.cons (hNodes node List.mem_cons_self) hRest
    · rename_i hNone
      exact hRest.skip (Bool.eq_false_iff.2 hNone)

theorem alikeColumns_prunedAll {entries : List Column}
    (hEntries : ∀ column ∈ entries, ∀ child ∈ column.children,
      Alike d (child.pruned Node.hasContent) child) :
    AlikeColumns d (Column.prunedAll Node.hasContent entries) entries := by
  induction entries with
  | nil => exact AlikeColumns.nil
  | cons column rest ih =>
    have hRest := ih fun other hMem => hEntries other (List.mem_cons_of_mem column hMem)
    have hColumn := alikeNodes_prunedAll (hEntries column List.mem_cons_self)
    obtain ⟨style, children⟩ := column
    rw [Column.prunedAll]
    split
    · exact AlikeColumns.cons hColumn hRest
    · rename_i hNone
      refine AlikeColumns.skip ?_ hRest
      rw [Column.hasContent_eq, ← hColumn.anyContent]
      exact Bool.eq_false_iff.2 hNone

/-- The columns that pruning leaves share the row as before. -/
theorem rowShares_prunedAll (entries : List Column) :
    rowShares (Column.prunedAll Node.hasContent entries) = rowShares entries := by
  have hPruned : rowShares (entries.map (Column.pruned Node.hasContent)) = rowShares entries :=
    rowShares_map (fun _ => rfl) fun column _ => Column.hasContent_pruned column
  rw [← hPruned, Column.prunedAll_eq, rowShares, rowShares, List.filter_filter]
  simp only [Bool.and_self]

/-- Pruning a bar does not change the links that it shows. -/
theorem leafWidget_pruned (keep : Node → Bool) {leaf : Node} (hLeaf : leaf.isWrapper = false) :
    leafWidget (leaf.pruned keep) = leafWidget leaf := by
  cases leaf with
  | «section» | container | columns => cases hLeaf
  | nav style items =>
    have hTwice : labelledItems (labelledItems items) = labelledItems items := by
      simp only [labelledItems, List.filter_filter, Bool.and_self]
    show some (WidgetKind.html, [("html", Json.str (navMarkup (labelledItems items)))]) = _
    rw [navMarkup, hTwice]
    rfl
  | heading | text | image | button | input | unknown => rfl

/-- A layout is alike to what pruning leaves of it, if no section of it is crowded or
the dialect does not care. -/
theorem alike_pruned (node : Node) :
    (d = .container ∨ node.Uncrowded) → Alike d (node.pruned Node.hasContent) node := by
  induction node using Node.induct with
  | inSection style children ih =>
    intro hOpen
    have hInside : ∀ child ∈ children, Alike d (child.pruned Node.hasContent) child :=
      fun child hChild => ih child hChild
        (hOpen.imp_right fun hWhole => (Node.uncrowded_section_iff.1 hWhole).2 child hChild)
    rcases row_or_block d children with ⟨hDialect, rowStyle, entries, rfl⟩ | hBlock
    · have hRow := hInside _ List.mem_cons_self
      rw [Node.pruned, Node.prunedAll, Node.prunedAll]
      simp only [Node.hasContent_pruned]
      split
      · exact alike_section_row hDialect hRow
      · rename_i hNone
        refine alike_of_not_hasContent rfl ?_
        rw [Node.hasContent, Node.anyContent, Bool.eq_false_iff.2 hNone]
        rfl
    · refine alike_section_block ?_ hBlock (alikeNodes_prunedAll hInside)
      rcases hBlock with hDialect | hNoRow
      · exact .inl hDialect
      · refine hOpen.imp_right fun hWhole rowStyle entries hRow => ?_
        obtain ⟨otherStyle, others, hChildren⟩ :=
          eq_row_of_prunedAll (Node.uncrowded_section_iff.1 hWhole).1 hRow
        exact hNoRow otherStyle others hChildren
  | inContainer style children ih =>
    intro hOpen
    refine alike_container (alikeNodes_prunedAll fun child hChild => ih child hChild ?_)
    exact hOpen.imp_right fun hWhole => Node.uncrowded_container_iff.1 hWhole child hChild
  | inColumns style entries ih =>
    intro hOpen
    refine alike_columns (rowShares_prunedAll entries)
      (alikeColumns_prunedAll fun column hColumn child hChild => ih column hColumn child hChild ?_)
    exact hOpen.imp_right fun hWhole =>
      Node.uncrowded_columns_iff.1 hWhole column hColumn child hChild
  | atLeaf leaf hLeaf =>
    intro _
    exact alike_leaf ((Node.isWrapper_pruned _ leaf).trans hLeaf) hLeaf
      (Node.hasContent_pruned leaf) (leafWidget_pruned _ hLeaf)

/-! ## Crowded sections -/

/-- In a classic dialect a crowded section is built as a container in its place. -/
theorem alike_relieved (hDialect : d ≠ .container) (node : Node) :
    Alike d node.relieved node := by
  have hNodes : ∀ nodes : List Node, (∀ node ∈ nodes, Alike d node.relieved node) →
      AlikeNodes d (Node.relievedAll nodes) nodes := by
    intro nodes ih
    induction nodes with
    | nil => exact AlikeNodes.nil
    | cons node rest ihRest =>
      exact AlikeNodes.cons (ih node List.mem_cons_self)
        (ihRest fun other hMem => ih other (List.mem_cons_of_mem node hMem))
  induction node using Node.induct with
  | inSection style children ih =>
    rw [Node.relieved]
    rcases row_or_block d children with ⟨-, rowStyle, entries, rfl⟩ | hBlock
    · rw [isCrowded_row, if_neg Bool.false_ne_true]
      exact alike_section_row hDialect (ih _ List.mem_cons_self)
    · split
      · intro path otherPath depth
        rw [build_section_block hBlock]
        exact alike_container (hNodes children ih) path otherPath depth
      · refine alike_section_block (hBlock.imp_right fun hNoRow rowStyle entries hRow => ?_) hBlock
          (hNodes children ih)
        rw [Node.relievedAll_eq] at hRow
        obtain ⟨row, rfl, hRelieved⟩ := List.map_eq_singleton_iff.1 hRow
        obtain ⟨others, rfl⟩ := Node.relieved_eq_row hRelieved
        exact hNoRow rowStyle others rfl
  | inContainer style children ih => exact alike_container (hNodes children ih)
  | inColumns style entries ih =>
    refine alike_columns ?_ ?_
    · rw [Column.relievedAll_eq]
      refine rowShares_map (fun _ => rfl) fun column hColumn => ?_
      rw [Column.hasContent_eq column]
      exact (hNodes column.children (ih column hColumn)).anyContent
    · induction entries with
      | nil => exact AlikeColumns.nil
      | cons column rest ihRest =>
        obtain ⟨own, children⟩ := column
        exact AlikeColumns.cons (hNodes children (ih _ List.mem_cons_self))
          (ihRest fun other hMem => ih other (List.mem_cons_of_mem _ hMem))
  | atLeaf leaf hLeaf =>
    rw [Node.relieved_leaf hLeaf]
    exact alike_leaf hLeaf hLeaf rfl rfl

/-! ## Pages -/

/-- The layout as a dialect takes it: a crowded section is a container to the classic ones. -/
def Dialect.taken (d : Dialect) (layout : Node) : Node :=
  match d with
  | .container => layout
  | _ => layout.relieved

/-- A dialect takes a layout as it is unless it is a classic one and a section is crowded. -/
theorem taken_eq_self_iff (layout : Node) :
    d.taken layout = layout ↔ d = .container ∨ layout.Uncrowded := by
  cases d with
  | container => exact iff_of_true rfl (.inl rfl)
  | classic | classicSimple =>
    show layout.relieved = layout ↔ _
    rw [Node.relieved_eq_self_iff]
    simp

theorem alike_pruned_taken (layout : Node) :
    Alike d ((d.taken layout).pruned Node.hasContent) layout := by
  cases d with
  | container => exact alike_pruned layout (.inl rfl)
  | classic | classicSimple =>
    exact (alike_pruned layout.relieved (.inr layout.uncrowded_relieved)).trans
      (alike_relieved (by decide) layout)

/-- Apart from ids the page of a layout is that of what pruning leaves of it, the crowded
sections of a classic page being taken for containers; other layouts are pruned as they are. -/
theorem exportLayout_pruned (layout : Node) (title : String) (d : Dialect) :
    (exportLayout (some layout) title d).content.map Element.unlabelled =
        (exportLayout (some ((d.taken layout).pruned Node.hasContent)) title d).content.map
          Element.unlabelled ∧
      (d.taken layout = layout ↔ d = .container ∨ layout.Uncrowded) := by
  refine ⟨?_, taken_eq_self_iff layout⟩
  show (content d layout).map _ = (content d _).map _
  rw [unlabelled_content, unlabelled_content]
  exact (alike_pruned_taken layout).pageShape.symm

/-- A section around two columns and a blank text. -/
def crowdedSection : Node :=
  .section none [.columns none [.mk none [.text "a" none], .mk none [.text "b" none]],
    .text "" none]

/-- The blank text puts a section and a column around the row. -/
theorem crowdedSection_nests :
    (exportLayout (some crowdedSection) "t" .classic).content.map Element.unlabelled ≠
      (exportLayout (some (crowdedSection.pruned Node.hasContent)) "t" .classic).content.map
        Element.unlabelled := by
  intro hEq
  have hShape : pageShape .classic crowdedSection =
      pageShape .classic (crowdedSection.pruned Node.hasContent) := by
    rw [← unlabelled_content, ← unlabelled_content]
    exact hEq
  have hColumns := congrArg (List.map fun e => e.elements.length) hShape
  revert hColumns
  decide

end Pagewright.Page
