import Pagewright.Page.Export
import Pagewright.Proofs.Layout.Tree
import Pagewright.Proofs.Page.Tree

/-!
# What building gives

One equation for each case of `build`: leaves, containers and rows are built
directly, and a section is either built as a container or, around a single row
in a classic dialect, as that row. Lists of nodes and of columns are built
member by member; members without content leave nothing behind.

## Main results

* `build_isSome` — exactly the nodes with content are built.
* `build_section_row`, `build_section_block` — the two ways to build a section.
* `build_induct` — what holds of leaves, and of wrappers and rows of what it holds of,
  holds of everything that is built.
* `map_buildNodes`, `map_buildColumns` — what is true of the element of each
  node or column with content carries over to lists and rows.
-/

namespace Pagewright.Page

open Layout

variable {d : Dialect}

theorem topLevel_of_classic (hDialect : d ≠ .container) : d.topLevel = .section := by
  cases d with
  | container => exact absurd rfl hDialect
  | classic | classicSimple => rfl

/-! ## One node -/

theorem build_leaf (path : Path) (depth : Nat) {leaf : Node} (hLeaf : leaf.isWrapper = false) :
    build d path depth leaf = buildLeaf path leaf := by
  cases leaf with
  | «section» | container | columns => simp [Node.isWrapper] at hLeaf
  | heading | text | image | button | input | nav | unknown => rfl

theorem build_container (path : Path) (depth : Nat) (style : Option Style)
    (children : List Node) :
    build d path depth (.container style children) =
      if Node.anyContent children then
        some (d.wrapBlock path depth style
          (buildNodes d (d.blockPath path) (d.blockDepth depth) 0 children))
      else none := by
  rw [build]

theorem build_columns (path : Path) (depth : Nat) (style : Option Style)
    (entries : List Column) :
    build d path depth (.columns style entries) =
      if Column.anyContent entries then
        some (d.wrapRow path depth style
          (buildColumns d path (depth + 2) (rowShares entries) 0 0 entries))
      else none := by
  rw [build]

/-- Either a section is around a single row in a classic dialect, or it is a block. -/
theorem row_or_block (d : Dialect) (children : List Node) :
    (d ≠ .container ∧ ∃ rowStyle entries, children = [.columns rowStyle entries]) ∨
      (d = .container ∨ ∀ rowStyle entries, children ≠ [.columns rowStyle entries]) := by
  by_cases hRow : ∃ rowStyle entries, children = [.columns rowStyle entries]
  · by_cases hDialect : d = .container
    · exact .inr (.inl hDialect)
    · exact .inl ⟨hDialect, hRow⟩
  · exact .inr (.inr fun rowStyle entries hEq => hRow ⟨rowStyle, entries, hEq⟩)

/-- In the classic dialects a section around a single row is that row. -/
theorem build_section_row (hDialect : d ≠ .container) (path : Path) (depth : Nat)
    (style rowStyle : Option Style) (entries : List Column) :
    build d path depth (.section style [.columns rowStyle entries]) =
      (build d path depth (.columns rowStyle entries)).map (Dialect.inheritRow style) := by
  rw [build_columns]
  cases d with
  | container => exact absurd rfl hDialect
  | classic | classicSimple => rw [build]; split <;> simp; simp

/-- Any other section is built as a container is. -/
theorem build_section_block {children : List Node}
    (hBlock : d = .container ∨ ∀ rowStyle entries, children ≠ [.columns rowStyle entries])
    (path : Path) (depth : Nat) (style : Option Style) :
    build d path depth (.section style children) =
      build d path depth (.container style children) := by
  rw [build_container]
  by_cases hRow : ∃ rowStyle entries, children = [.columns rowStyle entries]
  · obtain ⟨rowStyle, entries, rfl⟩ := hRow
    rcases hBlock with rfl | hBlock
    · rw [build]
      simp [Node.anyContent, Node.hasContent]
    · exact absurd rfl (hBlock rowStyle entries)
  · rw [build]
    intro rowStyle entries hEq
    exact hRow ⟨rowStyle, entries, hEq⟩

/-! What an element that was built looks like, node by node. -/

theorem eq_of_build_container {path : Path} {depth : Nat} {style : Option Style}
    {children : List Node} {e : Element Path}
    (hBuilt : build d path depth (.container style children) = some e) :
    Node.anyContent children = true ∧
      e = d.wrapBlock path depth style
        (buildNodes d (d.blockPath path) (d.blockDepth depth) 0 children) := by
  rw [build_container] at hBuilt
  obtain ⟨hContent, hEq⟩ := Option.ite_none_right_eq_some.1 hBuilt
  exact ⟨hContent, (Option.some.inj hEq).symm⟩

theorem eq_of_build_columns {path : Path} {depth : Nat} {style : Option Style}
    {entries : List Column} {e : Element Path}
    (hBuilt : build d path depth (.columns style entries) = some e) :
    Column.anyContent entries = true ∧
      e = d.wrapRow path depth style
        (buildColumns d path (depth + 2) (rowShares entries) 0 0 entries) := by
  rw [build_columns] at hBuilt
  obtain ⟨hContent, hEq⟩ := Option.ite_none_right_eq_some.1 hBuilt
  exact ⟨hContent, (Option.some.inj hEq).symm⟩

theorem eq_of_build_leaf {path : Path} {depth : Nat} {leaf : Node} {e : Element Path}
    (hLeaf : leaf.isWrapper = false) (hBuilt : build d path depth leaf = some e) :
    leaf.hasContent = true ∧ ∃ widget settings,
      leafWidget leaf = some (widget, settings) ∧ e = Element.ofWidget path widget settings := by
  rw [build_leaf path depth hLeaf, buildLeaf] at hBuilt
  obtain ⟨hContent, hWidget⟩ := Option.ite_none_right_eq_some.1 hBuilt
  obtain ⟨⟨widget, settings⟩, hShown, hEq⟩ := Option.map_eq_some_iff.1 hWidget
  exact ⟨hContent, widget, settings, hShown, hEq.symm⟩

/-! ## Induction -/

/-- What holds of the widgets of leaves, and of what is built around elements of
which it holds, holds of everything that is built. Sections are built as containers
or as the row inside them. -/
theorem build_induct {motive : Node → Element Path → Prop}
    (leaf : ∀ (node : Node) (path : Path) (widget : WidgetKind) (settings : Settings),
      node.isWrapper = false → node.hasContent = true →
      leafWidget node = some (widget, settings) →
      motive node (Element.ofWidget path widget settings))
    (container : ∀ (style : Option Style) (children : List Node) (path : Path) (depth : Nat),
      Node.anyContent children = true →
      (∀ child ∈ children, ∀ path depth e, build d path depth child = some e →
        motive child e) →
      motive (.container style children) (d.wrapBlock path depth style
        (buildNodes d (d.blockPath path) (d.blockDepth depth) 0 children)))
    (columns : ∀ (style : Option Style) (entries : List Column) (path : Path) (depth : Nat),
      Column.anyContent entries = true →
      (∀ column ∈ entries, ∀ child ∈ column.children, ∀ path depth e,
        build d path depth child = some e → motive child e) →
      motive (.columns style entries) (d.wrapRow path depth style
        (buildColumns d path (depth + 2) (rowShares entries) 0 0 entries)))
    (sectionBlock : ∀ (style : Option Style) (children : List Node) (e : Element Path),
      (d = .container ∨ ∀ rowStyle entries, children ≠ [.columns rowStyle entries]) →
      motive (.container style children) e → motive (.section style children) e)
    (sectionRow : ∀ (style rowStyle : Option Style) (entries : List Column) (path : Path)
      (depth : Nat), d ≠ .container →
      motive (.columns rowStyle entries) (d.wrapRow path depth rowStyle
        (buildColumns d path (depth + 2) (rowShares entries) 0 0 entries)) →
      motive (.section style [.columns rowStyle entries]) (Dialect.inheritRow style
        (d.wrapRow path depth rowStyle
          (buildColumns d path (depth + 2) (rowShares entries) 0 0 entries))))
    (node : Node) : ∀ (path : Path) (depth : Nat) (e : Element Path),
      build d path depth node = some e → motive node e := by
  induction node using Node.induct with
  | inSection style children ih =>
    intro path depth e hBuilt
    rcases row_or_block d children with ⟨hDialect, rowStyle, entries, rfl⟩ | hBlock
    · rw [build_section_row hDialect] at hBuilt
      obtain ⟨row, hRow, rfl⟩ := Option.map_eq_some_iff.1 hBuilt
      have hInside := ih _ List.mem_cons_self path depth row hRow
      obtain ⟨-, rfl⟩ := eq_of_build_columns hRow
      exact sectionRow style rowStyle entries path depth hDialect hInside
    · rw [build_section_block hBlock] at hBuilt
      obtain ⟨hContent, rfl⟩ := eq_of_build_container hBuilt
      exact sectionBlock style children _ hBlock
        (container style children path depth hContent ih)
  | inContainer style children ih =>
    intro path depth e hBuilt
    obtain ⟨hContent, rfl⟩ := eq_of_build_container hBuilt
    exact container style children path depth hContent ih
  | inColumns style entries ih =>
    intro path depth e hBuilt
    obtain ⟨hContent, rfl⟩ := eq_of_build_columns hBuilt
    exact columns style entries path depth hContent ih
  | atLeaf node hLeaf =>
    intro path depth e hBuilt
    obtain ⟨hContent, widget, settings, hShown, rfl⟩ := eq_of_build_leaf hLeaf hBuilt
    exact leaf node path widget settings hLeaf hContent hShown

/-! ## Kinds -/

/-! Wrappers are built as the elements a page of the dialect consists of, and
marked as inner ones below the root. -/

theorem wrapBlock_kind (path : Path) (depth : Nat) (style : Option Style)
    (elements : List (Element Path)) :
    (d.wrapBlock path depth style elements).kind = d.topLevel ∧
      (d.wrapBlock path depth style elements).inner = decide (0 < depth) := by
  cases d <;> exact ⟨rfl, rfl⟩

theorem wrapRow_kind (path : Path) (depth : Nat) (style : Option Style)
    (elements : List (Element Path)) :
    (d.wrapRow path depth style elements).kind = d.topLevel ∧
      (d.wrapRow path depth style elements).inner = decide (0 < depth) := by
  cases d <;> exact ⟨rfl, rfl⟩

theorem kind_of_build_wrapper {path : Path} {depth : Nat} {node : Node} {e : Element Path}
    (hWrapper : node.isWrapper = true) (hBuilt : build d path depth node = some e) :
    e.kind = d.topLevel ∧ e.inner = decide (0 < depth) := by
  cases node with
  | «section» style children =>
    rcases row_or_block d children with ⟨hDialect, rowStyle, entries, rfl⟩ | hBlock
    · rw [build_section_row hDialect] at hBuilt
      obtain ⟨row, hRow, rfl⟩ := Option.map_eq_some_iff.1 hBuilt
      obtain ⟨-, rfl⟩ := eq_of_build_columns hRow
      exact wrapRow_kind path depth rowStyle _
    · rw [build_section_block hBlock] at hBuilt
      obtain ⟨-, rfl⟩ := eq_of_build_container hBuilt
      exact wrapBlock_kind path depth style _
  | container style children =>
    obtain ⟨-, rfl⟩ := eq_of_build_container hBuilt
    exact wrapBlock_kind path depth style _
  | columns style entries =>
    obtain ⟨-, rfl⟩ := eq_of_build_columns hBuilt
    exact wrapRow_kind path depth style _
  | heading | text | image | button | input | nav | unknown => cases hWrapper

theorem kind_of_build_leaf {path : Path} {depth : Nat} {leaf : Node} {e : Element Path}
    (hLeaf : leaf.isWrapper = false) (hBuilt : build d path depth leaf = some e) :
    e.kind = .widget ∧ e.inner = false := by
  obtain ⟨-, widget, settings, -, rfl⟩ := eq_of_build_leaf hLeaf hBuilt
  exact ⟨rfl, rfl⟩

theorem buildLeaf_isSome (path : Path) {leaf : Node} (hLeaf : leaf.isWrapper = false) :
    (buildLeaf path leaf).isSome = leaf.hasContent := by
  unfold buildLeaf
  cases leaf with
  | «section» | container | columns => simp [Node.isWrapper] at hLeaf
  | heading | text | image | button | input | nav | unknown =>
    split <;> simp_all [leafWidget, Node.hasContent]

/-- Exactly the nodes with content are built. -/
theorem build_isSome (path : Path) (depth : Nat) (node : Node) :
    (build d path depth node).isSome = node.hasContent := by
  cases node with
  | «section» style children =>
    rw [Node.hasContent]
    rcases row_or_block d children with ⟨hDialect, rowStyle, entries, rfl⟩ | hBlock
    · rw [build_section_row hDialect, build_columns]
      cases h : Column.anyContent entries <;> simp [h, Node.anyContent, Node.hasContent]
    · rw [build_section_block hBlock, build_container]
      split <;> simp_all
  | container style children =>
    rw [Node.hasContent, build_container]
    split <;> simp_all
  | columns style entries =>
    rw [Node.hasContent, build_columns]
    split <;> simp_all
  | heading | text | image | button | input | nav | unknown =>
    rw [build_leaf path depth rfl, buildLeaf_isSome path rfl]

/-! ## Lists -/

/-- What is true of the element of each node with content carries over to lists. -/
theorem map_buildNodes {α : Type} {view : Element Path → α} {own : Node → α} {depth : Nat}
    {nodes : List Node}
    (h : ∀ node ∈ nodes, ∀ path e, build d path depth node = some e → view e = own node)
    (path : Path) (index : Nat) :
    (buildNodes d path depth index nodes).map view =
      (nodes.filter Node.hasContent).map own := by
  induction nodes generalizing index with
  | nil => rfl
  | cons node rest ih =>
    have hRest := ih (fun other hMem => h other (List.mem_cons_of_mem node hMem)) (index + 1)
    have hSome := build_isSome (d := d) (path.under (.child index)) depth node
    rw [buildNodes, List.map_append, hRest, List.filter_cons, ← hSome]
    cases hBuilt : build d (path.under (.child index)) depth node with
    | none => rfl
    | some e =>
      have hView := h node List.mem_cons_self _ e hBuilt
      simp [hView]

/-- The elements of a list of nodes are the elements of its members. -/
theorem mem_buildNodes {path : Path} {depth index : Nat} {nodes : List Node}
    {e : Element Path} (hMem : e ∈ buildNodes d path depth index nodes) :
    ∃ node ∈ nodes, ∃ path, build d path depth node = some e := by
  induction nodes generalizing index with
  | nil => cases hMem
  | cons node rest ih =>
    rw [buildNodes, List.mem_append, Option.mem_toList] at hMem
    rcases hMem with hHead | hTail
    · exact ⟨node, List.mem_cons_self, _, hHead⟩
    · obtain ⟨other, hOther, hBuilt⟩ := ih hTail
      exact ⟨other, List.mem_cons_of_mem node hOther, hBuilt⟩

theorem length_buildNodes (path : Path) (depth index : Nat) (nodes : List Node) :
    (buildNodes d path depth index nodes).length = (nodes.filter Node.hasContent).length := by
  have h := @map_buildNodes d Unit (fun _ => ()) (fun _ => ()) depth nodes
    (fun _ _ _ _ _ => rfl) path index
  simpa using congrArg List.length h

/-- Nodes with content leave elements behind. -/
theorem buildNodes_ne_nil {nodes : List Node} (hContent : Node.anyContent nodes = true)
    (path : Path) (depth index : Nat) : buildNodes d path depth index nodes ≠ [] := by
  obtain ⟨node, hMem, hNode⟩ := Node.anyContent_iff.1 hContent
  rw [← List.length_pos_iff, length_buildNodes]
  exact List.length_pos_of_mem (List.mem_filter.2 ⟨hMem, hNode⟩)

/-- What is true of the element of each column with content, given its share,
carries over to rows: shares are counted over the columns with content. -/
theorem map_buildColumns {α : Type} {view : Element Path → α}
    {own : Column → Option Nat → α} {path : Path} {depth : Nat} {entries : List Column}
    (h : ∀ column ∈ entries, ∀ index share,
      view (d.wrapColumn path index column.style share
        (buildNodes d (Dialect.cellPath path index) depth 0 column.children)) =
          own column share)
    (shares : Option (List Nat)) (kept index : Nat) :
    (buildColumns d path depth shares kept index entries).map view =
      ((entries.filter Column.hasContent).zipIdx kept).map fun entry =>
        own entry.1 (shares.bind (·[entry.2]?)) := by
  induction entries generalizing kept index with
  | nil => rfl
  | cons column rest ih =>
    have hRest := ih fun other hMem => h other (List.mem_cons_of_mem column hMem)
    have hColumn := h column List.mem_cons_self
    cases column with
    | mk style children =>
      rw [buildColumns, List.filter_cons, Column.hasContent]
      by_cases hContent : Node.anyContent children = true
      · rw [if_pos hContent, if_pos hContent, List.map_cons, hRest, List.zipIdx_cons,
          List.map_cons]
        exact congrArg (· :: _) (hColumn index _)
      · rw [if_neg hContent, if_neg hContent, hRest]

/-- The elements of a row stand for its columns with content. -/
theorem mem_buildColumns {path : Path} {depth : Nat} {shares : Option (List Nat)}
    {kept index : Nat} {entries : List Column} {e : Element Path}
    (hMem : e ∈ buildColumns d path depth shares kept index entries) :
    ∃ column ∈ entries, Node.anyContent column.children = true ∧ ∃ index share,
      e = d.wrapColumn path index column.style share
        (buildNodes d (Dialect.cellPath path index) depth 0 column.children) := by
  induction entries generalizing kept index with
  | nil => cases hMem
  | cons column rest ih =>
    cases column with
    | mk style children =>
      rw [buildColumns] at hMem
      split at hMem
      · rename_i hContent
        rcases List.mem_cons.1 hMem with rfl | hTail
        · exact ⟨_, List.mem_cons_self, hContent, index, _, rfl⟩
        · obtain ⟨other, hOther, hBuilt⟩ := ih hTail
          exact ⟨other, List.mem_cons_of_mem _ hOther, hBuilt⟩
      · obtain ⟨other, hOther, hBuilt⟩ := ih hMem
        exact ⟨other, List.mem_cons_of_mem _ hOther, hBuilt⟩

theorem length_buildColumns (path : Path) (depth : Nat) (shares : Option (List Nat))
    (kept index : Nat) (entries : List Column) :
    (buildColumns d path depth shares kept index entries).length =
      (entries.filter Column.hasContent).length := by
  have h := @map_buildColumns d Unit (fun _ => ()) (fun _ _ => ()) path depth entries
    (fun _ _ _ _ => rfl) shares kept index
  simpa using congrArg List.length h

/-- A row with content has columns. -/
theorem buildColumns_ne_nil {entries : List Column}
    (hContent : Column.anyContent entries = true) (path : Path) (depth : Nat)
    (shares : Option (List Nat)) (kept index : Nat) :
    buildColumns d path depth shares kept index entries ≠ [] := by
  obtain ⟨column, hMem, hColumn⟩ := Column.anyContent_iff.1 hContent
  rw [← List.length_pos_iff, length_buildColumns]
  exact List.length_pos_of_mem (List.mem_filter.2 ⟨hMem, hColumn⟩)

/-! ## Views of lists -/

private theorem flatMap_filter {α β : Type} {keep : α → Bool} {f : α → List β} {xs : List α}
    (h : ∀ x ∈ xs, keep x = false → f x = []) :
    (xs.filter keep).flatMap f = xs.flatMap f := by
  induction xs with
  | nil => rfl
  | cons x rest ih =>
    have hRest := ih fun y hy => h y (List.mem_cons_of_mem x hy)
    rw [List.filter_cons, List.flatMap_cons]
    cases hKeep : keep x with
    | true => simp [hRest]
    | false => simp [hRest, h x List.mem_cons_self hKeep]

/-- What a list of nodes gives to see, node by node. -/
theorem flatMap_buildNodes {α : Type} {view : Element Path → List α} {own : Node → List α}
    {depth : Nat} {nodes : List Node}
    (hBuilt : ∀ node ∈ nodes, ∀ path e, build d path depth node = some e → view e = own node)
    (hNone : ∀ node ∈ nodes, node.hasContent = false → own node = [])
    (path : Path) (index : Nat) :
    (buildNodes d path depth index nodes).flatMap view = nodes.flatMap own := by
  rw [List.flatMap_def, map_buildNodes hBuilt path index, ← List.flatMap_def,
    flatMap_filter hNone]

/-- What a row gives to see, column by column. -/
theorem flatMap_buildColumns {α : Type} {view : Element Path → List α}
    {own : Column → List α} {path : Path} {depth : Nat} {entries : List Column}
    (hBuilt : ∀ column ∈ entries, ∀ index share,
      view (d.wrapColumn path index column.style share
        (buildNodes d (Dialect.cellPath path index) depth 0 column.children)) = own column)
    (hNone : ∀ column ∈ entries, column.hasContent = false → own column = [])
    (shares : Option (List Nat)) (kept index : Nat) :
    (buildColumns d path depth shares kept index entries).flatMap view =
      entries.flatMap own := by
  have hMap : (buildColumns d path depth shares kept index entries).map view =
      (entries.filter Column.hasContent).map own := by
    have hShares := @map_buildColumns d (List α) view (fun column _ => own column) path depth
      entries hBuilt shares kept index
    rw [hShares, ← List.zipIdx_map_fst kept (entries.filter Column.hasContent), List.map_map,
      List.zipIdx_map_fst]
    rfl
  rw [List.flatMap_def, hMap, ← List.flatMap_def, flatMap_filter hNone]

end Pagewright.Page
