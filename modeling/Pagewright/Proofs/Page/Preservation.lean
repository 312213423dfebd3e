import Pagewright.Proofs.Page.Placement

/-!
# What building keeps

The placements of a page can be read off its layout: every leaf that has content
stands in front of the backgrounds and paddings of the wrappers around it.
Building keeps this list. No leaf is lost, repeated or moved in any dialect, and
no backdrop is lost or moved either.

## Main results

* `map_shown_layoutPlacements` — the leaves that a layout places are those with content.
* `placements_build` — building places the leaves of a node as the layout says.
-/

namespace Pagewright.Page

open Layout

variable {d : Dialect}

/-! ## Placements in a layout -/

mutual

/-- The leaves of a node that have content, each with the backdrops of the
wrappers around it. In the classic dialects a section around a single row counts
as one wrapper with that row. -/
def layoutPlacements (d : Dialect) : Node → List Placement
  | .section style [.columns rowStyle entries] =>
    if d = .container then
      ((columnPlacements d entries).map (·.within (nonEmpty (wrapperSettings rowStyle)))).map
        (·.within (nonEmpty (wrapperSettings style)))
    else
      (columnPlacements d entries).map
        (·.within (nonEmpty (sharedBackdrop (wrapperSettings style) (wrapperSettings rowStyle))))
  | .section style children | .container style children =>
    (nodePlacements d children).map (·.within (nonEmpty (wrapperSettings style)))
  | .columns style entries =>
    (columnPlacements d entries).map (·.within (nonEmpty (wrapperSettings style)))
  | leaf => if leaf.hasContent then [⟨leafWidget leaf, []⟩] else []

/-- The placements in several nodes. -/
def nodePlacements (d : Dialect) : List Node → List Placement
  | [] => []
  | node :: rest => layoutPlacements d node ++ nodePlacements d rest

/-- The placements in several columns. -/
def columnPlacements (d : Dialect) : List Column → List Placement
  | [] => []
  | .mk style children :: rest =>
    (nodePlacements d children).map (·.within (nonEmpty (wrapperSettings style))) ++
      columnPlacements d rest

end

theorem nodePlacements_eq (nodes : List Node) :
    nodePlacements d nodes = nodes.flatMap (layoutPlacements d) := by
  induction nodes with
  | nil => rfl
  | cons node rest ih => rw [nodePlacements, ih, List.flatMap_cons]

theorem columnPlacements_eq (entries : List Column) :
    columnPlacements d entries = entries.flatMap fun column =>
      (column.children.flatMap (layoutPlacements d)).map
        (·.within (nonEmpty (wrapperSettings column.style))) := by
  induction entries with
  | nil => rfl
  | cons column rest ih =>
    cases column with
    | mk style children =>
      rw [columnPlacements, ih, nodePlacements_eq, List.flatMap_cons]
      rfl

theorem layoutPlacements_container (style : Option Style) (children : List Node) :
    layoutPlacements d (.container style children) =
      (children.flatMap (layoutPlacements d)).map
        (·.within (nonEmpty (wrapperSettings style))) := by
  rw [layoutPlacements, nodePlacements_eq]

theorem layoutPlacements_columns (style : Option Style) (entries : List Column) :
    layoutPlacements d (.columns style entries) =
      (columnPlacements d entries).map (·.within (nonEmpty (wrapperSettings style))) := by
  rw [layoutPlacements]

theorem layoutPlacements_section_row (hDialect : d ≠ .container) (style rowStyle : Option Style)
    (entries : List Column) :
    layoutPlacements d (.section style [.columns rowStyle entries]) =
      (columnPlacements d entries).map (·.within (nonEmpty
        (sharedBackdrop (wrapperSettings style) (wrapperSettings rowStyle)))) := by
  rw [layoutPlacements, if_neg hDialect]

theorem layoutPlacements_section_block {children : List Node}
    (hBlock : d = .container ∨ ∀ rowStyle entries, children ≠ [.columns rowStyle entries])
    (style : Option Style) :
    layoutPlacements d (.section style children) =
      layoutPlacements d (.container style children) := by
  rw [layoutPlacements_container]
  by_cases hRow : ∃ rowStyle entries, children = [.columns rowStyle entries]
  · obtain ⟨rowStyle, entries, rfl⟩ := hRow
    rcases hBlock with rfl | hBlock
    · rw [layoutPlacements, if_pos rfl, List.flatMap_singleton, layoutPlacements_columns]
    · exact absurd rfl (hBlock rowStyle entries)
  · rw [layoutPlacements, nodePlacements_eq]
    intro rowStyle entries hEq
    exact hRow ⟨rowStyle, entries, hEq⟩

theorem layoutPlacements_leaf {leaf : Node} (hLeaf : leaf.isWrapper = false) :
    layoutPlacements d leaf = if leaf.hasContent then [⟨leafWidget leaf, []⟩] else [] := by
  cases leaf with
  | «section» | container | columns => simp [Node.isWrapper] at hLeaf
  | heading | text | image | button | input | nav | unknown => rfl

/-! Backdrops aside, the placements of a layout are the leaves that it shows. -/

theorem map_shown_within (outer : List Settings) (ps : List Placement) :
    (ps.map (·.within outer)).map Placement.shown = ps.map Placement.shown := by
  rw [List.map_map]
  rfl

theorem map_shown_nodes {nodes : List Node}
    (ih : ∀ node ∈ nodes,
      (layoutPlacements d node).map Placement.shown = node.shown.map leafWidget) :
    (nodes.flatMap (layoutPlacements d)).map Placement.shown =
      (nodes.flatMap Node.shown).map leafWidget := by
  rw [List.map_flatMap, List.map_flatMap]
  exact List.flatMap_congr ih

private theorem map_shown_columns {entries : List Column}
    (ih : ∀ column ∈ entries, ∀ node ∈ column.children,
      (layoutPlacements d node).map Placement.shown = node.shown.map leafWidget) :
    (columnPlacements d entries).map Placement.shown =
      (entries.flatMap Column.shown).map leafWidget := by
  rw [columnPlacements_eq, List.map_flatMap, List.map_flatMap]
  refine List.flatMap_congr fun column hMem => ?_
  rw [map_shown_within]
  exact map_shown_nodes (ih column hMem)

/-- The leaves that a layout places are those with content. -/
theorem map_shown_layoutPlacements (node : Node) :
    (layoutPlacements d node).map Placement.shown = node.shown.map leafWidget := by
  induction node using Node.induct with
  | inSection style children ih =>
    rcases row_or_block d children with ⟨hDialect, rowStyle, entries, rfl⟩ | hBlock
    · have hInside := ih (.columns rowStyle entries) List.mem_cons_self
      rw [layoutPlacements_columns, map_shown_within] at hInside
      rw [layoutPlacements_section_row hDialect, map_shown_within, hInside,
        Node.shown_section, List.flatMap_singleton]
    · rw [layoutPlacements_section_block hBlock, layoutPlacements_container,
        map_shown_within, Node.shown_section]
      exact map_shown_nodes ih
  | inContainer style children ih =>
    rw [layoutPlacements_container, map_shown_within, Node.shown_container]
    exact map_shown_nodes ih
  | inColumns style entries ih =>
    rw [layoutPlacements_columns, map_shown_within, Node.shown_columns]
    exact map_shown_columns ih
  | atLeaf leaf hLeaf =>
    rw [layoutPlacements_leaf hLeaf, Node.shown_leaf hLeaf]
    split <;> rfl

/-- Nodes without content place nothing. -/
theorem layoutPlacements_of_not_hasContent {node : Node} (h : node.hasContent = false) :
    layoutPlacements d node = [] := by
  have hShown : node.shown = [] := by
    by_contra hShown
    rw [(Node.hasContent_iff node).2 hShown] at h
    cases h
  have hMap := map_shown_layoutPlacements (d := d) node
  rw [hShown] at hMap
  exact List.map_eq_nil_iff.1 hMap

theorem columnPlacements_of_not_hasContent {column : Column} (h : column.hasContent = false) :
    column.children.flatMap (layoutPlacements d) = [] := by
  rw [Column.hasContent_eq] at h
  exact List.flatMap_eq_nil_iff.2 fun node hMem =>
    layoutPlacements_of_not_hasContent (Node.anyContent_eq_false_iff.1 h node hMem)

/-! ## Building -/

theorem placements_wrapBlock (path : Path) (depth : Nat) (style : Option Style)
    (elements : List (Element Path)) :
    (d.wrapBlock path depth style elements).placements =
      (elements.flatMap Element.placements).map (·.within (nonEmpty (wrapperSettings style))) := by
  cases d with
  | container =>
    show (Element.ofContainer _ _ (containerSettings style false) elements).placements = _
    rw [Element.placements_wrapper (by simp [Element.ofContainer]), Element.ofContainer,
      backdrop_containerSettings]
  | classic | classicSimple =>
    show (Element.ofSection _ _ (wrapperSettings style)
      [Element.ofColumn _ [] elements]).placements = _
    rw [Element.placements_wrapper (by simp [Element.ofSection]), Element.ofSection,
      backdrop_wrapperSettings, List.flatMap_singleton,
      Element.placements_plain (by simp [Element.ofColumn]) rfl, Element.ofColumn]

theorem placements_wrapRow (path : Path) (depth : Nat) (style : Option Style)
    (elements : List (Element Path)) :
    (d.wrapRow path depth style elements).placements =
      (elements.flatMap Element.placements).map (·.within (nonEmpty (wrapperSettings style))) := by
  cases d with
  | container =>
    show (Element.ofContainer _ _ (containerSettings style true) elements).placements = _
    rw [Element.placements_wrapper (by simp [Element.ofContainer]), Element.ofContainer,
      backdrop_containerSettings]
  | classic | classicSimple =>
    show (Element.ofSection _ _ (wrapperSettings style) elements).placements = _
    rw [Element.placements_wrapper (by simp [Element.ofSection]), Element.ofSection,
      backdrop_wrapperSettings]

/-- The share of a column is not part of its backdrop. -/
theorem backdrop_wrapColumn (path : Path) (index : Nat) (style : Option Style)
    (share : Option Nat) (elements : List (Element Path)) :
    backdrop (d.wrapColumn path index style share elements).settings = wrapperSettings style := by
  cases d with
  | container =>
    cases share with
    | none => exact backdrop_containerSettings style false
    | some share =>
      exact (backdrop_insert (by decide) _ _).trans (backdrop_containerSettings style false)
  | classic | classicSimple =>
    cases share with
    | none => exact backdrop_wrapperSettings style
    | some share =>
      exact (backdrop_insert (by decide) _ _).trans (backdrop_wrapperSettings style)

theorem wrapRow_elements (path : Path) (depth : Nat) (style : Option Style)
    (elements : List (Element Path)) :
    (d.wrapRow path depth style elements).elements = elements := by
  cases d <;> rfl

theorem wrapColumn_elements (path : Path) (index : Nat) (style : Option Style)
    (share : Option Nat) (elements : List (Element Path)) :
    (d.wrapColumn path index style share elements).elements = elements := by
  cases d <;> rfl

theorem wrapColumn_kind (path : Path) (index : Nat) (style : Option Style)
    (share : Option Nat) (elements : List (Element Path)) :
    (d.wrapColumn path index style share elements).kind =
      if d = .container then .container else .column := by
  cases d <;> rfl

theorem placements_wrapColumn (path : Path) (index : Nat) (style : Option Style)
    (share : Option Nat) (elements : List (Element Path)) :
    (d.wrapColumn path index style share elements).placements =
      (elements.flatMap Element.placements).map (·.within (nonEmpty (wrapperSettings style))) := by
  have hKind : (d.wrapColumn path index style share elements).kind ≠ .widget := by
    rw [wrapColumn_kind]
    split <;> simp
  rw [Element.placements_wrapper hKind, backdrop_wrapColumn, wrapColumn_elements]

/-- A row that stands for the section around it has the backdrop of both. -/
theorem placements_inheritRow (hDialect : d ≠ .container) (path : Path) (depth : Nat)
    (style rowStyle : Option Style) (elements : List (Element Path)) :
    (Dialect.inheritRow style (d.wrapRow path depth rowStyle elements)).placements =
      (elements.flatMap Element.placements).map (·.within (nonEmpty
        (sharedBackdrop (wrapperSettings style) (wrapperSettings rowStyle)))) := by
  cases d with
  | container => exact absurd rfl hDialect
  | classic | classicSimple =>
    show (Element.ofSection _ _ (inheritSettings (wrapperSettings style)
      (wrapperSettings rowStyle)) elements).placements = _
    rw [Element.placements_wrapper (by simp [Element.ofSection]), Element.ofSection,
      backdrop_inheritSettings]

theorem flatMap_placements_buildNodes {depth : Nat} {nodes : List Node}
    (ih : ∀ node ∈ nodes, ∀ path depth e, build d path depth node = some e →
      e.placements = layoutPlacements d node) (path : Path) (index : Nat) :
    (buildNodes d path depth index nodes).flatMap Element.placements =
      nodes.flatMap (layoutPlacements d) :=
  flatMap_buildNodes (fun node hMem path e hBuilt => ih node hMem path depth e hBuilt)
    (fun _ _ hNone => layoutPlacements_of_not_hasContent hNone) path index

/-- Building places the leaves of a node as the layout says. -/
theorem placements_build (node : Node) : ∀ (path : Path) (depth : Nat) (e : Element Path),
    build d path depth node = some e → e.placements = layoutPlacements d node := by
  refine build_induct (motive := fun node e => e.placements = layoutPlacements d node)
    ?leaf ?container ?columns ?sectionBlock ?sectionRow node
  case leaf =>
    intro node path widget settings hLeaf hContent hShown
    rw [layoutPlacements_leaf hLeaf, if_pos hContent, hShown, Element.placements_eq]
    rfl
  case container =>
    intro style children path depth _ ih
    rw [placements_wrapBlock, flatMap_placements_buildNodes ih, layoutPlacements_container]
  case columns =>
    intro style entries path depth _ ih
    have hColumns := @flatMap_buildColumns d Placement Element.placements
      (fun column => (column.children.flatMap (layoutPlacements d)).map
        (·.within (nonEmpty (wrapperSettings column.style)))) path (depth + 2) entries
      (fun column hMem index share => by
        rw [placements_wrapColumn, flatMap_placements_buildNodes (ih column hMem)])
      (fun column _ hNone => by rw [columnPlacements_of_not_hasContent hNone, List.map_nil])
      (rowShares entries) 0 0
    rw [placements_wrapRow, hColumns, layoutPlacements_columns, columnPlacements_eq]
  case sectionBlock =>
    intro style children e hBlock hPlaced
    rw [layoutPlacements_section_block hBlock, hPlaced]
  case sectionRow =>
    intro style rowStyle entries path depth hDialect hPlaced
    -- Both wrap the columns of the row, so that the columns are placed as they should.
    rw [placements_wrapRow, layoutPlacements_columns] at hPlaced
    have hColumns := List.map_injective_iff.2 (within_injective _) hPlaced
    rw [placements_inheritRow hDialect, hColumns, layoutPlacements_section_row hDialect]

/-- The element of a column shows what the column shows. -/
theorem map_shown_wrapColumn (path : Path) (depth index : Nat) (column : Column)
    (share : Option Nat) :
    (d.wrapColumn path index column.style share
      (buildNodes d (Dialect.cellPath path index) depth 0 column.children)).placements.map
        Placement.shown = column.shown.map leafWidget := by
  have hNodes : ∀ node ∈ column.children, ∀ path depth e, build d path depth node = some e →
      e.placements = layoutPlacements d node := fun node _ => placements_build node
  rw [placements_wrapColumn, flatMap_placements_buildNodes hNodes, map_shown_within]
  exact map_shown_nodes fun node _ => map_shown_layoutPlacements node

end Pagewright.Page
