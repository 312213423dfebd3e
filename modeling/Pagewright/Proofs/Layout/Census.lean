import Mathlib.Algebra.BigOperators.Group.List.Lemmas
import Mathlib.Algebra.GroupWithZero.Nat
import Mathlib.Data.List.Dedup
import Mathlib.Data.List.Sort
import Pagewright.Layout.Census
import Pagewright.Proofs.Layout.RoundTrip

/-!
# The figures of a layout add up

Every figure of a report is a count over the one list of what was met, so it is
a sum over the parts of a layout, and the order of the parts does not matter.
The table of kinds is in ascending order, so that equal counts make equal
tables. The list has one entry for each node, for each column of a row and for
each link of a bar; in a layout that was read, no unknown node passes for an
image.

## Main results

* `distinctNames_congr`, `tally_perm` — the table depends on the counts alone.
* `length_sightings` — how much is met on the walk.
* `isSum_of_children` — the report of a wrapper is the sum of its children's.
* `Reordered.sightings_perm` — siblings, columns and links in another order.
* `report_adds_up` — the figures of a layout that was read.
-/

namespace Pagewright.Layout

/-! ## The table of kinds -/

theorem pairwise_insertName (name : String) {names : List String}
    (hAscending : names.Pairwise (· < ·)) : (insertName name names).Pairwise (· < ·) := by
  induction names with
  | nil => exact List.pairwise_singleton _ _
  | cons other rest ih =>
    obtain ⟨hFirst, hRest⟩ := List.pairwise_cons.1 hAscending
    unfold insertName
    split
    · exact hAscending
    · rename_i hNe
      split
      · rename_i hBefore
        refine List.pairwise_cons.2 ⟨List.forall_mem_cons.2 ⟨hBefore, ?_⟩, hAscending⟩
        exact fun later hMem => String.lt_trans hBefore (hFirst later hMem)
      · rename_i hNotBefore
        have hAfter : other < name := String.not_le.1 fun hLe =>
          hNe (String.le_antisymm (String.not_lt.1 hNotBefore) hLe)
        refine List.pairwise_cons.2 ⟨fun later hMem => ?_, ih hRest⟩
        rcases mem_insertName.1 hMem with rfl | hMem
        · exact hAfter
        · exact hFirst later hMem

theorem pairwise_distinctNames (names : List String) :
    (distinctNames names).Pairwise (· < ·) := by
  induction names with
  | nil => exact List.Pairwise.nil
  | cons name rest ih => exact pairwise_insertName name ih

/-- Lists of the same names have the same different names. -/
theorem distinctNames_congr {names others : List String}
    (hSame : ∀ name, name ∈ names ↔ name ∈ others) :
    distinctNames names = distinctNames others := by
  refine (pairwise_distinctNames names).eq_of_mem_iff (pairwise_distinctNames others) ?_
  intro name
  rw [mem_distinctNames, mem_distinctNames, hSame]

theorem tally_perm {kinds others : List String} (hOrder : kinds.Perm others) :
    tally kinds = tally others := by
  rw [tally, tally, distinctNames_congr fun _ => hOrder.mem_iff]
  exact List.map_congr_left fun kind _ => by rw [hOrder.count_eq]

theorem map_fst_tally (kinds : List String) : (tally kinds).map Prod.fst = distinctNames kinds := by
  rw [tally, List.map_map]
  exact List.map_id _

/-- A kind is in the table only if it was met. -/
theorem pos_of_mem_tally {kinds : List String} {entry : String × Nat}
    (hMem : entry ∈ tally kinds) : 0 < entry.2 := by
  obtain ⟨hKind, hCount⟩ := mem_tally.1 hMem
  rw [hCount]
  exact List.count_pos_iff.2 hKind

/-- The counts of a table make up all that was counted. -/
theorem sum_tally (kinds : List String) : ((tally kinds).map Prod.snd).sum = kinds.length := by
  have hOrder : (distinctNames kinds).Perm kinds.dedup := by
    refine (List.perm_ext_iff_of_nodup (pairwise_distinctNames kinds).nodup
      (List.nodup_dedup kinds)).2 fun kind => ?_
    rw [mem_distinctNames, List.mem_dedup]
  rw [tally, List.map_map, ← List.sum_map_count_dedup_eq_length]
  exact (hOrder.map _).sum_eq

theorem lookup_tally (kind : String) (kinds : List String) :
    ((tally kinds).lookup kind).getD 0 = kinds.count kind := by
  have hLookup : ∀ names : List String,
      (names.map fun name => (name, kinds.count name)).lookup kind =
        if kind ∈ names then some (kinds.count kind) else none := by
    intro names
    induction names with
    | nil => rfl
    | cons name rest ih =>
      rw [List.map_cons, List.lookup_cons, ih]
      by_cases hSame : kind = name
      · simp [hSame]
      · simp [hSame, beq_false_of_ne hSame]
  rw [tally, hLookup]
  by_cases hMem : kind ∈ kinds
  · rw [if_pos (mem_distinctNames.2 hMem)]
    rfl
  · rw [if_neg fun h => hMem (mem_distinctNames.1 h), List.count_eq_zero.2 hMem]
    rfl

/-! ## Figures -/

/-- How often a kind occurs. -/
def Report.count (r : Report) (kind : String) : Nat := (r.kinds.lookup kind).getD 0

/-- Each style figure, and what it counts. -/
def StyleCounts.figures : List ((StyleCounts → Nat) × (Style → Bool)) :=
  [(backgroundColor, (·.backgroundColor.isSome)), (border, (·.border.isSome)),
    (borderRadius, (·.borderRadius.isSome)), (boxShadow, (·.boxShadow.isSome)),
    (typography, Style.hasTypography), (gap, (·.gap.isSome)), (padding, (·.padding.isSome)),
    (widthPercent, (·.widthPercent.isSome)), (flexGrow, (·.flexGrow.isSome))]

theorem StyleCounts.figure_of {figure : (StyleCounts → Nat) × (Style → Bool)}
    (hFigure : figure ∈ figures) (found : List Sighting) :
    figure.1 (StyleCounts.of found) = countStyled figure.2 found := by
  simp only [figures, List.mem_cons, List.not_mem_nil, or_false] at hFigure
  rcases hFigure with rfl | rfl | rfl | rfl | rfl | rfl | rfl | rfl | rfl <;> rfl

theorem Report.totalNodes_of (found : List Sighting) :
    (Report.of found).totalNodes = found.countP fun _ => true :=
  (congrFun List.countP_true found).symm

theorem Report.count_of (found : List Sighting) (kind : String) :
    (Report.of found).count kind = found.countP fun sighting => sighting.kind == kind := by
  refine (lookup_tally kind _).trans ?_
  rw [List.count, List.countP_map]
  rfl

/-- The order of what was met does not matter. -/
theorem Report.of_perm {found others : List Sighting} (hOrder : found.Perm others) :
    Report.of found = Report.of others := by
  have hStyles : StyleCounts.of found = StyleCounts.of others := by
    simp only [StyleCounts.of, countStyled, hOrder.countP_eq]
  simp only [Report.of, hStyles, hOrder.length_eq, tally_perm (hOrder.map _), hOrder.countP_eq]

/-! ## Sums -/

/-- A report is the sum of others and of one node with its own style. -/
structure Report.IsSum (total : Report) (kind : String) (style : Option Style)
    (parts : List Report) : Prop where
  totalNodes : total.totalNodes = 1 + (parts.map Report.totalNodes).sum
  kinds : ∀ name, total.count name =
    (if kind = name then 1 else 0) + (parts.map fun part => part.count name).sum
  styles : ∀ figure ∈ StyleCounts.figures, figure.1 total.styles =
    (if style.any figure.2 then 1 else 0) + (parts.map fun part => figure.1 part.styles).sum
  images : total.images = (parts.map Report.images).sum
  placeholders : total.placeholders = (parts.map Report.placeholders).sum

/-- What counts something of all that is met is a sum over the children of a wrapper. -/
theorem figure_of_children (figure : Report → Nat) {counts : Sighting → Bool}
    (hFigure : ∀ found, figure (Report.of found) = found.countP counts) (own : Sighting)
    (children : List Node) :
    figure (Report.of (own :: children.flatMap Node.sightings)) =
      (if counts own then 1 else 0) +
        ((children.map fun child => report (some child)).map figure).sum := by
  rw [hFigure, List.countP_cons, List.countP_flatMap, List.map_map, Nat.add_comm]
  congr 2
  exact List.map_congr_left fun child _ => (hFigure child.sightings).symm

theorem isSum_of_children (kind : String) (style : Option Style) (children : List Node) :
    (Report.of (⟨kind, style, none⟩ :: children.flatMap Node.sightings)).IsSum kind style
      (children.map fun child => report (some child)) where
  totalNodes := figure_of_children Report.totalNodes Report.totalNodes_of _ children
  kinds name := by
    refine (figure_of_children (·.count name) (Report.count_of · name) _ children).trans ?_
    simp only [beq_iff_eq]
  styles figure hFigure :=
    figure_of_children (fun part => figure.1 part.styles) (StyleCounts.figure_of hFigure) _
      children
  images := (figure_of_children Report.images (fun _ => rfl) _ children).trans (Nat.zero_add _)
  placeholders :=
    (figure_of_children Report.placeholders (fun _ => rfl) _ children).trans (Nat.zero_add _)

/-! ## What is met -/

/-- The links of a bar. -/
def Node.ownItems : Node → List NavItem
  | .nav _ items => items
  | _ => []

/-- The nodes of a layout, the columns of its rows and the links of its bars, all counted. -/
def Node.extent (layout : Node) : Nat :=
  layout.preorder.length + (layout.rows.map List.length).sum +
    (layout.preorder.flatMap Node.ownItems).length

private theorem length_flatMap_sightings {nodes : List Node}
    (ih : ∀ node ∈ nodes, node.sightings.length = node.extent) :
    (nodes.flatMap Node.sightings).length =
      (nodes.flatMap Node.preorder).length + ((nodes.flatMap Node.rows).map List.length).sum +
        ((nodes.flatMap Node.preorder).flatMap Node.ownItems).length := by
  induction nodes with
  | nil => rfl
  | cons node rest ihRest =>
    obtain ⟨hNode, hRest⟩ := List.forall_mem_cons.1 ih
    simp only [List.flatMap_cons, List.length_append, List.map_append, List.sum_append,
      List.flatMap_append, hNode, ihRest hRest, Node.extent]
    omega

private theorem length_columnSightings (entries : List Column) :
    (entries.flatMap Column.sightings).length =
      entries.length + ((entries.flatMap Column.children).flatMap Node.sightings).length := by
  induction entries with
  | nil => rfl
  | cons column rest ih =>
    obtain ⟨style, children⟩ := column
    simp only [List.flatMap_cons, List.length_append, List.flatMap_append, ih, Column.sightings,
      Node.allSightings_eq, Column.children, List.length_cons]
    omega

/-- The walk meets every node, every column of a row and every link of a bar once. -/
theorem length_sightings (layout : Node) : layout.sightings.length = layout.extent := by
  induction layout using Node.induct with
  | inSection style children ih =>
    have hChildren := length_flatMap_sightings ih
    rw [sightings_section, Node.extent, Node.preorder, Node.preorderAll_eq, Node.rows_section]
    simp only [List.length_cons, List.flatMap_cons, Node.ownItems, List.nil_append]
    omega
  | inContainer style children ih =>
    have hChildren := length_flatMap_sightings ih
    rw [sightings_container, Node.extent, Node.preorder, Node.preorderAll_eq,
      Node.rows_container]
    simp only [List.length_cons, List.flatMap_cons, Node.ownItems, List.nil_append]
    omega
  | inColumns style entries ih =>
    have hInside : ∀ node ∈ entries.flatMap Column.children,
        node.sightings.length = node.extent := by
      intro node hMem
      obtain ⟨column, hColumn, hNode⟩ := List.mem_flatMap.1 hMem
      exact ih column hColumn node hNode
    have hNodes := length_flatMap_sightings hInside
    have hColumns := length_columnSightings entries
    rw [Node.sightings, Column.allSightings_eq, Node.extent, Node.preorder,
      Column.preorderAll_eq, Node.rows_columns, ← List.flatMap_assoc, ← List.flatMap_assoc]
    simp only [List.length_cons, List.flatMap_cons, Node.ownItems, List.nil_append, List.map_cons,
      List.sum_cons]
    omega
  | atLeaf leaf hLeaf =>
    rw [Node.extent, Node.preorder_leaf hLeaf, Node.rows_leaf hLeaf]
    cases leaf with
    | «section» | container | columns => cases hLeaf
    | nav style items => simp [Node.sightings, Node.ownItems, Nat.add_comm]
    | heading | text | image | button | input | unknown => rfl

/-- The source of an image. -/
def Node.imageSource : Node → Option String
  | .image src _ _ => some src
  | _ => none

/-- What a node is met as. -/
def Node.sighting (node : Node) : Sighting := ⟨node.kind, node.style, node.imageSource⟩

/-- What is met is a node, a column or a link. -/
theorem mem_sightings {layout : Node} {sighting : Sighting} :
    sighting ∈ layout.sightings →
      (∃ node ∈ layout.preorder, sighting = node.sighting) ∨
        ∃ kind ∈ ["container", "navItem"], ∃ style, sighting = ⟨kind, style, none⟩ := by
  induction layout using Node.induct with
  | inSection style children ih =>
    intro hMem
    rw [sightings_section, List.mem_cons, List.mem_flatMap] at hMem
    obtain rfl | ⟨child, hChild, hInside⟩ := hMem
    · exact .inl ⟨_, Node.mem_preorder_self _, rfl⟩
    · refine (ih child hChild hInside).imp_left ?_
      rintro ⟨node, hNode, hSame⟩
      exact ⟨node, Node.mem_preorder_section.2 (.inr ⟨child, hChild, hNode⟩), hSame⟩
  | inContainer style children ih =>
    intro hMem
    rw [sightings_container, List.mem_cons, List.mem_flatMap] at hMem
    obtain rfl | ⟨child, hChild, hInside⟩ := hMem
    · exact .inl ⟨_, Node.mem_preorder_self _, rfl⟩
    · refine (ih child hChild hInside).imp_left ?_
      rintro ⟨node, hNode, hSame⟩
      exact ⟨node, Node.mem_preorder_container.2 (.inr ⟨child, hChild, hNode⟩), hSame⟩
  | inColumns style entries ih =>
    intro hMem
    rw [Node.sightings, Column.allSightings_eq, List.mem_cons, List.mem_flatMap] at hMem
    obtain rfl | ⟨⟨own, children⟩, hColumn, hMem⟩ := hMem
    · exact .inl ⟨_, Node.mem_preorder_self _, rfl⟩
    · rw [Column.sightings, Node.allSightings_eq, List.mem_cons, List.mem_flatMap] at hMem
      obtain rfl | ⟨child, hChild, hInside⟩ := hMem
      · exact .inr ⟨"container", List.mem_cons_self, own, rfl⟩
      · refine (ih _ hColumn child hChild hInside).imp_left ?_
        rintro ⟨node, hNode, hSame⟩
        exact ⟨node, Node.mem_preorder_columns.2 (.inr ⟨_, hColumn, child, hChild, hNode⟩), hSame⟩
  | atLeaf leaf hLeaf =>
    intro hMem
    rw [Node.preorder_leaf hLeaf]
    cases leaf with
    | «section» | container | columns => cases hLeaf
    | nav style items =>
      rw [Node.sightings, List.mem_cons, List.mem_map] at hMem
      obtain rfl | ⟨item, -, rfl⟩ := hMem
      · exact .inl ⟨_, List.mem_singleton_self _, rfl⟩
      · exact .inr ⟨"navItem", List.mem_cons_of_mem _ List.mem_cons_self, item.style, rfl⟩
    | heading | text | image | button | input | unknown =>
      exact .inl ⟨_, List.mem_singleton_self _, List.mem_singleton.1 hMem⟩

/-- Where unknown nodes are of unknown kinds, what is met as an image has a source, and nothing
else has one. -/
theorem isSome_imageSource_iff {layout : Node} (hGenuine : layout.Genuine) {sighting : Sighting}
    (hMem : sighting ∈ layout.sightings) :
    sighting.imageSource.isSome = true ↔ sighting.kind = "image" := by
  obtain ⟨node, hNode, rfl⟩ | ⟨kind, hKind, style, rfl⟩ := mem_sightings hMem
  · cases node with
    | image => exact iff_of_true rfl rfl
    | unknown fields style =>
      have hKnown : "image" ∈ Node.knownKinds := by decide
      refine iff_of_false Bool.false_ne_true fun hImage => hGenuine fields style hNode ?_
      have hKind : Node.declaredKind fields = "image" := hImage
      rwa [hKind]
    | _ => exact iff_of_false Bool.false_ne_true (by simp [Node.sighting, Node.kind])
  · refine iff_of_false Bool.false_ne_true fun hImage => ?_
    subst hImage
    exact absurd hKind (by decide)

/-! ## Other orders -/

/-- A layout with siblings, columns or links in another order, at any depth and any number of
times. -/
inductive Reordered : Node → Node → Prop where
  | refl (layout : Node) : Reordered layout layout
  | trans {first second third : Node} (hFirst : Reordered first second)
      (hSecond : Reordered second third) : Reordered first third
  | children {style : Option Style} {nodes others : List Node} (hOrder : nodes.Perm others) :
      Reordered (.section style nodes) (.section style others)
  | containerChildren {style : Option Style} {nodes others : List Node}
      (hOrder : nodes.Perm others) : Reordered (.container style nodes) (.container style others)
  | columns {style : Option Style} {entries others : List Column} (hOrder : entries.Perm others) :
      Reordered (.columns style entries) (.columns style others)
  | columnChildren {style own : Option Style} {before after : List Column}
      {nodes others : List Node} (hOrder : nodes.Perm others) :
      Reordered (.columns style (before ++ .mk own nodes :: after))
        (.columns style (before ++ .mk own others :: after))
  | items {style : Option Style} {links others : List NavItem} (hOrder : links.Perm others) :
      Reordered (.nav style links) (.nav style others)
  | inSection {style : Option Style} {before after : List Node} {child other : Node}
      (hChild : Reordered child other) :
      Reordered (.section style (before ++ child :: after))
        (.section style (before ++ other :: after))
  | inContainer {style : Option Style} {before after : List Node} {child other : Node}
      (hChild : Reordered child other) :
      Reordered (.container style (before ++ child :: after))
        (.container style (before ++ other :: after))
  | inColumn {style own : Option Style} {left right : List Column} {before after : List Node}
      {child other : Node} (hChild : Reordered child other) :
      Reordered (.columns style (left ++ .mk own (before ++ child :: after) :: right))
        (.columns style (left ++ .mk own (before ++ other :: after) :: right))

/-- The same is met, in another order. -/
theorem Reordered.sightings_perm {layout other : Node} (hReordered : Reordered layout other) :
    layout.sightings.Perm other.sightings := by
  -- One thing among others of which each gives a list.
  have hAmong {α : Type} (views : α → List Sighting) (before after : List α) {x y : α}
      (hPerm : (views x).Perm (views y)) :
      ((before ++ x :: after).flatMap views).Perm ((before ++ y :: after).flatMap views) := by
    rw [List.flatMap_append, List.flatMap_append, List.flatMap_cons, List.flatMap_cons]
    exact (hPerm.append_right _).append_left _
  have hColumn (left right : List Column) (own : Option Style) {nodes others : List Node}
      (hNodes : (nodes.flatMap Node.sightings).Perm (others.flatMap Node.sightings))
      (style : Option Style) :
      (Node.columns style (left ++ .mk own nodes :: right)).sightings.Perm
        (Node.columns style (left ++ .mk own others :: right)).sightings := by
    rw [Node.sightings, Node.sightings, Column.allSightings_eq, Column.allSightings_eq]
    refine (hAmong Column.sightings left right ?_).cons _
    rw [Column.sightings, Column.sightings, Node.allSightings_eq, Node.allSightings_eq]
    exact hNodes.cons _
  induction hReordered with
  | refl => exact .refl _
  | trans _ _ ihFirst ihSecond => exact ihFirst.trans ihSecond
  | children hOrder =>
    rw [sightings_section, sightings_section]
    exact (hOrder.flatMap_right _).cons _
  | containerChildren hOrder =>
    rw [sightings_container, sightings_container]
    exact (hOrder.flatMap_right _).cons _
  | columns hOrder =>
    rw [Node.sightings, Node.sightings, Column.allSightings_eq, Column.allSightings_eq]
    exact (hOrder.flatMap_right _).cons _
  | columnChildren hOrder => exact hColumn _ _ _ (hOrder.flatMap_right _) _
  | items hOrder => exact (hOrder.map _).cons _
  | inSection _ ih =>
    rw [sightings_section, sightings_section]
    exact (hAmong Node.sightings _ _ ih).cons _
  | inContainer _ ih =>
    rw [sightings_container, sightings_container]
    exact (hAmong Node.sightings _ _ ih).cons _
  | inColumn _ ih => exact hColumn _ _ _ (hAmong Node.sightings _ _ ih) _

/-! ## Warnings -/

/-- Whether the figures of a layout call for a warning. -/
def Warning.IsDue (styles : StyleCounts) (placeholders : Nat) : Warning → Prop
  | .noLayout => False
  | .noBackground => styles.backgroundColor = 0
  | .noTypography => styles.typography = 0
  | .placeholders => 0 < placeholders

theorem mem_warningsOf {styles : StyleCounts} {placeholders : Nat} {warning : Warning} :
    warning ∈ warningsOf styles placeholders ↔ warning.IsDue styles placeholders := by
  cases warning <;> simp [warningsOf, Warning.IsDue]

/-! ## Layouts that were read -/

/-- The figures of a report on a layout fit together, and with those of other layouts. -/
structure Report.AddsUp (r : Report) (layout : Node) : Prop where
  table : (r.kinds.map Prod.fst).Pairwise (· < ·) ∧ ∀ entry ∈ r.kinds, 0 < entry.2
  kinds : (r.kinds.map Prod.snd).sum = r.totalNodes
  extent : r.totalNodes =
    layout.preorder.length + (layout.rows.map List.length).sum +
      (layout.preorder.flatMap Node.ownItems).length
  images : r.images = r.count "image"
  placeholders : r.placeholders ≤ r.images
  styles : ∀ figure ∈ StyleCounts.figures, figure.1 r.styles ≤ r.totalNodes
  sum : ∀ style children,
    layout = .section style children ∨ layout = .container style children →
      r.IsSum layout.kind style (children.map fun child => report (some child))
  reordered : ∀ other, Reordered layout other → report (some other) = r
  warnings : ∀ warning, warning ∈ r.warnings ↔ warning.IsDue r.styles r.placeholders

/-- The report on a layout that was read: the table has each kind that was met once, and its counts
make up the number of nodes, which is that of all nodes, columns and links; images are what is
counted as one; no figure exceeds the number of nodes; the report of a wrapper is the sum of its
children's; the order of siblings, columns and links does not matter; and each warning is there
exactly for its figure. -/
theorem report_adds_up {value : Json} {layout : Node} (hRead : readNode value = .ok layout) :
    (report (some layout)).AddsUp layout where
  table := by
    refine ⟨?_, fun _ => pos_of_mem_tally⟩
    rw [report, Report.of, map_fst_tally]
    exact pairwise_distinctNames _
  kinds := by
    refine (sum_tally _).trans ?_
    rw [List.length_map]
    rfl
  extent := length_sightings layout
  images := by
    rw [report, Report.count_of]
    refine List.countP_congr fun sighting hMem => ?_
    rw [isSome_imageSource_iff (sourced_of_readNode hRead).genuine hMem, beq_iff_eq]
  placeholders := by
    refine List.countP_mono_left fun sighting _ hStandIn => ?_
    rw [Sighting.isPlaceholder, Option.any_eq_true] at hStandIn
    obtain ⟨src, hSource, -⟩ := hStandIn
    rw [hSource]
    rfl
  styles figure hFigure := by
    rw [report, Report.totalNodes_of]
    refine (StyleCounts.figure_of hFigure _).trans_le ?_
    exact List.countP_mono_left fun _ _ _ => rfl
  sum style children hLayout := by
    obtain rfl | rfl := hLayout
    · rw [report, sightings_section]
      exact isSum_of_children "section" style children
    · rw [report, sightings_container]
      exact isSum_of_children "container" style children
  reordered other hReordered := Report.of_perm hReordered.sightings_perm.symm
  warnings _ := mem_warningsOf

/-- A row of one stand-in image, a bar of one link, and an unknown node that calls itself one. -/
def sampler : Node :=
  .section none
    [.columns none [.mk none [.image "https://placehold.co/8x8" "" none]],
      .nav none [⟨"Home", "#", none⟩], .unknown [("type", .str "navItem")] none]

theorem report_adds_up_sampler :
    readNode (.obj [("children", .arr
        [.obj [("columns", .arr [.obj [("children", .arr
            [.obj [("src", .str "https://placehold.co/8x8"), ("type", .str "image")]])]]),
          ("type", .str "columns")],
        .obj [("items", .arr [.obj [("label", .str "Home")]]), ("type", .str "nav")],
        .obj [("type", .str "navItem")]]), ("type", .str "section")]) = .ok sampler ∧
      (report (some sampler)).AddsUp sampler := by
  have hRead : readNode (.obj [("children", .arr
      [.obj [("columns", .arr [.obj [("children", .arr
          [.obj [("src", .str "https://placehold.co/8x8"), ("type", .str "image")]])]]),
        ("type", .str "columns")],
      .obj [("items", .arr [.obj [("label", .str "Home")]]), ("type", .str "nav")],
      .obj [("type", .str "navItem")]]), ("type", .str "section")]) = .ok sampler := by rfl
  exact ⟨hRead, report_adds_up hRead⟩

end Pagewright.Layout
