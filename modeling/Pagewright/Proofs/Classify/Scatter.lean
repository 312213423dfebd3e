import Pagewright.Proofs.Classify.Background
import Pagewright.Proofs.Design.FirstFit

/-!
# Freely placed children

Where children are placed freely, those that are content are grouped into rows,
and each row shows its members from left to right: several stand in columns, a
lone one stands for the row. The rows together show what the children are
classified as, each of them once; only a child whose looks the node takes on is
left out.

## Main results

* `visualRow?_eq_rowLayout` — a row is made from the parts that it shows.
* `flatMap_rowParts_perm` — the rows show what the children are classified as.
* `rows_of_scatter` — the rows of any siblings, and the rows of a free layout.
-/

namespace Pagewright.Classify

open Design (Thresholds Grouped groupIntoRows)

/-! ## The parts of a row -/

/-- What the members of a row show, from left to right. -/
def rowParts (row : List Member) : List Layout.Node := shown (Design.leftToRight Member.node row)

/-- The layout of a row that shows parts: that of a lone member, or columns. -/
def rowLayout (lone : Bool) (parts : List Layout.Node) : Option Layout.Node :=
  if lone then parts.head? else gather (.columns none) (parts.map fun part => .mk none [part])

theorem visualRow?_eq_rowLayout (row : List Member) :
    visualRow? row = rowLayout (row.length == 1) (rowParts row) := by
  unfold visualRow?
  split
  · rename_i single
    show single.layout = (rowParts [single]).head?
    rw [rowParts, Design.leftToRight, List.mergeSort_singleton]
    cases hLayout : single.layout <;> simp [shown, hLayout]
  · rename_i hLone
    have hSeveral : (row.length == 1) = false := by
      rw [beq_eq_false_iff_ne, ne_eq, List.length_eq_one_iff]
      rintro ⟨single, hRow⟩
      exact hLone single hRow
    rw [rowLayout, hSeveral, if_neg Bool.false_ne_true, rowParts]
    simp only [gather, List.isEmpty_map]

/-- From left to right a row shows what its members show. -/
theorem rowParts_perm (row : List Member) : (rowParts row).Perm (shown row) :=
  (leftToRight_perm row).filterMap _

/-- Rows that hold some members show what those show. -/
theorem flatMap_rowParts_perm {rows : List (List Member)} {members : List Member}
    (hRows : rows.flatten.Perm members) : (rows.flatMap rowParts).Perm (shown members) := by
  have hParts : (rows.flatMap rowParts).Perm (rows.flatMap shown) :=
    List.Perm.flatMap_left rows fun row _ => rowParts_perm row
  have hShown : rows.flatMap shown = shown rows.flatten := by
    rw [shown, List.filterMap_flatten, List.flatMap_def]
    rfl
  rw [hShown] at hParts
  exact hParts.trans (hRows.filterMap _)

/-! ## The children of a node -/

/-- What it means that the content of a node, its background left out, is shown in rows. -/
structure Scattered (thresholds : Thresholds) (node : Design.Node) (content : List Member)
    (background : Option Member) (rows : List (List Member)) : Prop where
  kept : (content ++ background.toList).Perm
    (node.children.map fun child => ⟨child, classify thresholds child⟩)
  grouped : Grouped Member.node thresholds content rows
  built : ∃ style, scatter? thresholds node (membersOf thresholds node) =
    gather (.container style)
      (rows.filterMap fun row => rowLayout (row.length == 1) (rowParts row))
  classified : (rows.flatMap rowParts ++ (background.bind Member.layout).toList).Perm
    (node.children.filterMap (classify thresholds))

/-- What a child is classified as is shown by the content or lost with the background. -/
theorem shown_content_perm {thresholds : Thresholds} {node : Design.Node}
    {content : List Member} {background : Option Member}
    (hKept : (content ++ background.toList).Perm
      (node.children.map fun child => ⟨child, classify thresholds child⟩)) :
    (shown content ++ (background.bind Member.layout).toList).Perm
      (node.children.filterMap (classify thresholds)) := by
  have hShown := hKept.filterMap Member.layout
  rw [List.filterMap_append, List.filterMap_map] at hShown
  have hLost : background.toList.filterMap Member.layout =
      (background.bind Member.layout).toList := by
    cases background with
    | none => rfl
    | some background => cases hLayout : background.layout <;> simp [hLayout]
  rwa [hLost] at hShown

/-- However siblings stand, their rows are a partition by first fit. In a free layout
the rows of the content make up the container, part by part, and every child is
classified once, for a part of one row or as the background. -/
theorem rows_of_scatter :
    (∀ {α : Type} (node : α → Design.Node) (thresholds : Thresholds) (siblings : List α),
      Grouped node thresholds siblings (groupIntoRows node thresholds siblings)) ∧
    ∀ (thresholds : Thresholds) (node : Design.Node),
      Scattered thresholds node
        (absorbBackground thresholds node (membersOf thresholds node)).1
        (absorbed? thresholds node (membersOf thresholds node))
        (groupIntoRows Member.node thresholds
          (absorbBackground thresholds node (membersOf thresholds node)).1) := by
  refine ⟨Design.grouped_groupIntoRows, fun thresholds node => ?_⟩
  have hKept := (takesBackground_absorb thresholds node).kept.trans
    (.of_eq (membersOf_eq_map thresholds node))
  have hGrouped := Design.grouped_groupIntoRows Member.node thresholds
    (absorbBackground thresholds node (membersOf thresholds node)).1
  obtain ⟨style, hBuilt⟩ := scatter?_eq thresholds node (membersOf thresholds node)
  exact
    { kept := hKept
      grouped := hGrouped
      built := ⟨style, by simp only [hBuilt, visualRow?_eq_rowLayout]⟩
      classified := ((flatMap_rowParts_perm hGrouped.partition).append_right _).trans
        (shown_content_perm hKept) }

end Pagewright.Classify
