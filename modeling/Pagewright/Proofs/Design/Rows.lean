import Mathlib.Data.List.Basic
import Pagewright.Design.Arrangement

/-!
# Grouping into rows loses no sibling

A sibling joins a row or opens one, and rows are then sorted from top to
bottom. Read one after the other, the rows hold the siblings that were
grouped, each as often as before.

## Main results

* `openRows_perm` — the rows before they are sorted.
* `groupIntoRows_perm` — the rows from top to bottom.
-/

namespace Pagewright.Design

variable {α : Type}

/-- A loop whose step puts one more item into what it builds puts all items into it. -/
theorem foldl_perm {β : Type} (view : β → List α) {add : β → α → β}
    (hStep : ∀ built x, (view (add built x)).Perm (x :: view built)) (items : List α) :
    ∀ built, (view (items.foldl add built)).Perm (items ++ view built) := by
  induction items with
  | nil => exact fun built => List.Perm.refl _
  | cons x rest ih =>
    intro built
    rw [List.foldl_cons]
    exact (ih _).trans (((hStep built x).append_left rest).trans List.perm_middle)

/-! ## Seats in rows -/

/-- The siblings in rows, one row after the other. -/
def seated (rows : List (Row α)) : List α := rows.flatMap Row.members

/-- One more sibling is seated, all others stay. -/
theorem joinRow_perm (center reach : Float) (sibling : α) (rows : List (Row α)) :
    (seated (joinRow center reach sibling rows)).Perm (sibling :: seated rows) := by
  induction rows with
  | nil => exact List.Perm.refl _
  | cons row rest ih =>
    unfold joinRow
    split
    · show (row.members ++ [sibling] ++ seated rest).Perm
        (sibling :: (row.members ++ seated rest))
      rw [List.append_assoc]
      exact List.perm_middle
    · show (row.members ++ seated (joinRow center reach sibling rest)).Perm
        (sibling :: (row.members ++ seated rest))
      exact (ih.append_left row.members).trans List.perm_middle

theorem openRows_perm (node : α → Node) (thresholds : Thresholds) (siblings : List α) :
    (seated (openRows node thresholds siblings)).Perm siblings := by
  have hFold := foldl_perm seated (fun rows sibling =>
    joinRow_perm (node sibling).box.centerY (rowReach thresholds (node sibling).box)
      sibling rows) siblings []
  rwa [show seated ([] : List (Row α)) = [] from rfl, List.append_nil] at hFold

/-! ## Rows in order -/

theorem insertRow_perm (row : Row α) (rows : List (Row α)) :
    (insertRow row rows).Perm (row :: rows) := by
  induction rows with
  | nil => exact List.Perm.refl _
  | cons other rest ih =>
    unfold insertRow
    split
    · exact (ih.cons other).trans (List.Perm.swap row other rest)
    · exact List.Perm.refl _

theorem sortRows_perm (rows : List (Row α)) : (sortRows rows).Perm rows := by
  have hFold := foldl_perm id (fun sorted row => insertRow_perm row sorted) rows []
  rw [id, id, List.append_nil] at hFold
  exact (List.reverse_perm _).trans hFold

/-- Rows from top to bottom hold the siblings that were grouped. -/
theorem groupIntoRows_perm (node : α → Node) (thresholds : Thresholds) (siblings : List α) :
    (groupIntoRows node thresholds siblings).flatten.Perm siblings := by
  rw [groupIntoRows, ← List.flatMap_def]
  exact ((sortRows_perm _).flatMap_right Row.members).trans
    (openRows_perm node thresholds siblings)

end Pagewright.Design
