import Mathlib.Data.List.Induction
import Pagewright.Proofs.Design.Rows
import Pagewright.Proofs.Number.Order

/-!
# Rows by first fit

Siblings are put into rows one after the other. Each goes into the first row,
in the order in which rows were opened, whose center lies within reach at that
moment, and opens a row of its own when there is none; the center of a row then
moves halfway to its new member. `FirstFit` says this on lists of members alone,
so that a center is a function of who has joined a row so far. Rows are sorted
from top to bottom by their last centers.

## Main results

* `joinRow_cases` — the two ways in which a sibling finds its row.
* `firstFit_openRows` — the rows before they are sorted.
* `sortRows_pairwise` — the order of rows whose centers are defined.
* `grouped_groupIntoRows` — all that is known of the rows of siblings.
-/

namespace Pagewright.Design

variable {α : Type} {node : α → Node} {thresholds : Thresholds}

/-! ## Centers -/

/-- The center of a row: that of its first member, moved halfway to each later one. -/
def runningCenter (node : α → Node) : List α → Float
  | [] => 0.0
  | first :: later =>
    later.foldl (fun center x => (center + (node x).box.centerY) / 2.0) (node first).box.centerY

theorem runningCenter_concat {members : List α} (hMembers : members ≠ []) (x : α) :
    runningCenter node (members ++ [x]) =
      (runningCenter node members + (node x).box.centerY) / 2.0 := by
  cases members with
  | nil => exact absurd rfl hMembers
  | cons first later =>
    show (later ++ [x]).foldl _ _ = _
    rw [List.foldl_append]
    rfl

/-- Whether a row may take a sibling that arrives now. -/
def WithinReach (node : α → Node) (thresholds : Thresholds) (row : List α) (x : α) : Prop :=
  (runningCenter node row - (node x).box.centerY).abs ≤ rowReach thresholds (node x).box

/-! ## One sibling after the other -/

/-- The rows that siblings open and join, in the order in which they are opened. -/
inductive FirstFit (node : α → Node) (thresholds : Thresholds) : List α → List (List α) → Prop
  | empty : FirstFit node thresholds [] []
  | joined {siblings : List α} {passed rest : List (List α)} {row : List α} {x : α}
      (hBefore : FirstFit node thresholds siblings (passed ++ row :: rest))
      (hPassed : ∀ other ∈ passed, ¬ WithinReach node thresholds other x)
      (hReach : WithinReach node thresholds row x) :
      FirstFit node thresholds (siblings ++ [x]) (passed ++ (row ++ [x]) :: rest)
  | opened {siblings : List α} {rows : List (List α)} {x : α}
      (hBefore : FirstFit node thresholds siblings rows)
      (hPassed : ∀ other ∈ rows, ¬ WithinReach node thresholds other x) :
      FirstFit node thresholds (siblings ++ [x]) (rows ++ [[x]])

namespace FirstFit

variable {siblings : List α} {rows : List (List α)}

/-- A row is opened with a member and never loses one. -/
theorem ne_nil (hFit : FirstFit node thresholds siblings rows) : ∀ row ∈ rows, row ≠ [] := by
  induction hFit with
  | empty => simp
  | joined _ _ _ ih =>
    simp only [List.forall_mem_append, List.forall_mem_cons] at ih ⊢
    exact ⟨ih.1, by simp, ih.2.2⟩
  | opened _ _ ih =>
    simp only [List.forall_mem_append, List.forall_mem_singleton]
    exact ⟨ih, by simp⟩

/-- The members of a row stand in it as they arrived. -/
theorem sublist (hFit : FirstFit node thresholds siblings rows) :
    ∀ row ∈ rows, row.Sublist siblings := by
  induction hFit with
  | empty => simp
  | @joined siblings _ _ _ x _ _ _ ih =>
    have hLater {row : List α} (hRow : row.Sublist siblings) : row.Sublist (siblings ++ [x]) :=
      hRow.trans (List.sublist_append_left _ _)
    simp only [List.forall_mem_append, List.forall_mem_cons] at ih ⊢
    refine ⟨fun row hRow => hLater (ih.1 row hRow), ?_, fun row hRow => hLater (ih.2.2 row hRow)⟩
    exact ih.2.1.append (List.Sublist.refl _)
  | opened _ _ ih =>
    simp only [List.forall_mem_append, List.forall_mem_singleton]
    refine ⟨fun row hRow => (ih row hRow).trans (List.sublist_append_left _ _), ?_⟩
    exact List.sublist_append_right _ _

end FirstFit

/-! ## Rows while they are filled -/

/-- A sibling joins the first row within reach, or all are out of reach and it opens one. -/
theorem joinRow_cases (center reach : Float) (x : α) (rows : List (Row α)) :
    (∃ passed row rest, rows = passed ++ row :: rest ∧
        (∀ other ∈ passed, ¬ (other.center - center).abs ≤ reach) ∧
        (row.center - center).abs ≤ reach ∧
        joinRow center reach x rows =
          passed ++ ⟨(row.center + center) / 2.0, row.members ++ [x]⟩ :: rest) ∨
      (∀ other ∈ rows, ¬ (other.center - center).abs ≤ reach) ∧
        joinRow center reach x rows = rows ++ [⟨center, [x]⟩] := by
  induction rows with
  | nil => exact .inr ⟨by simp, rfl⟩
  | cons row rest ih =>
    by_cases hReach : (row.center - center).abs ≤ reach
    · refine .inl ⟨[], row, rest, rfl, by simp, hReach, ?_⟩
      rw [joinRow, if_pos hReach]
      rfl
    · have hStep : joinRow center reach x (row :: rest) = row :: joinRow center reach x rest := by
        rw [joinRow, if_neg hReach]
      rw [hStep]
      rcases ih with ⟨passed, found, later, rfl, hPassed, hFound, hJoin⟩ | ⟨hPassed, hJoin⟩
      · refine .inl ⟨row :: passed, found, later, rfl, ?_, hFound, by rw [hJoin]; rfl⟩
        exact List.forall_mem_cons.2 ⟨hReach, hPassed⟩
      · refine .inr ⟨List.forall_mem_cons.2 ⟨hReach, hPassed⟩, ?_⟩
        rw [hJoin]
        rfl

/-- What holds of a row at any time: it has members, and its center is theirs. -/
structure Row.Centered (node : α → Node) (row : Row α) : Prop where
  members_ne_nil : row.members ≠ []
  center_eq : row.center = runningCenter node row.members

theorem Row.Centered.withinReach_iff {row : Row α} (hRow : row.Centered node) (x : α) :
    WithinReach node thresholds row.members x ↔
      (row.center - (node x).box.centerY).abs ≤ rowReach thresholds (node x).box := by
  rw [WithinReach, hRow.center_eq]

/-- The centers of rows stay right when a sibling is put into them. -/
theorem centered_joinRow {reach : Float} {x : α} {rows : List (Row α)}
    (hRows : ∀ row ∈ rows, row.Centered node) :
    ∀ row ∈ joinRow (node x).box.centerY reach x rows, row.Centered node := by
  rcases joinRow_cases (node x).box.centerY reach x rows with
    ⟨passed, row, rest, rfl, -, -, hJoin⟩ | ⟨-, hJoin⟩
  · rw [hJoin]
    simp only [List.forall_mem_append, List.forall_mem_cons] at hRows ⊢
    obtain ⟨hPassed, hRow, hRest⟩ := hRows
    refine ⟨hPassed, ⟨by simp, ?_⟩, hRest⟩
    rw [runningCenter_concat hRow.members_ne_nil, hRow.center_eq]
  · rw [hJoin]
    simp only [List.forall_mem_append, List.forall_mem_singleton]
    exact ⟨hRows, ⟨by simp, rfl⟩⟩

theorem openRows_concat (siblings : List α) (x : α) :
    openRows node thresholds (siblings ++ [x]) =
      joinRow (node x).box.centerY (rowReach thresholds (node x).box) x
        (openRows node thresholds siblings) := by
  rw [openRows, List.foldl_append]
  rfl

theorem centered_openRows (node : α → Node) (thresholds : Thresholds) (siblings : List α) :
    ∀ row ∈ openRows node thresholds siblings, row.Centered node := by
  induction siblings using List.reverseRecOn with
  | nil => exact fun row hRow => absurd hRow List.not_mem_nil
  | append_singleton siblings x ih =>
    rw [openRows_concat]
    exact centered_joinRow ih

/-- The rows that are open after all siblings have come are those of first fit. -/
theorem firstFit_openRows (node : α → Node) (thresholds : Thresholds) (siblings : List α) :
    FirstFit node thresholds siblings ((openRows node thresholds siblings).map Row.members) := by
  induction siblings using List.reverseRecOn with
  | nil => exact .empty
  | append_singleton siblings x ih =>
    have hCentered := centered_openRows node thresholds siblings
    have hOut {others : List (Row α)} (hOthers : ∀ other ∈ others, other.Centered node)
        (hPassed : ∀ other ∈ others, ¬ (other.center - (node x).box.centerY).abs ≤
          rowReach thresholds (node x).box) :
        ∀ members ∈ others.map Row.members, ¬ WithinReach node thresholds members x := by
      intro members hMembers
      obtain ⟨other, hOther, rfl⟩ := List.mem_map.1 hMembers
      rw [(hOthers other hOther).withinReach_iff]
      exact hPassed other hOther
    rw [openRows_concat]
    rcases joinRow_cases (node x).box.centerY (rowReach thresholds (node x).box) x
      (openRows node thresholds siblings) with
      ⟨passed, row, rest, hRows, hPassed, hReach, hJoin⟩ | ⟨hPassed, hJoin⟩
    · rw [hRows] at ih hCentered
      simp only [List.forall_mem_append, List.forall_mem_cons] at hCentered
      rw [List.map_append, List.map_cons] at ih
      rw [hJoin, List.map_append, List.map_cons]
      refine .joined ih (hOut hCentered.1 hPassed) ?_
      rwa [hCentered.2.1.withinReach_iff]
    · rw [hJoin, List.map_append]
      exact .opened ih (hOut hCentered hPassed)

/-! ## Rows from top to bottom -/

/-- A row is put in its place among rows from the bottom up. -/
theorem insertRow_pairwise {row : Row α} {rows : List (Row α)}
    (hDefined : ∀ other ∈ rows, other.center.isNaN = false)
    (hRows : rows.Pairwise fun below above => ¬ below.center < above.center) :
    (insertRow row rows).Pairwise fun below above => ¬ below.center < above.center := by
  induction rows with
  | nil => exact List.pairwise_singleton _ _
  | cons other rest ih =>
    obtain ⟨hOther, hRest⟩ := List.pairwise_cons.1 hRows
    obtain ⟨hOtherDefined, hRestDefined⟩ := List.forall_mem_cons.1 hDefined
    unfold insertRow
    split
    · rename_i hAbove
      refine List.pairwise_cons.2 ⟨fun above hMem => ?_, ih hRestDefined hRest⟩
      rcases List.mem_cons.1 ((insertRow_perm row rest).mem_iff.1 hMem) with rfl | hMem
      · exact Number.lt_asymm hAbove
      · exact hOther above hMem
    · rename_i hBelow
      refine List.pairwise_cons.2 ⟨List.forall_mem_cons.2 ⟨hBelow, fun above hMem hLt => ?_⟩, hRows⟩
      -- A row below the first one would be told apart by it from the new row.
      rcases Number.lt_or_lt_of_lt other.center hLt hOtherDefined with hFirst | hLater
      · exact hBelow hFirst
      · exact hOther above hMem hLater

theorem sortRows_pairwise {rows : List (Row α)}
    (hDefined : ∀ row ∈ rows, row.center.isNaN = false) :
    (sortRows rows).Pairwise fun above below => ¬ below.center < above.center := by
  have hFold (later sorted : List (Row α))
      (hLater : ∀ row ∈ later, row.center.isNaN = false)
      (hSortedDefined : ∀ row ∈ sorted, row.center.isNaN = false)
      (hSorted : sorted.Pairwise fun below above => ¬ below.center < above.center) :
      (later.foldl (fun sorted row => insertRow row sorted) sorted).Pairwise
        fun below above => ¬ below.center < above.center := by
    induction later generalizing sorted with
    | nil => exact hSorted
    | cons row later ih =>
      obtain ⟨hRow, hLater⟩ := List.forall_mem_cons.1 hLater
      refine ih (insertRow row sorted) hLater (fun other hMem => ?_)
        (insertRow_pairwise hSortedDefined hSorted)
      rcases List.mem_cons.1 ((insertRow_perm row sorted).mem_iff.1 hMem) with rfl | hMem
      · exact hRow
      · exact hSortedDefined other hMem
  rw [sortRows, List.pairwise_reverse]
  exact hFold rows [] hDefined (by simp) List.Pairwise.nil

/-! ## The rows of siblings -/

/-- What it means that lists are the rows of siblings from top to bottom. -/
structure Grouped (node : α → Node) (thresholds : Thresholds) (siblings : List α)
    (rows : List (List α)) : Prop where
  nonempty : ∀ row ∈ rows, row ≠ []
  partition : rows.flatten.Perm siblings
  arrival : ∀ row ∈ rows, row.Sublist siblings
  firstFit : ∃ opened, rows.Perm opened ∧ FirstFit node thresholds siblings opened
  topDown : (∀ row ∈ rows, (runningCenter node row).isNaN = false) →
    rows.Pairwise fun above below => ¬ runningCenter node below < runningCenter node above

theorem grouped_groupIntoRows (node : α → Node) (thresholds : Thresholds) (siblings : List α) :
    Grouped node thresholds siblings (groupIntoRows node thresholds siblings) := by
  have hFit := firstFit_openRows node thresholds siblings
  have hSorted : (groupIntoRows node thresholds siblings).Perm
      ((openRows node thresholds siblings).map Row.members) :=
    (sortRows_perm _).map Row.members
  have hCenter : ∀ row ∈ sortRows (openRows node thresholds siblings),
      row.center = runningCenter node row.members := by
    intro row hRow
    have hOpen := (sortRows_perm (openRows node thresholds siblings)).mem_iff.1 hRow
    exact (centered_openRows node thresholds siblings row hOpen).center_eq
  refine
    { nonempty := fun row hRow => hFit.ne_nil row (hSorted.mem_iff.1 hRow)
      partition := groupIntoRows_perm node thresholds siblings
      arrival := fun row hRow => hFit.sublist row (hSorted.mem_iff.1 hRow)
      firstFit := ⟨_, hSorted, hFit⟩
      topDown := fun hDefined => ?_ }
  have hOrder : (sortRows (openRows node thresholds siblings)).Pairwise
      fun above below => ¬ below.center < above.center := by
    refine sortRows_pairwise fun row hRow => ?_
    have hMem := (sortRows_perm _).mem_iff.2 hRow
    rw [hCenter row hMem]
    exact hDefined row.members (List.mem_map_of_mem hMem)
  refine List.pairwise_map.2 (hOrder.imp_of_mem fun {above below} hAbove hBelow hNot => ?_)
  rwa [← hCenter above hAbove, ← hCenter below hBelow]

/-- An icon that is level with a title joins its row, and a body stands below. -/
example :
    (groupIntoRows (fun box => { (default : Node) with bounds := some box }) {}
      [⟨0.0, 0.0, 100.0, 20.0⟩, ⟨200.0, 4.0, 16.0, 16.0⟩, ⟨0.0, 80.0, 300.0, 40.0⟩]).map
        (·.map Box.x) = [[0.0, 200.0], [0.0]] := by
  decide +kernel

end Pagewright.Design
