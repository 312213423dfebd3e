import Pagewright.Proofs.Layout.Nodes

/-!
# Layouts without what shows nothing

Pruning takes the nodes, columns and links out of a layout that show nothing,
from the inside out, and keeps the others as they are. The root stays in any
case.

A section is *crowded* when a row is all that it shows, but not all that it
holds. Pruning leaves the row alone in such a section. `Node.relieved` is the
layout with a container in the place of each crowded section.

## Main results

* `Node.hasContent_pruned` — pruning does not change what has content.
* `Node.uncrowded_relieved` — no section is crowded once each crowded one is a
  container.
* `Node.relieved_eq_self_iff` — an uncrowded layout stays as it is.
-/

namespace Pagewright.Layout

/-! ## Pruning -/

mutual

/-- A node without the nodes inside it that are not to be kept, without the
columns that have no content and the links that have no label. -/
def Node.pruned (keep : Node → Bool) : Node → Node
  | .section style children => .section style (Node.prunedAll keep children)
  | .container style children => .container style (Node.prunedAll keep children)
  | .columns style entries => .columns style (Column.prunedAll keep entries)
  | .nav style items => .nav style (items.filter fun item => item.label != "")
  | leaf => leaf

/-- The nodes of a list that are to be kept once they are pruned. -/
def Node.prunedAll (keep : Node → Bool) : List Node → List Node
  | [] => []
  | node :: rest =>
    let inside := node.pruned keep
    if keep inside then inside :: Node.prunedAll keep rest else Node.prunedAll keep rest

/-- The columns of a row that have content once they are pruned. -/
def Column.prunedAll (keep : Node → Bool) : List Column → List Column
  | [] => []
  | .mk style children :: rest =>
    let inside := Column.mk style (Node.prunedAll keep children)
    if inside.hasContent then inside :: Column.prunedAll keep rest
    else Column.prunedAll keep rest

end

/-- A column without the nodes in it that are not to be kept. -/
def Column.pruned (keep : Node → Bool) (column : Column) : Column :=
  .mk column.style (Node.prunedAll keep column.children)

theorem Node.prunedAll_eq (keep : Node → Bool) (nodes : List Node) :
    Node.prunedAll keep nodes = (nodes.map (Node.pruned keep)).filter keep := by
  induction nodes with
  | nil => rfl
  | cons node rest ih => rw [Node.prunedAll, List.map_cons, List.filter_cons, ih]

theorem Column.prunedAll_eq (keep : Node → Bool) (entries : List Column) :
    Column.prunedAll keep entries =
      (entries.map (Column.pruned keep)).filter Column.hasContent := by
  induction entries with
  | nil => rfl
  | cons column rest ih =>
    obtain ⟨style, children⟩ := column
    rw [Column.prunedAll, List.map_cons, List.filter_cons, ih]
    rfl

/-- Something that holds of what is kept holds of one of the changed things exactly if it holds
of one of the things, where a change does not matter to it. -/
private theorem exists_kept_iff {α : Type} {keep holds : α → Bool} {change : α → α} {xs : List α}
    (hKeep : ∀ x, holds x = true → keep x = true)
    (hSame : ∀ x ∈ xs, holds (change x) = holds x) :
    (∃ y ∈ (xs.map change).filter keep, holds y = true) ↔ ∃ x ∈ xs, holds x = true := by
  constructor
  · rintro ⟨y, hMem, hHolds⟩
    obtain ⟨x, hX, rfl⟩ := List.mem_map.1 (List.mem_filter.1 hMem).1
    exact ⟨x, hX, hSame x hX ▸ hHolds⟩
  · rintro ⟨x, hX, hHolds⟩
    rw [← hSame x hX] at hHolds
    exact ⟨_, List.mem_filter.2 ⟨List.mem_map_of_mem hX, hKeep _ hHolds⟩, hHolds⟩

section Kept

variable {keep : Node → Bool} (hKeep : ∀ node : Node, node.hasContent = true → keep node = true)

include hKeep

private theorem anyContent_prunedAll {nodes : List Node}
    (ih : ∀ node ∈ nodes, (node.pruned keep).hasContent = node.hasContent) :
    Node.anyContent (Node.prunedAll keep nodes) = Node.anyContent nodes := by
  rw [Bool.eq_iff_iff, Node.anyContent_iff, Node.anyContent_iff, Node.prunedAll_eq]
  exact exists_kept_iff hKeep ih

/-- Pruning that keeps content does not change what has content. -/
theorem Node.hasContent_pruned_of (node : Node) :
    (node.pruned keep).hasContent = node.hasContent := by
  induction node using Node.induct with
  | inSection style children ih => exact anyContent_prunedAll hKeep ih
  | inContainer style children ih => exact anyContent_prunedAll hKeep ih
  | inColumns style entries ih =>
    show Column.anyContent (Column.prunedAll keep entries) = Column.anyContent entries
    rw [Bool.eq_iff_iff, Column.anyContent_iff, Column.anyContent_iff, Column.prunedAll_eq]
    refine exists_kept_iff (fun _ => id) fun column hMem => ?_
    rw [Column.hasContent_eq column]
    exact anyContent_prunedAll hKeep (ih column hMem)
  | atLeaf leaf hLeaf =>
    cases leaf with
    | «section» | container | columns => cases hLeaf
    | nav style items =>
      show (items.filter fun item => item.label != "").any (fun item => item.label != "") =
        items.any fun item => item.label != ""
      rw [List.any_filter]
      simp only [Bool.and_self]
    | heading | text | image | button | input | unknown => rfl

theorem Column.hasContent_pruned_of (column : Column) :
    (column.pruned keep).hasContent = column.hasContent := by
  rw [Column.hasContent_eq column]
  exact anyContent_prunedAll hKeep fun node _ => Node.hasContent_pruned_of hKeep node

end Kept

/-- Pruning does not change what has content. -/
theorem Node.hasContent_pruned (node : Node) :
    (node.pruned Node.hasContent).hasContent = node.hasContent :=
  Node.hasContent_pruned_of (fun _ => id) node

theorem Column.hasContent_pruned (column : Column) :
    (column.pruned Node.hasContent).hasContent = column.hasContent :=
  Column.hasContent_pruned_of (fun _ => id) column

/-! What is kept is the same before and after pruning. -/

theorem Node.prunedAll_eq_map_filter (nodes : List Node) :
    Node.prunedAll Node.hasContent nodes =
      (nodes.filter Node.hasContent).map (Node.pruned Node.hasContent) := by
  have hSame : Node.hasContent ∘ Node.pruned Node.hasContent = Node.hasContent :=
    funext Node.hasContent_pruned
  rw [Node.prunedAll_eq, List.filter_map, hSame]

theorem Column.prunedAll_eq_map_filter (entries : List Column) :
    Column.prunedAll Node.hasContent entries =
      (entries.filter Column.hasContent).map (Column.pruned Node.hasContent) := by
  have hSame : Column.hasContent ∘ Column.pruned Node.hasContent = Column.hasContent :=
    funext Column.hasContent_pruned
  rw [Column.prunedAll_eq, List.filter_map, hSame]

theorem Node.isWrapper_pruned (keep : Node → Bool) (node : Node) :
    (node.pruned keep).isWrapper = node.isWrapper := by
  cases node <;> rfl

/-! ## Crowded sections -/

/-- Whether a row is all that a list of nodes shows, but not all that it holds. -/
def isCrowded (children : List Node) : Bool :=
  match children.filter Node.hasContent with
  | [.columns ..] => children.length != 1
  | _ => false

/-- Whether no section of a layout is crowded. -/
def Node.Uncrowded (node : Node) : Prop :=
  ∀ style children, Node.section style children ∈ node.preorder → isCrowded children = false

mutual

/-- The layout with a container for each crowded section. -/
def Node.relieved : Node → Node
  | .section style children =>
    if isCrowded children then .container style (Node.relievedAll children)
    else .section style (Node.relievedAll children)
  | .container style children => .container style (Node.relievedAll children)
  | .columns style entries => .columns style (Column.relievedAll entries)
  | leaf => leaf

/-- The layouts with a container for each crowded section. -/
def Node.relievedAll : List Node → List Node
  | [] => []
  | node :: rest => node.relieved :: Node.relievedAll rest

/-- The columns with a container for each crowded section in them. -/
def Column.relievedAll : List Column → List Column
  | [] => []
  | .mk style children :: rest =>
    .mk style (Node.relievedAll children) :: Column.relievedAll rest

end

/-- The column with a container for each crowded section in it. -/
def Column.relieved (column : Column) : Column :=
  .mk column.style (Node.relievedAll column.children)

theorem Node.relievedAll_eq (nodes : List Node) :
    Node.relievedAll nodes = nodes.map Node.relieved := by
  induction nodes with
  | nil => rfl
  | cons node rest ih => rw [Node.relievedAll, ih, List.map_cons]

theorem Column.relievedAll_eq (entries : List Column) :
    Column.relievedAll entries = entries.map Column.relieved := by
  induction entries with
  | nil => rfl
  | cons column rest ih =>
    obtain ⟨style, children⟩ := column
    rw [Column.relievedAll, ih, List.map_cons]
    rfl

theorem Node.relieved_leaf {leaf : Node} (hLeaf : leaf.isWrapper = false) :
    leaf.relieved = leaf := by
  cases leaf with
  | «section» | container | columns => cases hLeaf
  | heading | text | image | button | input | nav | unknown => rfl

theorem isCrowded_row (style : Option Style) (entries : List Column) :
    isCrowded [.columns style entries] = false := by
  rw [isCrowded, List.filter_singleton]
  cases (Node.columns style entries).hasContent <;> rfl

/-- Where a row is all that is left of an uncrowded list, it is all that there was. -/
theorem eq_row_of_prunedAll {children : List Node} {style : Option Style}
    {entries : List Column} (hCrowded : isCrowded children = false)
    (hRow : Node.prunedAll Node.hasContent children = [.columns style entries]) :
    ∃ rowStyle others, children = [.columns rowStyle others] := by
  rw [Node.prunedAll_eq_map_filter] at hRow
  obtain ⟨row, hShown, hPruned⟩ := List.map_eq_singleton_iff.1 hRow
  cases row with
  | columns rowStyle others =>
    rw [isCrowded, hShown] at hCrowded
    obtain ⟨only, rfl⟩ := List.length_eq_one_iff.1 (by simpa using hCrowded)
    have hOnly : only ∈ [only].filter Node.hasContent → only = .columns rowStyle others := by
      rw [hShown, List.mem_singleton]
      exact id
    have hMem : Node.columns rowStyle others ∈ [only].filter Node.hasContent := by
      rw [hShown]
      exact List.mem_singleton_self _
    exact ⟨rowStyle, others, by rw [List.mem_singleton.1 (List.mem_filter.1 hMem).1]⟩
  | _ => cases hPruned

theorem Node.relieved_eq_row {node : Node} {style : Option Style} {entries : List Column}
    (hRow : node.relieved = .columns style entries) :
    ∃ others, node = .columns style others := by
  cases node with
  | columns rowStyle others =>
    cases hRow
    exact ⟨others, rfl⟩
  | «section» own children =>
    rw [Node.relieved] at hRow
    split at hRow <;> cases hRow
  | _ => cases hRow

/-! What is uncrowded, one level at a time. -/

theorem Node.uncrowded_container_iff {style : Option Style} {children : List Node} :
    (Node.container style children).Uncrowded ↔ ∀ child ∈ children, child.Uncrowded := by
  constructor
  · intro hWhole child hChild inner inside hMem
    exact hWhole inner inside (Node.mem_preorder_container.2 (.inr ⟨child, hChild, hMem⟩))
  · intro hChildren inner inside hMem
    obtain hSelf | ⟨child, hChild, hInside⟩ := Node.mem_preorder_container.1 hMem
    · cases hSelf
    · exact hChildren child hChild inner inside hInside

theorem Node.uncrowded_section_iff {style : Option Style} {children : List Node} :
    (Node.section style children).Uncrowded ↔
      isCrowded children = false ∧ ∀ child ∈ children, child.Uncrowded := by
  constructor
  · intro hWhole
    refine ⟨hWhole style children (Node.mem_preorder_self _), ?_⟩
    intro child hChild inner inside hMem
    exact hWhole inner inside (Node.mem_preorder_section.2 (.inr ⟨child, hChild, hMem⟩))
  · rintro ⟨hOwn, hChildren⟩ inner inside hMem
    obtain hSelf | ⟨child, hChild, hInside⟩ := Node.mem_preorder_section.1 hMem
    · cases hSelf
      exact hOwn
    · exact hChildren child hChild inner inside hInside

theorem Node.uncrowded_columns_iff {style : Option Style} {entries : List Column} :
    (Node.columns style entries).Uncrowded ↔
      ∀ column ∈ entries, ∀ child ∈ column.children, child.Uncrowded := by
  constructor
  · intro hWhole column hColumn child hChild inner inside hMem
    exact hWhole inner inside
      (Node.mem_preorder_columns.2 (.inr ⟨column, hColumn, child, hChild, hMem⟩))
  · intro hChildren inner inside hMem
    obtain hSelf | ⟨column, hColumn, child, hChild, hInside⟩ :=
      Node.mem_preorder_columns.1 hMem
    · cases hSelf
    · exact hChildren column hColumn child hChild inner inside hInside

theorem Node.Uncrowded.leaf {leaf : Node} (hLeaf : leaf.isWrapper = false) :
    leaf.Uncrowded := by
  intro inner inside hMem
  rw [Node.preorder_leaf hLeaf, List.mem_singleton] at hMem
  cases hMem
  cases hLeaf

/-! ## Layouts without crowded sections -/

private theorem anyContent_relievedAll {nodes : List Node}
    (ih : ∀ node ∈ nodes, node.relieved.hasContent = node.hasContent) :
    Node.anyContent (Node.relievedAll nodes) = Node.anyContent nodes := by
  rw [Bool.eq_iff_iff, Node.anyContent_iff, Node.anyContent_iff, Node.relievedAll_eq]
  simp only [List.mem_map, exists_exists_and_eq_and]
  exact exists_congr fun node => and_congr_right fun hMem => by rw [ih node hMem]

theorem Node.hasContent_relieved (node : Node) :
    node.relieved.hasContent = node.hasContent := by
  induction node using Node.induct with
  | inSection style children ih =>
    rw [Node.relieved]
    split <;> exact anyContent_relievedAll ih
  | inContainer style children ih => exact anyContent_relievedAll ih
  | inColumns style entries ih =>
    show Column.anyContent (Column.relievedAll entries) = Column.anyContent entries
    rw [Bool.eq_iff_iff, Column.anyContent_iff, Column.anyContent_iff, Column.relievedAll_eq]
    simp only [List.mem_map, exists_exists_and_eq_and]
    refine exists_congr fun column => and_congr_right fun hMem => ?_
    rw [Column.hasContent_eq column]
    exact Bool.eq_iff_iff.1 (anyContent_relievedAll (ih column hMem))
  | atLeaf leaf hLeaf => rw [Node.relieved_leaf hLeaf]

/-- A list that is not crowded is not crowded with containers in it either. -/
theorem isCrowded_relievedAll {children : List Node} (hCrowded : isCrowded children = false) :
    isCrowded (Node.relievedAll children) = false := by
  have hSame : Node.hasContent ∘ Node.relieved = Node.hasContent :=
    funext Node.hasContent_relieved
  rw [isCrowded, Node.relievedAll_eq, List.filter_map, hSame, List.length_map]
  split
  · rename_i style entries hRow
    obtain ⟨row, hShown, hRelieved⟩ := List.map_eq_singleton_iff.1 hRow
    obtain ⟨others, rfl⟩ := Node.relieved_eq_row hRelieved
    rwa [isCrowded, hShown] at hCrowded
  · rfl

/-- No section is crowded once each crowded one is a container. -/
theorem Node.uncrowded_relieved (node : Node) : node.relieved.Uncrowded := by
  have hNodes : ∀ nodes : List Node, (∀ node ∈ nodes, node.relieved.Uncrowded) →
      ∀ node ∈ Node.relievedAll nodes, node.Uncrowded := by
    intro nodes ih node hMem
    rw [Node.relievedAll_eq] at hMem
    obtain ⟨other, hOther, rfl⟩ := List.mem_map.1 hMem
    exact ih other hOther
  induction node using Node.induct with
  | inSection style children ih =>
    rw [Node.relieved]
    split
    · exact Node.uncrowded_container_iff.2 (hNodes children ih)
    · rename_i hCrowded
      exact Node.uncrowded_section_iff.2
        ⟨isCrowded_relievedAll (Bool.eq_false_iff.2 hCrowded), hNodes children ih⟩
  | inContainer style children ih => exact Node.uncrowded_container_iff.2 (hNodes children ih)
  | inColumns style entries ih =>
    refine Node.uncrowded_columns_iff.2 fun column hColumn => ?_
    rw [Column.relievedAll_eq] at hColumn
    obtain ⟨other, hOther, rfl⟩ := List.mem_map.1 hColumn
    exact hNodes other.children (ih other hOther)
  | atLeaf leaf hLeaf =>
    rw [Node.relieved_leaf hLeaf]
    exact Node.Uncrowded.leaf hLeaf

private theorem map_eq_self_iff {α : Type} {change : α → α} {xs : List α} :
    xs.map change = xs ↔ ∀ x ∈ xs, change x = x := by
  conv_lhs => rhs; rw [← List.map_id xs]
  exact List.map_inj_left

theorem Column.relieved_eq_self_iff {column : Column} :
    column.relieved = column ↔ Node.relievedAll column.children = column.children := by
  obtain ⟨style, children⟩ := column
  simp only [Column.relieved, Column.style, Column.children, Column.mk.injEq, true_and]

/-- A layout stays as it is exactly if no section of it is crowded. -/
theorem Node.relieved_eq_self_iff (node : Node) : node.relieved = node ↔ node.Uncrowded := by
  have hNodes : ∀ nodes : List Node,
      (∀ node ∈ nodes, node.relieved = node ↔ node.Uncrowded) →
        (Node.relievedAll nodes = nodes ↔ ∀ node ∈ nodes, node.Uncrowded) := by
    intro nodes ih
    rw [Node.relievedAll_eq, map_eq_self_iff]
    exact forall₂_congr ih
  induction node using Node.induct with
  | inSection style children ih =>
    rw [Node.uncrowded_section_iff, Node.relieved, ← hNodes children ih]
    cases hCrowded : isCrowded children <;> simp
  | inContainer style children ih =>
    rw [Node.uncrowded_container_iff, Node.relieved, ← hNodes children ih]
    simp
  | inColumns style entries ih =>
    rw [Node.uncrowded_columns_iff, Node.relieved, Column.relievedAll_eq]
    simp only [Node.columns.injEq, true_and, map_eq_self_iff, Column.relieved_eq_self_iff]
    exact forall₂_congr fun column hColumn => hNodes column.children (ih column hColumn)
  | atLeaf leaf hLeaf =>
    exact iff_of_true (Node.relieved_leaf hLeaf) (Node.Uncrowded.leaf hLeaf)

end Pagewright.Layout
