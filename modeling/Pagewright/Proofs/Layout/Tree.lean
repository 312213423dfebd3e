import Mathlib.Data.List.Basic
import Pagewright.Layout.Node

/-!
# Induction over layouts

The generated recursor of `Node` carries four motives, one for each kind of
list a layout is nested through. Most statements about layouts need only one:
what holds of everything inside a wrapper holds of the wrapper.

The leaves of a layout are read in document order, and so are its rows. The leaves
that have content are what a page shows, and a node has content exactly when it
holds one of them.

## Main results

* `Node.induct` — induction over layouts with one motive.
* `Node.hasContent_iff` — content is a leaf with content.
* `Node.rows_of_not_hasContent` — without content no column of a row has any.
-/

namespace Pagewright.Layout

/-- Whether a node is there for the nodes inside it. -/
def Node.isWrapper : Node → Bool
  | .section .. | .container .. | .columns .. => true
  | _ => false

/-! ## Induction -/

/-- What holds of the leaves, and of a wrapper as soon as it holds of all nodes
in it, holds of every node. -/
@[elab_as_elim]
theorem Node.induct {motive : Node → Prop}
    (inSection : ∀ style children, (∀ child ∈ children, motive child) →
      motive (.section style children))
    (inContainer : ∀ style children, (∀ child ∈ children, motive child) →
      motive (.container style children))
    (inColumns : ∀ style entries, (∀ column ∈ entries, ∀ child ∈ column.children,
      motive child) → motive (.columns style entries))
    (atLeaf : ∀ leaf : Node, leaf.isWrapper = false → motive leaf)
    (node : Node) : motive node := by
  refine @Node.rec motive (fun column => ∀ child ∈ column.children, motive child)
    (fun nodes => ∀ child ∈ nodes, motive child)
    (fun entries => ∀ column ∈ entries, ∀ child ∈ column.children, motive child)
    inSection inContainer inColumns ?_ ?_ ?_ ?_ ?_ ?_ ?_ ?_ ?_ ?_ ?_ ?_ node
  -- The seven kinds of leaves.
  iterate 7 intros; exact atLeaf _ rfl
  · exact fun _ _ ih => ih
  · exact fun child hMem => absurd hMem List.not_mem_nil
  · intro first rest ihFirst ihRest child hMem
    rcases List.mem_cons.1 hMem with rfl | hRest
    · exact ihFirst
    · exact ihRest child hRest
  · exact fun column hMem => absurd hMem List.not_mem_nil
  · intro first rest ihFirst ihRest column hMem
    rcases List.mem_cons.1 hMem with rfl | hRest
    · exact ihFirst
    · exact ihRest column hRest

/-! ## Leaves -/

mutual

/-- The leaves of a node in document order. -/
def Node.leaves : Node → List Node
  | .section _ children | .container _ children => Node.allLeaves children
  | .columns _ entries => Column.allLeaves entries
  | leaf => [leaf]

/-- The leaves of several nodes. -/
def Node.allLeaves : List Node → List Node
  | [] => []
  | node :: rest => node.leaves ++ Node.allLeaves rest

/-- The leaves of several columns. -/
def Column.allLeaves : List Column → List Node
  | [] => []
  | .mk _ children :: rest => Node.allLeaves children ++ Column.allLeaves rest

end

/-- The leaves of a node that show something. -/
def Node.shown (node : Node) : List Node := node.leaves.filter Node.hasContent

/-- The leaves of a column that show something. -/
def Column.shown (column : Column) : List Node := column.children.flatMap Node.shown

theorem Node.allLeaves_eq (nodes : List Node) :
    Node.allLeaves nodes = nodes.flatMap Node.leaves := by
  induction nodes with
  | nil => rfl
  | cons node rest ih => rw [Node.allLeaves, ih, List.flatMap_cons]

theorem Column.allLeaves_eq (entries : List Column) :
    Column.allLeaves entries = entries.flatMap fun column =>
      column.children.flatMap Node.leaves := by
  induction entries with
  | nil => rfl
  | cons column rest ih =>
    cases column with
    | mk style children =>
      rw [Column.allLeaves, ih, Node.allLeaves_eq, List.flatMap_cons]
      rfl

/-! Each node shows what the nodes inside it show. -/

theorem Node.shown_section (style : Option Style) (children : List Node) :
    (Node.section style children).shown = children.flatMap Node.shown := by
  rw [Node.shown, Node.leaves, Node.allLeaves_eq, List.filter_flatMap]
  rfl

theorem Node.shown_container (style : Option Style) (children : List Node) :
    (Node.container style children).shown = children.flatMap Node.shown := by
  rw [Node.shown, Node.leaves, Node.allLeaves_eq, List.filter_flatMap]
  rfl

theorem Node.shown_columns (style : Option Style) (entries : List Column) :
    (Node.columns style entries).shown = entries.flatMap Column.shown := by
  rw [Node.shown, Node.leaves, Column.allLeaves_eq, List.filter_flatMap]
  refine List.flatMap_congr fun column _ => ?_
  rw [List.filter_flatMap]
  rfl

theorem Node.leaves_leaf {leaf : Node} (hLeaf : leaf.isWrapper = false) :
    leaf.leaves = [leaf] := by
  cases leaf with
  | «section» | container | columns => simp [Node.isWrapper] at hLeaf
  | heading | text | image | button | input | nav | unknown => rfl

theorem Node.shown_leaf {leaf : Node} (hLeaf : leaf.isWrapper = false) :
    leaf.shown = if leaf.hasContent then [leaf] else [] := by
  rw [Node.shown, Node.leaves_leaf hLeaf, List.filter_cons, List.filter_nil]

/-! ## Rows -/

mutual

/-- The rows of a node in document order, as their columns. -/
def Node.rows : Node → List (List Column)
  | .section _ children | .container _ children => Node.allRows children
  | .columns _ entries => entries :: Column.allRows entries
  | _ => []

/-- The rows of several nodes. -/
def Node.allRows : List Node → List (List Column)
  | [] => []
  | node :: rest => node.rows ++ Node.allRows rest

/-- The rows inside several columns. -/
def Column.allRows : List Column → List (List Column)
  | [] => []
  | .mk _ children :: rest => Node.allRows children ++ Column.allRows rest

end

theorem Node.allRows_eq (nodes : List Node) :
    Node.allRows nodes = nodes.flatMap Node.rows := by
  induction nodes with
  | nil => rfl
  | cons node rest ih => rw [Node.allRows, ih, List.flatMap_cons]

theorem Column.allRows_eq (entries : List Column) :
    Column.allRows entries = entries.flatMap fun column =>
      column.children.flatMap Node.rows := by
  induction entries with
  | nil => rfl
  | cons column rest ih =>
    cases column with
    | mk style children =>
      rw [Column.allRows, ih, Node.allRows_eq, List.flatMap_cons]
      rfl

theorem Node.rows_section (style : Option Style) (children : List Node) :
    (Node.section style children).rows = children.flatMap Node.rows := by
  rw [Node.rows, Node.allRows_eq]

theorem Node.rows_container (style : Option Style) (children : List Node) :
    (Node.container style children).rows = children.flatMap Node.rows := by
  rw [Node.rows, Node.allRows_eq]

theorem Node.rows_columns (style : Option Style) (entries : List Column) :
    (Node.columns style entries).rows =
      entries :: entries.flatMap fun column => column.children.flatMap Node.rows := by
  rw [Node.rows, Column.allRows_eq]

theorem Node.rows_leaf {leaf : Node} (hLeaf : leaf.isWrapper = false) : leaf.rows = [] := by
  cases leaf with
  | «section» | container | columns => simp [Node.isWrapper] at hLeaf
  | heading | text | image | button | input | nav | unknown => rfl

/-! ## Content -/

theorem Node.anyContent_eq_false_iff {nodes : List Node} :
    Node.anyContent nodes = false ↔ ∀ node ∈ nodes, node.hasContent = false := by
  rw [← Bool.not_eq_true, Node.anyContent_iff]
  simp

theorem Column.anyContent_eq_false_iff {entries : List Column} :
    Column.anyContent entries = false ↔ ∀ column ∈ entries, column.hasContent = false := by
  rw [← Bool.not_eq_true, Column.anyContent_iff]
  simp

theorem Column.hasContent_eq (column : Column) :
    column.hasContent = Node.anyContent column.children := by
  cases column; rfl

private theorem flatMap_ne_nil_iff {α β : Type} {xs : List α} {f : α → List β} :
    xs.flatMap f ≠ [] ↔ ∃ x ∈ xs, f x ≠ [] := by
  simp [List.flatMap_eq_nil_iff]

private theorem anyContent_iff_of_forall {nodes : List Node}
    (ih : ∀ node ∈ nodes, node.hasContent = true ↔ node.shown ≠ []) :
    Node.anyContent nodes = true ↔ nodes.flatMap Node.shown ≠ [] := by
  rw [Node.anyContent_iff, flatMap_ne_nil_iff]
  exact exists_congr fun node => and_congr_right (ih node)

/-- A node has content exactly when it holds a leaf that shows something. -/
theorem Node.hasContent_iff (node : Node) : node.hasContent = true ↔ node.shown ≠ [] := by
  induction node using Node.induct with
  | inSection style children ih =>
    rw [Node.shown_section, Node.hasContent]
    exact anyContent_iff_of_forall ih
  | inContainer style children ih =>
    rw [Node.shown_container, Node.hasContent]
    exact anyContent_iff_of_forall ih
  | inColumns style entries ih =>
    rw [Node.shown_columns, Node.hasContent, Column.anyContent_iff, flatMap_ne_nil_iff]
    refine exists_congr fun column => and_congr_right fun hMem => ?_
    rw [Column.hasContent_eq, Column.shown]
    exact anyContent_iff_of_forall (ih column hMem)
  | atLeaf leaf hLeaf =>
    rw [Node.shown_leaf hLeaf]
    by_cases h : leaf.hasContent = true <;> simp [h]

/-- The rows of a node without content have no column with content. -/
theorem Node.rows_of_not_hasContent (node : Node) : node.hasContent = false →
    ∀ entries ∈ node.rows, entries.filter Column.hasContent = [] := by
  have hNodes : ∀ nodes : List Node, Node.anyContent nodes = false →
      (∀ node ∈ nodes, node.hasContent = false →
        ∀ entries ∈ node.rows, entries.filter Column.hasContent = []) →
      ∀ entries ∈ nodes.flatMap Node.rows, entries.filter Column.hasContent = [] := by
    intro nodes hNone ih entries hMem
    obtain ⟨node, hNode, hRow⟩ := List.mem_flatMap.1 hMem
    exact ih node hNode (Node.anyContent_eq_false_iff.1 hNone node hNode) entries hRow
  induction node using Node.induct with
  | inSection style children ih =>
    intro hNone
    rw [Node.rows_section]
    exact hNodes children hNone ih
  | inContainer style children ih =>
    intro hNone
    rw [Node.rows_container]
    exact hNodes children hNone ih
  | inColumns style entries ih =>
    intro hNone row hMem
    have hColumns := Column.anyContent_eq_false_iff.1 hNone
    rw [Node.rows_columns] at hMem
    rcases List.mem_cons.1 hMem with rfl | hInside
    · exact List.filter_eq_nil_iff.2 fun column hColumn => by simp [hColumns column hColumn]
    · obtain ⟨column, hColumn, hRow⟩ := List.mem_flatMap.1 hInside
      refine hNodes column.children ?_ (ih column hColumn) row hRow
      rw [← Column.hasContent_eq]
      exact hColumns column hColumn
  | atLeaf leaf hLeaf =>
    intro _ entries hMem
    rw [Node.rows_leaf hLeaf] at hMem
    cases hMem

end Pagewright.Layout
