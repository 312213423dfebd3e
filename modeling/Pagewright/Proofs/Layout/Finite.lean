import Pagewright.Proofs.Json.Stored
import Pagewright.Proofs.Layout.NodeJson

/-!
# The numbers of a layout

The numbers of a layout stand in its styles, those of columns and links
included, and in the objects of unknown nodes. They are the numbers of what is
written for it, so a layout of finite numbers is written without a `null` in
the place of a number, and is read back.

## Main results

* `Style.Finite.overlay` — laying styles over each other makes no numbers.
* `Node.mem_floats_toJson` — the numbers that are written are those of the layout.
* `readNode_stored` — a layout of finite numbers without unknown nodes is read
  back from what is stored of it.
-/

namespace Pagewright.Layout

open Json

/-! ## Styles -/

/-- The places for numbers in a style, in the order of the record. -/
def Style.numberFields (s : Style) : List (Option Float) :=
  [s.gap, s.padding.map Padding.top, s.padding.map Padding.right, s.padding.map Padding.bottom,
    s.padding.map Padding.left, s.flexGrow, s.flexShrink, s.flexBasis, s.widthPx, s.widthPercent,
    s.minHeightPx, s.fontSize, s.letterSpacing, s.lineHeightPx]

/-- The numbers of a style. -/
def Style.numbers (s : Style) : List Float := s.numberFields.flatMap Option.toList

/-- Whether all numbers of a style are finite. -/
def Style.Finite (s : Style) : Prop := ∀ x ∈ s.numbers, x.isFinite = true

theorem Style.finite_iff {s : Style} :
    s.Finite ↔ ∀ place ∈ s.numberFields, ∀ x ∈ place, x.isFinite = true := by
  simp only [Style.Finite, Style.numbers, List.mem_flatMap, Option.mem_toList, Option.mem_def]
  exact ⟨fun h place hPlace x hMem => h x ⟨place, hPlace, hMem⟩,
    fun h x ⟨place, hPlace, hMem⟩ => h place hPlace x hMem⟩

theorem Style.map_layer {α β : Type} (f : α → β) (top below : Option α) :
    (layer top below).map f = layer (top.map f) (below.map f) := by
  cases top <;> rfl

/-- A number of one style over another is a number of one of them. -/
theorem Style.Finite.overlay {below top : Style} (hBelow : below.Finite) (hTop : top.Finite) :
    (below.overlay top).Finite := by
  rw [finite_iff] at *
  have hFields : (below.overlay top).numberFields =
      List.zipWith layer top.numberFields below.numberFields := by
    simp only [numberFields, Style.overlay, map_layer, List.zipWith_cons_cons,
      List.zipWith_nil_left]
  intro place hPlace x hMem
  rw [hFields, ← List.map_uncurry_zip_eq_zipWith] at hPlace
  obtain ⟨⟨first, second⟩, hPair, rfl⟩ := List.mem_map.1 hPlace
  obtain ⟨hFirst, hSecond⟩ := List.of_mem_zip hPair
  cases first with
  | none => exact hBelow second hSecond x hMem
  | some own => exact hTop (some own) hFirst x hMem

/-- The numbers of a style, if there is one. -/
def numbersOf (style : Option Style) : List Float := style.elim [] Style.numbers

/-! ## Nodes -/

/-- The numbers that stand in a node itself, its columns or its links. -/
def Node.ownNumbers : Node → List Float
  | .columns style entries => numbersOf style ++ entries.flatMap (numbersOf ·.style)
  | .nav style items => numbersOf style ++ items.flatMap (numbersOf ·.style)
  | .unknown fields style => (Json.obj (unknownFields fields style)).floats
  | node => numbersOf node.style

/-- The numbers of a layout. -/
def Node.numbers (node : Node) : List Float := node.preorder.flatMap Node.ownNumbers

namespace Node

variable {style : Option Style} {x : Float}

theorem mem_numbers_section {children : List Node} :
    x ∈ (Node.section style children).numbers ↔
      x ∈ numbersOf style ∨ ∃ child ∈ children, x ∈ child.numbers := by
  rw [numbers, preorder, preorderAll_eq, List.flatMap_cons, List.flatMap_assoc, List.mem_append,
    List.mem_flatMap]
  rfl

theorem mem_numbers_container {children : List Node} :
    x ∈ (Node.container style children).numbers ↔
      x ∈ numbersOf style ∨ ∃ child ∈ children, x ∈ child.numbers := by
  rw [numbers, preorder, preorderAll_eq, List.flatMap_cons, List.flatMap_assoc, List.mem_append,
    List.mem_flatMap]
  rfl

theorem mem_numbers_columns {entries : List Column} :
    x ∈ (Node.columns style entries).numbers ↔
      x ∈ numbersOf style ∨ ∃ column ∈ entries,
        x ∈ numbersOf column.style ∨ ∃ child ∈ column.children, x ∈ child.numbers := by
  rw [numbers, preorder, Column.preorderAll_eq, List.flatMap_cons, List.flatMap_assoc,
    List.mem_append, ownNumbers, List.mem_append, or_assoc]
  simp only [numbers, List.mem_flatMap, List.flatMap_assoc, ← exists_or, ← and_or_left]

theorem numbers_leaf {leaf : Node} (hLeaf : leaf.isWrapper = false) :
    leaf.numbers = leaf.ownNumbers := by
  rw [numbers, preorder_leaf hLeaf, List.flatMap_singleton]

end Node

/-! ## Written numbers -/

theorem floats_written (slots : List (String × Option Json)) :
    (Json.obj (written slots)).floats = slots.flatMap fun slot => slot.2.elim [] floats := by
  rw [floats_obj, written, List.flatMap_assoc]
  refine List.flatMap_congr fun slot _ => ?_
  cases slot.2 with
  | none => rfl
  | some value => exact List.append_nil _

theorem floats_number (place : Option Float) :
    (place.map Json.float).elim [] floats = place.toList := by
  cases place <;> rfl

theorem floats_str (text : String) : (Json.str text).floats = [] := rfl

theorem floats_int (n : Int) : (Json.int n).floats = [] := rfl

/-- What is written for a text or a name has no numbers. -/
theorem floats_plain {α : Type} (write : α → Json) (hWrite : ∀ value, (write value).floats = [])
    (value : Option α) : (value.map write).elim [] floats = [] := by
  cases value with
  | none => rfl
  | some value => exact hWrite value

/-- The numbers that are written for a style are its numbers. -/
theorem Style.floats_toJson (s : Style) : s.toJson.floats = s.numbers := by
  have hText (value : Option String) := floats_plain Json.str (fun _ => rfl) value
  have hAlign (value : Option Align) := floats_plain Align.toJson (fun _ => rfl) value
  have hDirection := floats_plain Direction.toJson (fun _ => rfl) s.direction
  have hAuto := floats_plain Json.bool (fun _ => rfl) s.flexBasisAuto
  have hWeight := floats_plain weightToJson (fun _ => rfl) s.fontWeight
  have hPadding : (s.padding.map Padding.toJson).elim [] floats =
      (s.padding.map Padding.top).toList ++ ((s.padding.map Padding.right).toList ++
        ((s.padding.map Padding.bottom).toList ++ (s.padding.map Padding.left).toList)) := by
    cases s.padding <;> rfl
  rw [Style.toJson, Style.toFields_eq, floats_written]
  simp only [Style.slots, Style.numbers, Style.numberFields, List.flatMap_cons,
    List.flatMap_nil, floats_number, hText, hAlign, hDirection, hAuto, hWeight, hPadding,
    List.nil_append, List.append_nil, List.append_assoc]

theorem floats_styleSlot (style : Option Style) :
    (styleSlot style).2.elim [] floats = numbersOf style := by
  cases style with
  | none => rfl
  | some style =>
    simp only [styleSlot, numbersOf, Option.map_some, Option.elim_some, style.floats_toJson]

theorem NavItem.floats_toJson (item : NavItem) : item.toJson.floats = numbersOf item.style := by
  rw [NavItem.toJson_eq, floats_written]
  simp only [NavItem.slots, List.flatMap_cons, List.flatMap_nil, floats_styleSlot,
    Option.elim_some, floats_str, List.nil_append, List.append_nil]

/-- A wrapper is written with the numbers of its style and of its items. -/
theorem mem_floats_wrapper {x : Float} {kind key : String} {style : Option Style}
    {items : List Json} :
    x ∈ (Json.obj (written [("type", some (.str kind)), styleSlot style,
      (key, some (.arr items))])).floats ↔
        x ∈ numbersOf style ∨ ∃ item ∈ items, x ∈ item.floats := by
  rw [floats_written]
  simp only [List.flatMap_cons, List.flatMap_nil, floats_styleSlot, Option.elim_some, floats_arr,
    floats_str, List.nil_append, List.append_nil, List.mem_append, List.mem_flatMap]

namespace Node

/-- The numbers that are written for a layout are its numbers. -/
theorem mem_floats_toJson {x : Float} (node : Node) :
    x ∈ node.toJson.floats ↔ x ∈ node.numbers := by
  induction node using Node.induct with
  | inSection style children ih =>
    rw [toJson_eq rfl, slots, mem_floats_wrapper, mem_numbers_section]
    simp only [List.mem_map, exists_exists_and_eq_and]
    exact or_congr_right (exists_congr fun child => and_congr_right (ih child))
  | inContainer style children ih =>
    rw [toJson_eq rfl, slots, mem_floats_wrapper, mem_numbers_container]
    simp only [List.mem_map, exists_exists_and_eq_and]
    exact or_congr_right (exists_congr fun child => and_congr_right (ih child))
  | inColumns style entries ih =>
    rw [toJson_eq rfl, slots, mem_floats_wrapper, mem_numbers_columns]
    simp only [List.mem_map, exists_exists_and_eq_and]
    refine or_congr_right (exists_congr fun column => and_congr_right fun hColumn => ?_)
    rw [Column.toJson_eq, Column.slots, mem_floats_wrapper]
    simp only [List.mem_map, exists_exists_and_eq_and]
    exact or_congr_right (exists_congr fun child => and_congr_right (ih column hColumn child))
  | atLeaf leaf hLeaf =>
    rw [numbers_leaf hLeaf]
    cases leaf with
    | «section» | container | columns => cases hLeaf
    | unknown fields style => rw [toJson, ownNumbers]
    | nav style items =>
      rw [toJson_eq rfl, slots, mem_floats_wrapper, ownNumbers, List.mem_append, List.mem_flatMap]
      simp only [List.mem_map, exists_exists_and_eq_and, NavItem.floats_toJson]
    | heading | text | image | button | input =>
      rw [toJson_eq rfl, floats_written]
      simp only [slots, List.flatMap_cons, List.flatMap_nil, floats_styleSlot, ownNumbers,
        Option.elim_some, floats_str, floats_int, List.nil_append, List.append_nil]
      rfl

end Node

/-! ## Finite layouts -/

/-- Whether all numbers of a layout are finite. -/
def Node.Finite (node : Node) : Prop := ∀ x ∈ node.numbers, x.isFinite = true

theorem finite_numbersOf {style : Option Style} :
    (∀ x ∈ numbersOf style, x.isFinite = true) ↔ ∀ own ∈ style, own.Finite := by
  cases style with
  | none => simp [numbersOf]
  | some own => simp [numbersOf, Style.Finite]

theorem Style.Finite.toOption {s : Style} (hStyle : s.Finite) :
    ∀ own ∈ s.toOption, own.Finite := by
  intro own hOwn
  unfold Style.toOption at hOwn
  split at hOwn
  · cases hOwn
  · exact Option.some.inj hOwn ▸ hStyle

namespace Node

variable {style : Option Style}

theorem finite_section {children : List Node} (hStyle : ∀ own ∈ style, own.Finite)
    (hChildren : ∀ child ∈ children, child.Finite) : (Node.section style children).Finite := by
  intro x hMem
  rcases mem_numbers_section.1 hMem with hOwn | ⟨child, hChild, hInside⟩
  · exact finite_numbersOf.2 hStyle x hOwn
  · exact hChildren child hChild x hInside

theorem finite_container_iff {children : List Node} :
    (Node.container style children).Finite ↔
      (∀ own ∈ style, own.Finite) ∧ ∀ child ∈ children, child.Finite := by
  simp only [Finite, mem_numbers_container, ← finite_numbersOf, or_imp, forall_and,
    forall_exists_index, and_imp]
  exact and_congr_right fun _ => ⟨fun h child hChild x => h x child hChild,
    fun h x child hChild => h child hChild x⟩

theorem finite_columns_iff {entries : List Column} :
    (Node.columns style entries).Finite ↔
      (∀ own ∈ style, own.Finite) ∧ ∀ column ∈ entries,
        (∀ own ∈ column.style, own.Finite) ∧ ∀ child ∈ column.children, child.Finite := by
  constructor
  · intro hNode
    refine ⟨finite_numbersOf.1 fun x hMem => hNode x (mem_numbers_columns.2 (.inl hMem)),
      fun column hColumn => ⟨finite_numbersOf.1 fun x hMem => ?_, fun child hChild x hMem => ?_⟩⟩
    · exact hNode x (mem_numbers_columns.2 (.inr ⟨column, hColumn, .inl hMem⟩))
    · exact hNode x (mem_numbers_columns.2 (.inr ⟨column, hColumn, .inr ⟨child, hChild, hMem⟩⟩))
  · rintro ⟨hStyle, hEntries⟩ x hMem
    rcases mem_numbers_columns.1 hMem with hOwn | ⟨column, hColumn, hOwn | ⟨child, hChild, hIn⟩⟩
    · exact finite_numbersOf.2 hStyle x hOwn
    · exact finite_numbersOf.2 (hEntries column hColumn).1 x hOwn
    · exact (hEntries column hColumn).2 child hChild x hIn

theorem finite_nav_iff {items : List NavItem} :
    (Node.nav style items).Finite ↔
      (∀ own ∈ style, own.Finite) ∧ ∀ item ∈ items, ∀ own ∈ item.style, own.Finite := by
  rw [Finite, numbers_leaf rfl, ownNumbers]
  simp only [List.mem_append, List.mem_flatMap, or_imp, forall_and, forall_exists_index, and_imp,
    ← finite_numbersOf]
  exact and_congr_right fun _ => ⟨fun h item hItem x => h x item hItem,
    fun h x item hItem => h item hItem x⟩

/-- Whether a leaf is one whose only numbers are those of its style. -/
def isPlainLeaf : Node → Bool
  | .heading .. | .text .. | .image .. | .button .. | .input .. => true
  | _ => false

theorem finite_leaf_iff {leaf : Node} (hLeaf : leaf.isPlainLeaf = true) :
    leaf.Finite ↔ ∀ own ∈ leaf.style, own.Finite := by
  have hNumbers : leaf.numbers = numbersOf leaf.style := by
    cases leaf with
    | «section» | container | columns | nav | unknown => cases hLeaf
    | heading | text | image | button | input => exact numbers_leaf rfl
  rw [Finite, hNumbers, finite_numbersOf]

/-- A node of a known kind with another style has its numbers in place of the old ones. -/
theorem Finite.withStyle {node : Node} (hNode : node.Finite) (hKnown : node.isUnknown = false)
    (hStyle : ∀ own ∈ style, own.Finite) : (node.withStyle style).Finite := by
  cases node with
  | «section» own children =>
    exact finite_section hStyle fun child hChild x hMem =>
      hNode x (mem_numbers_section.2 (.inr ⟨child, hChild, hMem⟩))
  | container => exact finite_container_iff.2 ⟨hStyle, (finite_container_iff.1 hNode).2⟩
  | columns => exact finite_columns_iff.2 ⟨hStyle, (finite_columns_iff.1 hNode).2⟩
  | nav => exact finite_nav_iff.2 ⟨hStyle, (finite_nav_iff.1 hNode).2⟩
  | unknown => cases hKnown
  | heading | text | image | button | input => exact (finite_leaf_iff rfl).2 hStyle

/-- The style of a node of a known kind has only numbers of the node. -/
theorem Finite.ownStyle {node : Node} (hNode : node.Finite) (hKnown : node.isUnknown = false) :
    ∀ own ∈ node.style, own.Finite := by
  cases node with
  | «section» =>
    exact finite_numbersOf.1 fun x hMem => hNode x (mem_numbers_section.2 (.inl hMem))
  | container => exact (finite_container_iff.1 hNode).1
  | columns => exact (finite_columns_iff.1 hNode).1
  | nav => exact (finite_nav_iff.1 hNode).1
  | unknown => cases hKnown
  | heading | text | image | button | input => exact (finite_leaf_iff rfl).1 hNode

/-! ## Reading back -/

theorem normalizedAll_eq_self {nodes : List Node}
    (hNodes : ∀ node ∈ nodes, node.normalized = node) : normalizedAll nodes = nodes := by
  rw [normalizedAll_eq]
  exact (List.map_congr_left hNodes).trans (List.map_id nodes)

/-- Without unknown nodes there is nothing to normalize. -/
theorem normalized_eq_self (node : Node) :
    (∀ x ∈ node.preorder, x.isUnknown = false) → node.normalized = node := by
  induction node using Node.induct with
  | inSection style children ih =>
    intro hKnown
    rw [normalized, normalizedAll_eq_self fun child hChild => ih child hChild fun x hMem =>
      hKnown x (mem_preorder_section.2 (.inr ⟨child, hChild, hMem⟩))]
  | inContainer style children ih =>
    intro hKnown
    rw [normalized, normalizedAll_eq_self fun child hChild => ih child hChild fun x hMem =>
      hKnown x (mem_preorder_container.2 (.inr ⟨child, hChild, hMem⟩))]
  | inColumns style entries ih =>
    intro hKnown
    have hColumn : ∀ column ∈ entries, column.normalized = column := by
      intro column hColumn
      have hChildren := normalizedAll_eq_self fun child hChild =>
        ih column hColumn child hChild fun x hMem =>
          hKnown x (mem_preorder_columns.2 (.inr ⟨column, hColumn, child, hChild, hMem⟩))
      rw [Column.normalized, hChildren]
      cases column
      rfl
    rw [normalized, Column.normalizedAll_eq, List.map_congr_left hColumn, List.map_id']
  | atLeaf leaf hLeaf =>
    intro hKnown
    cases leaf with
    | «section» | container | columns => cases hLeaf
    | unknown => cases hKnown _ (mem_preorder_self _)
    | heading | text | image | button | input | nav => rfl

end Node

/-- A layout of finite numbers without unknown nodes is read back as it was written. -/
theorem readNode_stored {node : Node} (hFinite : node.Finite)
    (hKnown : ∀ x ∈ node.preorder, x.isUnknown = false) :
    readNode node.toJson.stored = .ok node := by
  have hGenuine : node.Genuine := by
    intro fields style hMem
    cases hKnown _ hMem
  have hFloats : ∀ x ∈ node.toJson.floats, x.isFinite = true :=
    fun x hMem => hFinite x ((Node.mem_floats_toJson node).1 hMem)
  rw [stored_eq_self node.toJson hFloats, readNode_normalized node hGenuine,
    Node.normalized_eq_self node hKnown]

end Pagewright.Layout
