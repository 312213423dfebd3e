import Pagewright.Proofs.Page.Export

/-!
# The grammar of a page

In the classic dialects sections hold columns, and columns hold widgets and
inner sections. In the container dialect containers hold widgets and inner
containers. Nothing but a widget is empty. `Element.Obeys` is the rule for one
element and the elements directly inside it; a tree is `Proper` when all of its
elements obey.

Building gives proper trees because nodes without content are left out, and
because everything inside a block or a row lies deeper than the root. Splitting
clears inner flags only where a section comes to the top, and flattening puts
the elements of one proper column into another.

## Main results

* `proper_build` — what is built is proper.
* `proper_flatten`, `isTop_splitShape` — the passes keep trees proper.
* `grammar_exportLayout` — every page follows the grammar of its dialect.
-/

namespace Pagewright.Page

open Layout

variable {ι κ : Type} {d : Dialect}

/-! ## Rules -/

/-- What may stand in a column, or in a container: a widget, or a section or
container that is marked as an inner one. -/
def Element.IsInside (d : Dialect) (e : Element ι) : Prop :=
  e.kind = .widget ∨ (e.kind = d.topLevel ∧ e.inner = true)

/-- The rule of a dialect for an element and the elements directly inside it. -/
def Element.Obeys (d : Dialect) (e : Element ι) : Prop :=
  match e.kind with
  | .widget => e.widget.isSome = true ∧ e.inner = false ∧ e.elements = []
  | .section => d ≠ .container ∧ e.widget = none ∧ e.elements ≠ [] ∧
      ∀ inside ∈ e.elements, inside.kind = .column
  | .column => d ≠ .container ∧ e.widget = none ∧ e.inner = false ∧ e.elements ≠ [] ∧
      ∀ inside ∈ e.elements, inside.IsInside d
  | .container => d = .container ∧ e.widget = none ∧ e.elements ≠ [] ∧
      ∀ inside ∈ e.elements, inside.IsInside d

/-- Every element of a tree obeys the rule of the dialect. -/
def Element.Proper (d : Dialect) (e : Element ι) : Prop := ∀ x ∈ e.preorder, x.Obeys d

theorem proper_iff {e : Element ι} :
    e.Proper d ↔ e.Obeys d ∧ ∀ inside ∈ e.elements, inside.Proper d := by
  constructor
  · intro hProper
    refine ⟨hProper e (Element.mem_preorder.2 (.inl rfl)), fun inside hInside x hMem => ?_⟩
    exact hProper x (Element.mem_preorder.2 (.inr ⟨inside, hInside, hMem⟩))
  · rintro ⟨hObeys, hInside⟩ x hMem
    rcases Element.mem_preorder.1 hMem with rfl | ⟨inside, hElement, hBelow⟩
    · exact hObeys
    · exact hInside inside hElement x hBelow

/-! Labels play no part in it. -/

@[simp] theorem isInside_map (f : ι → κ) (e : Element ι) :
    (Element.map f e).IsInside d ↔ e.IsInside d := by
  rw [Element.IsInside, Element.IsInside, Element.map_kind, Element.map_inner]

theorem obeys_map (f : ι → κ) (e : Element ι) : (Element.map f e).Obeys d ↔ e.Obeys d := by
  unfold Element.Obeys
  rw [Element.map_kind]
  cases e.kind <;> simp

theorem proper_map (f : ι → κ) (e : Element ι) : (Element.map f e).Proper d ↔ e.Proper d := by
  rw [Element.Proper, Element.preorder_map, List.forall_mem_map]
  exact forall₂_congr fun x _ => obeys_map f x

/-! ## Proper wrappers -/

/-- What may stand at the top of a page. -/
structure Element.IsTop (d : Dialect) (e : Element ι) : Prop where
  proper : e.Proper d
  kind : e.kind = d.topLevel
  outer : e.inner = false

/-- Elements that may fill a column or a container: at least one, all of them proper. -/
def Fills (d : Dialect) (elements : List (Element ι)) : Prop :=
  elements ≠ [] ∧ ∀ e ∈ elements, e.Proper d ∧ e.IsInside d

theorem proper_widget (id : ι) (widget : WidgetKind) (settings : Settings) :
    (Element.ofWidget id widget settings).Proper d :=
  proper_iff.2 ⟨⟨rfl, rfl, rfl⟩, fun _ hMem => absurd hMem List.not_mem_nil⟩

theorem proper_column (hDialect : d ≠ .container) (id : ι) (settings : Settings)
    {elements : List (Element ι)} (hFills : Fills d elements) :
    (Element.ofColumn id settings elements).Proper d :=
  proper_iff.2 ⟨⟨hDialect, rfl, rfl, hFills.1, fun e hMem => (hFills.2 e hMem).2⟩,
    fun e hMem => (hFills.2 e hMem).1⟩

theorem proper_container (id : ι) (inner : Bool) (settings : Settings)
    {elements : List (Element ι)} (hFills : Fills .container elements) :
    (Element.ofContainer id inner settings elements).Proper .container :=
  proper_iff.2 ⟨⟨rfl, rfl, hFills.1, fun e hMem => (hFills.2 e hMem).2⟩,
    fun e hMem => (hFills.2 e hMem).1⟩

theorem proper_section (hDialect : d ≠ .container) (id : ι) (inner : Bool)
    (settings : Settings) {elements : List (Element ι)} (hSome : elements ≠ [])
    (hColumns : ∀ e ∈ elements, e.Proper d ∧ e.kind = .column) :
    (Element.ofSection id inner settings elements).Proper d :=
  proper_iff.2 ⟨⟨hDialect, rfl, hSome, fun e hMem => (hColumns e hMem).2⟩,
    fun e hMem => (hColumns e hMem).1⟩

/-- A section around one column is proper when the column may be filled that way. -/
theorem proper_holder (hDialect : d ≠ .container) (id column : ι) (inner : Bool)
    (settings : Settings) {elements : List (Element ι)} (hFills : Fills d elements) :
    (Element.ofSection id inner settings [Element.ofColumn column [] elements]).Proper d := by
  refine proper_section hDialect id inner settings (List.cons_ne_nil _ _) fun e hMem => ?_
  rw [List.mem_singleton.1 hMem]
  exact ⟨proper_column hDialect column [] hFills, rfl⟩

/-- What a proper column holds may fill another column. -/
theorem fills_of_column {column : Element ι} (hProper : column.Proper d)
    (hColumn : column.kind = .column) : Fills d column.elements := by
  obtain ⟨hObeys, hBelow⟩ := proper_iff.1 hProper
  rw [Element.Obeys, hColumn] at hObeys
  obtain ⟨-, -, -, hSome, hInside⟩ := hObeys
  exact ⟨hSome, fun x hMem => ⟨hBelow x hMem, hInside x hMem⟩⟩

/-- Neither settings nor the inner flag of a section matter to what is inside. -/
theorem proper_section_congr {e other : Element ι} (hKind : e.kind = .section)
    (hOther : other.kind = .section) (hWidget : other.widget = e.widget)
    (hElements : other.elements = e.elements) (hProper : e.Proper d) : other.Proper d := by
  obtain ⟨hObeys, hInside⟩ := proper_iff.1 hProper
  refine proper_iff.2 ⟨?_, hElements ▸ hInside⟩
  unfold Element.Obeys at hObeys ⊢
  rw [hKind] at hObeys
  rw [hOther, hWidget, hElements]
  exact hObeys

/-! ## Building -/

/-- What is built below the root may stand in a column or a container. -/
theorem isInside_of_build {path : Path} {depth : Nat} (hDepth : 0 < depth) {node : Node}
    {e : Element Path} (hBuilt : build d path depth node = some e) : e.IsInside d := by
  cases hWrapper : node.isWrapper with
  | false => exact .inl (kind_of_build_leaf hWrapper hBuilt).1
  | true =>
    obtain ⟨hKind, hInner⟩ := kind_of_build_wrapper hWrapper hBuilt
    exact .inr ⟨hKind, hInner.trans (decide_eq_true hDepth)⟩

theorem fills_buildNodes {depth : Nat} (hDepth : 0 < depth) {nodes : List Node}
    (hContent : Node.anyContent nodes = true)
    (ih : ∀ node ∈ nodes, ∀ path depth e, build d path depth node = some e → e.Proper d)
    (path : Path) : Fills d (buildNodes d path depth 0 nodes) := by
  refine ⟨buildNodes_ne_nil hContent path depth 0, fun e hMem => ?_⟩
  obtain ⟨node, hNode, path, hBuilt⟩ := mem_buildNodes hMem
  exact ⟨ih node hNode path depth e hBuilt, isInside_of_build hDepth hBuilt⟩

theorem proper_wrapBlock (path : Path) (depth : Nat) (style : Option Style)
    {elements : List (Element Path)} (hFills : Fills d elements) :
    (d.wrapBlock path depth style elements).Proper d := by
  cases d with
  | container => exact proper_container path _ _ hFills
  | classic | classicSimple => exact proper_holder (by simp) path _ _ _ hFills

/-- The element of a column is proper, and in the container dialect an inner one. -/
theorem proper_wrapColumn (path : Path) (index : Nat) (style : Option Style)
    (share : Option Nat) {elements : List (Element Path)} (hFills : Fills d elements) :
    (d.wrapColumn path index style share elements).Proper d := by
  cases d with
  | container => exact proper_container _ true _ hFills
  | classic | classicSimple => exact proper_column (by simp) _ _ hFills

theorem proper_wrapRow (path : Path) (depth : Nat) (style : Option Style)
    {elements : List (Element Path)} (hSome : elements ≠ [])
    (hColumns : ∀ e ∈ elements, e.Proper d ∧ ∃ index columnStyle share inside,
      e = d.wrapColumn path index columnStyle share inside) :
    (d.wrapRow path depth style elements).Proper d := by
  cases d with
  | container =>
    refine proper_container path _ _ ⟨hSome, fun e hMem => ?_⟩
    obtain ⟨hProper, index, columnStyle, share, inside, rfl⟩ := hColumns e hMem
    exact ⟨hProper, .inr ⟨rfl, rfl⟩⟩
  | classic | classicSimple =>
    refine proper_section (by simp) path _ _ hSome fun e hMem => ?_
    obtain ⟨hProper, index, columnStyle, share, inside, rfl⟩ := hColumns e hMem
    exact ⟨hProper, rfl⟩

/-- What is built is proper. -/
theorem proper_build (node : Node) : ∀ (path : Path) (depth : Nat) (e : Element Path),
    build d path depth node = some e → e.Proper d := by
  refine build_induct (motive := fun _ e => e.Proper d)
    ?leaf ?container ?columns ?sectionBlock ?sectionRow node
  case leaf =>
    intro node path widget settings _ _ _
    exact proper_widget path widget settings
  case container =>
    intro style children path depth hContent ih
    have hDepth : 0 < d.blockDepth depth := by cases d <;> exact Nat.succ_pos _
    exact proper_wrapBlock path depth style (fills_buildNodes hDepth hContent ih _)
  case columns =>
    intro style entries path depth hContent ih
    refine proper_wrapRow path depth style (buildColumns_ne_nil hContent _ _ _ _ _) ?_
    intro x hMem
    obtain ⟨column, hColumn, hInside, index, share, rfl⟩ := mem_buildColumns hMem
    have hFills := fills_buildNodes (Nat.succ_pos (depth + 1)) hInside (ih column hColumn)
      (Dialect.cellPath path index)
    exact ⟨proper_wrapColumn path index column.style share hFills, _, _, _, _, rfl⟩
  case sectionBlock =>
    intro style children e _ hProper
    exact hProper
  case sectionRow =>
    intro style rowStyle entries path depth hDialect hProper
    have hKind : (d.wrapRow path depth rowStyle
        (buildColumns d path (depth + 2) (rowShares entries) 0 0 entries)).kind = .section :=
      (wrapRow_kind path depth rowStyle _).1.trans (topLevel_of_classic hDialect)
    exact proper_section_congr hKind hKind rfl rfl hProper

/-! ## Passes -/

/-- A proper inner section that is taken apart leaves what fills its column. -/
theorem fills_unwrap {e : Element ι} (hProper : e.Proper d) (hInside : e.IsInside d) :
    Fills d (unwrap e) := by
  unfold unwrap
  cases hRedundant : isRedundant e with
  | false =>
    rw [if_neg Bool.false_ne_true]
    refine ⟨List.cons_ne_nil e [], fun x hMem => ?_⟩
    rw [List.mem_singleton.1 hMem]
    exact ⟨hProper, hInside⟩
  | true =>
    obtain ⟨-, -, -, column, hElements, hColumn, -⟩ := exists_column_of_isRedundant hRedundant
    have hMem : column ∈ e.elements := by rw [hElements]; exact List.mem_singleton_self column
    rw [if_pos rfl, hElements, List.flatMap_singleton]
    exact fills_of_column ((proper_iff.1 hProper).2 column hMem) hColumn

theorem fills_flatMap_unwrap {elements : List (Element ι)} (hFills : Fills d elements) :
    Fills d (elements.flatMap unwrap) := by
  obtain ⟨hSome, hAll⟩ := hFills
  have hUnwrap : ∀ e ∈ elements, Fills d (unwrap e) := fun e hMem =>
    fills_unwrap (hAll e hMem).1 (hAll e hMem).2
  constructor
  · obtain ⟨first, rest, rfl⟩ := List.exists_cons_of_ne_nil hSome
    rw [List.flatMap_cons]
    exact List.append_ne_nil_of_left_ne_nil (hUnwrap first List.mem_cons_self).1 _
  · intro x hMem
    obtain ⟨e, hElement, hx⟩ := List.mem_flatMap.1 hMem
    exact (hUnwrap e hElement).2 x hx

theorem isInside_flatten {e : Element ι} :
    (flattenElement e).IsInside d ↔ e.IsInside d := by
  rw [Element.IsInside, Element.IsInside, flattenElement_kind, flattenElement_inner]

/-- Flattening keeps trees proper. -/
theorem proper_flatten (e : Element ι) : e.Proper d → (flattenElement e).Proper d := by
  induction e using Element.induct with
  | step e ih =>
    intro hProper
    obtain ⟨hObeys, hBelow⟩ := proper_iff.1 hProper
    have hFlat : ∀ x ∈ e.elements.map flattenElement, x.Proper d := by
      rw [List.forall_mem_map]
      exact fun inside hMem => ih inside hMem (hBelow inside hMem)
    have hFilled : e.elements ≠ [] → (∀ inside ∈ e.elements, inside.IsInside d) →
        Fills d (e.elements.map flattenElement) := by
      intro hSome hInside
      refine ⟨fun hNil => hSome (List.map_eq_nil_iff.1 hNil), fun x hMem => ⟨hFlat x hMem, ?_⟩⟩
      obtain ⟨inside, hElement, rfl⟩ := List.mem_map.1 hMem
      exact isInside_flatten.2 (hInside inside hElement)
    rw [flattenElement_eq]
    unfold Element.Obeys at hObeys
    cases hKind : e.kind with
    | «section» =>
      rw [hKind] at hObeys
      obtain ⟨hDialect, hWidget, hSome, hColumns⟩ := hObeys
      refine proper_iff.2 ⟨?_, hFlat⟩
      refine ⟨hDialect, hWidget, fun hNil => hSome (List.map_eq_nil_iff.1 hNil), ?_⟩
      intro x hMem
      obtain ⟨inside, hElement, rfl⟩ := List.mem_map.1 hMem
      exact (flattenElement_kind inside).trans (hColumns inside hElement)
    | column =>
      rw [hKind] at hObeys
      obtain ⟨hDialect, hWidget, hInner, hSome, hInside⟩ := hObeys
      obtain ⟨hLeft, hFilling⟩ := fills_flatMap_unwrap (hFilled hSome hInside)
      refine proper_iff.2 ⟨?_, fun x hMem => (hFilling x hMem).1⟩
      exact ⟨hDialect, hWidget, hInner, hLeft, fun x hMem => (hFilling x hMem).2⟩
    | container =>
      rw [hKind] at hObeys
      obtain ⟨hDialect, hWidget, hSome, hInside⟩ := hObeys
      obtain ⟨hLeft, hFilling⟩ := hFilled hSome hInside
      refine proper_iff.2 ⟨?_, hFlat⟩
      exact ⟨hDialect, hWidget, hLeft, fun x hMem => (hFilling x hMem).2⟩
    | widget =>
      rw [hKind] at hObeys
      obtain ⟨hWidget, hInner, hNone⟩ := hObeys
      refine proper_iff.2 ⟨?_, hFlat⟩
      exact ⟨hWidget, hInner, by rw [flattenInside, hNone]; rfl⟩

theorem isTop_flatten {e : Element ι} (hTop : e.IsTop d) : (flattenElement e).IsTop d where
  proper := proper_flatten e hTop.proper
  kind := (flattenElement_kind e).trans hTop.kind
  outer := (flattenElement_inner e).trans hTop.outer

theorem mem_of_mem_block {elements : List (Element ι)} {block : Block ι}
    (hBlock : block ∈ blocks elements) {x : Element ι} (hMem : x ∈ block.members) :
    x ∈ elements := by
  rw [← blocks_members elements]
  exact List.mem_flatMap.2 ⟨block, hBlock, hMem⟩

/-- The sections of the blocks of a proper column may stand at the top. -/
theorem isTop_toSection (hDialect : d ≠ .container) {elements : List (Element ι)}
    (hFills : Fills d elements) {block : Block ι} (hBlock : block ∈ blocks elements) :
    block.toSection.IsTop d := by
  have hMembers : ∀ x ∈ block.members, x.Proper d ∧ x.IsInside d := fun x hMem =>
    hFills.2 x (mem_of_mem_block hBlock hMem)
  have hTop := topLevel_of_classic hDialect
  have hShape := blocks_proper elements block hBlock
  cases block with
  | promoted e =>
    have hKind : e.unlabelled.kind = .section := by
      simp only [Block.Proper, Element.isInnerSection, Bool.and_eq_true, beq_iff_eq] at hShape
      exact (Element.map_kind _ e).trans hShape.1
    have hProper : e.unlabelled.Proper d :=
      (proper_map _ e).2 (hMembers e (List.mem_singleton_self e)).1
    exact ⟨proper_section_congr hKind hKind rfl rfl hProper, hKind.trans hTop.symm, rfl⟩
  | run elements =>
    have hRun : Fills d (elements.map Element.unlabelled) := by
      refine ⟨fun hNil => hShape.1 (List.map_eq_nil_iff.1 hNil), fun x hMem => ?_⟩
      obtain ⟨e, hElement, rfl⟩ := List.mem_map.1 hMem
      obtain ⟨hProper, hInside⟩ := hMembers e hElement
      exact ⟨(proper_map _ e).2 hProper, (isInside_map _ e).2 hInside⟩
    exact ⟨proper_holder hDialect () () false [] hRun, hTop.symm, rfl⟩

/-- A split leaves sections that may stand at the top. -/
theorem isTop_splitShape (hDialect : d ≠ .container) {e : Element ι} (hTop : e.IsTop d) :
    ∀ x ∈ splitShape e, x.IsTop d := by
  have hWhole : ∀ x ∈ [e.unlabelled], x.IsTop d := by
    intro x hMem
    rw [List.mem_singleton.1 hMem]
    exact ⟨(proper_map _ e).2 hTop.proper, (Element.map_kind _ e).trans hTop.kind,
      (Element.map_inner _ e).trans hTop.outer⟩
  unfold splitShape
  split
  · rename_i elements hSole
    split
    · exact hWhole
    · obtain ⟨-, -, -, column, hElements, hColumn, rfl⟩ := soleColumn?_eq_some_iff.1 hSole
      have hMem : column ∈ e.elements := by rw [hElements]; exact List.mem_singleton_self column
      have hFills : Fills d column.elements :=
        fills_of_column ((proper_iff.1 hTop.proper).2 column hMem) hColumn
      intro x hx
      obtain ⟨block, hBlock, rfl⟩ := List.mem_map.1 hx
      exact isTop_toSection hDialect hFills hBlock
  · exact hWhole

/-! ## Pages -/

theorem isTop_rootBlock {layout : Node} {block : Element Unit}
    (hRoot : rootBlock d layout = some block) : block.IsTop d := by
  obtain ⟨e, hBuilt, rfl⟩ := Option.map_eq_some_iff.1 hRoot
  have hProper : e.unlabelled.Proper d :=
    (proper_map _ e).2 (proper_build layout rootPath 0 e hBuilt)
  cases hWrapper : layout.isWrapper with
  | true =>
    obtain ⟨hKind, hInner⟩ := kind_of_build_wrapper hWrapper hBuilt
    rw [if_pos hKind]
    exact ⟨hProper, (Element.map_kind _ e).trans hKind, (Element.map_inner _ e).trans hInner⟩
  | false =>
    have hWidget := (kind_of_build_leaf hWrapper hBuilt).1
    have hFills : Fills d [e.unlabelled] := by
      refine ⟨List.cons_ne_nil _ _, fun x hMem => ?_⟩
      rw [List.mem_singleton.1 hMem]
      exact ⟨hProper, .inl ((Element.map_kind _ e).trans hWidget)⟩
    have hKind : e.kind ≠ d.topLevel := by
      rw [hWidget]
      cases d <;> simp [Dialect.topLevel]
    rw [if_neg hKind]
    cases d with
    | container => exact ⟨proper_container () false [] hFills, rfl, rfl⟩
    | classic | classicSimple =>
      exact ⟨proper_holder (by simp) () () false [] hFills, rfl, rfl⟩

theorem isTop_passShape {block : Element Unit} (hTop : block.IsTop d) :
    ∀ x ∈ passShape d block, x.IsTop d := by
  intro x hMem
  cases d with
  | container =>
    rw [List.mem_singleton.1 hMem]
    exact hTop
  | classic =>
    rw [List.mem_singleton.1 hMem]
    exact isTop_flatten hTop
  | classicSimple =>
    obtain ⟨e, hElement, rfl⟩ := List.mem_map.1 hMem
    exact isTop_flatten (isTop_splitShape (by simp) hTop e hElement)

/-- All blocks of a page may stand at the top. -/
theorem isTop_content {layout : Node} {e : Element String} (hMem : e ∈ content d layout) :
    e.IsTop d := by
  have hShape : e.unlabelled ∈ pageShape d layout := by
    rw [← unlabelled_content]
    exact List.mem_map_of_mem hMem
  obtain ⟨block, hRoot, hBlock⟩ := List.mem_flatMap.1 hShape
  have hTop := isTop_passShape (isTop_rootBlock (Option.mem_toList.1 hRoot)) _ hBlock
  exact ⟨(proper_map _ e).1 hTop.proper, (Element.map_kind _ e).symm.trans hTop.kind,
    (Element.map_inner _ e).symm.trans hTop.outer⟩

/-- Every page follows the grammar of its dialect: only blocks at the top, every
element obeying its rule, and no block without content. -/
theorem grammar_exportLayout (layout : Node) (title : String) (d : Dialect) :
    (∀ e ∈ (exportLayout (some layout) title d).content,
        e.kind = d.topLevel ∧ e.inner = false) ∧
      (∀ e ∈ Element.preorderAll (exportLayout (some layout) title d).content, e.Obeys d) ∧
      ((exportLayout (some layout) title d).content = [] ↔ layout.hasContent = false) ∧
      (d = .classicSimple ∨ (exportLayout (some layout) title d).content.length =
        if layout.hasContent then 1 else 0) := by
  obtain ⟨hEmpty, hLength⟩ := length_content (d := d) layout
  refine ⟨fun e hMem => ?_, fun e hMem => ?_, hEmpty, hLength⟩
  · have hTop := isTop_content hMem
    exact ⟨hTop.kind, hTop.outer⟩
  · rw [Element.preorderAll_eq] at hMem
    obtain ⟨block, hBlock, hInside⟩ := List.mem_flatMap.1 hMem
    exact (isTop_content hBlock).proper e hInside

end Pagewright.Page
