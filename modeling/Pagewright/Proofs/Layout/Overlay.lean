import Pagewright.Layout.Style

/-!
# Styles in layers

A style has twenty-five fields, and what is laid over another counts field by
field. Looking a field up tells everything about a style, so each law of
`overlay` is a law of single values: the upper value counts where it is set, and
the lower one elsewhere.

Since the way in which several layers are put together does not matter, a list
of layers has one style, in which each field has the value of the topmost layer
that sets it.

## Main results

* `Style.get_overlay`, `Style.ext_get` — layers count field by field, and a style
  is known by its fields.
* `isOverlay_overlay` — the laws of `overlay`.
* `Bracketing.merged_eq_pile` — the way in which layers are put together does not
  matter.
* `layered_iff` — what the style of several layers is.
-/

namespace Pagewright.Layout

namespace Style

/-! ## Fields -/

/-- A field of a style. -/
inductive Field where
  | direction
  | gap
  | padding
  | justify
  | align
  | alignSelf
  | flexGrow
  | flexShrink
  | flexBasis
  | flexBasisAuto
  | widthPx
  | widthPercent
  | minHeightPx
  | backgroundColor
  | border
  | borderRadius
  | boxShadow
  | fontFamily
  | fontSize
  | fontWeight
  | letterSpacing
  | lineHeightPx
  | textAlign
  | textTransform
  | color
  deriving DecidableEq, Repr

namespace Field

/-- The values that a field can have. -/
def Value : Field → Type
  | direction => Direction
  | padding => Padding
  | justify | align | alignSelf => Align
  | flexBasisAuto => Bool
  | fontWeight => UInt32
  | gap | flexGrow | flexShrink | flexBasis | widthPx | widthPercent | minHeightPx => Float
  | fontSize | letterSpacing | lineHeightPx => Float
  | backgroundColor | border | borderRadius | boxShadow => String
  | fontFamily | textAlign | textTransform | color => String

/-- The fields for background, border, radius and shadow. -/
def visual : List Field := [backgroundColor, border, borderRadius, boxShadow]

/-- The fields for a font, its size and weight, and the color of texts. -/
def typography : List Field := [fontFamily, fontSize, fontWeight, color]

end Field

/-- The value of a field. -/
def get (s : Style) : (field : Field) → Option field.Value
  | .direction => s.direction
  | .gap => s.gap
  | .padding => s.padding
  | .justify => s.justify
  | .align => s.align
  | .alignSelf => s.alignSelf
  | .flexGrow => s.flexGrow
  | .flexShrink => s.flexShrink
  | .flexBasis => s.flexBasis
  | .flexBasisAuto => s.flexBasisAuto
  | .widthPx => s.widthPx
  | .widthPercent => s.widthPercent
  | .minHeightPx => s.minHeightPx
  | .backgroundColor => s.backgroundColor
  | .border => s.border
  | .borderRadius => s.borderRadius
  | .boxShadow => s.boxShadow
  | .fontFamily => s.fontFamily
  | .fontSize => s.fontSize
  | .fontWeight => s.fontWeight
  | .letterSpacing => s.letterSpacing
  | .lineHeightPx => s.lineHeightPx
  | .textAlign => s.textAlign
  | .textTransform => s.textTransform
  | .color => s.color

variable {s t : Style}

/-- A style is known by its fields; no part of the record is left out of them. -/
theorem ext_get (hFields : ∀ field, s.get field = t.get field) : s = t := by
  cases s
  cases t
  rw [Style.mk.injEq]
  exact ⟨hFields .direction, hFields .gap, hFields .padding, hFields .justify, hFields .align,
    hFields .alignSelf, hFields .flexGrow, hFields .flexShrink, hFields .flexBasis,
    hFields .flexBasisAuto, hFields .widthPx, hFields .widthPercent, hFields .minHeightPx,
    hFields .backgroundColor, hFields .border, hFields .borderRadius, hFields .boxShadow,
    hFields .fontFamily, hFields .fontSize, hFields .fontWeight, hFields .letterSpacing,
    hFields .lineHeightPx, hFields .textAlign, hFields .textTransform, hFields .color⟩

theorem get_empty (field : Field) : empty.get field = none := by
  cases field <;> rfl

theorem get_overlay (below top : Style) (field : Field) :
    (below.overlay top).get field = layer (top.get field) (below.get field) := by
  cases field <;> rfl

theorem isEmpty_iff : s.isEmpty = true ↔ ∀ field, s.get field = none := by
  rw [isEmpty, decide_eq_true_iff]
  refine ⟨fun hEmpty field => hEmpty ▸ get_empty field, fun hUnset => ext_get fun field => ?_⟩
  rw [hUnset, get_empty]

theorem hasVisual_eq (s : Style) :
    s.hasVisual = Field.visual.any fun field => (s.get field).isSome := by
  simp only [hasVisual, Field.visual, List.any_cons, List.any_nil, Bool.or_false, Bool.or_assoc]
  rfl

theorem hasTypography_eq (s : Style) :
    s.hasTypography = Field.typography.any fun field => (s.get field).isSome := by
  simp only [hasTypography, Field.typography, List.any_cons, List.any_nil, Bool.or_false,
    Bool.or_assoc]
  rfl

/-! ## Two layers -/

theorem layer_eq_ite {α : Type} (top below : Option α) :
    layer top below = if top.isSome then top else below := by
  cases top <;> rfl

theorem layer_eq_none_iff {α : Type} {top below : Option α} :
    layer top below = none ↔ below = none ∧ top = none := by
  cases top <;> simp [layer]

theorem isSome_layer {α : Type} (top below : Option α) :
    (layer top below).isSome = (below.isSome || top.isSome) := by
  cases top <;> simp [layer]

/-- Some of the fields are set exactly if they are in one of the layers. -/
theorem any_isSome_overlay (fields : List Field) (below top : Style) :
    (fields.any fun field => ((below.overlay top).get field).isSome) =
      ((fields.any fun field => (below.get field).isSome) ||
        fields.any fun field => (top.get field).isSome) := by
  induction fields with
  | nil => rfl
  | cons field rest ih =>
    rw [List.any_cons, ih, get_overlay, isSome_layer, List.any_cons, List.any_cons]
    ac_rfl

theorem isEmpty_overlay_iff (below top : Style) :
    (below.overlay top).isEmpty = true ↔ below.isEmpty = true ∧ top.isEmpty = true := by
  simp only [isEmpty_iff, get_overlay, layer_eq_none_iff, forall_and]

/-- What it means that an operation lays one style over another. -/
structure IsOverlay (merge : Style → Style → Style) : Prop where
  assoc : ∀ a b c, merge (merge a b) c = merge a (merge b c)
  empty_below : ∀ a, merge empty a = a
  empty_above : ∀ a, merge a empty = a
  self : ∀ a, merge a a = a
  get_eq : ∀ a b field,
    (merge a b).get field = if (b.get field).isSome then b.get field else a.get field
  hasVisual_iff : ∀ a b,
    (merge a b).hasVisual = true ↔ a.hasVisual = true ∨ b.hasVisual = true
  hasTypography_iff : ∀ a b,
    (merge a b).hasTypography = true ↔ a.hasTypography = true ∨ b.hasTypography = true
  isEmpty_iff : ∀ a b, (merge a b).isEmpty = true ↔ a.isEmpty = true ∧ b.isEmpty = true

theorem isOverlay_overlay : IsOverlay overlay where
  assoc := overlay_assoc
  empty_below := empty_overlay
  empty_above := overlay_empty
  self := overlay_self
  get_eq a b field := by rw [get_overlay, layer_eq_ite]
  hasVisual_iff a b := by
    simp only [hasVisual_eq, any_isSome_overlay, Bool.or_eq_true]
  hasTypography_iff a b := by
    simp only [hasTypography_eq, any_isSome_overlay, Bool.or_eq_true]
  isEmpty_iff := isEmpty_overlay_iff

/-! ## Several layers -/

/-- Layers from the bottom up, laid over each other. -/
def pile (layers : List Style) : Style := layers.foldr overlay empty

theorem pile_cons (layer : Style) (above : List Style) :
    pile (layer :: above) = layer.overlay (pile above) := rfl

theorem pile_singleton (layer : Style) : pile [layer] = layer := overlay_empty layer

theorem pile_append (below above : List Style) :
    pile (below ++ above) = (pile below).overlay (pile above) := by
  induction below with
  | nil => exact (empty_overlay (pile above)).symm
  | cons layer rest ih => rw [List.cons_append, pile_cons, pile_cons, ih, overlay_assoc]

/-- The topmost layer counts that sets a field. -/
theorem get_pile (layers : List Style) (field : Field) :
    (pile layers).get field = layers.reverse.findSome? (·.get field) := by
  induction layers with
  | nil => exact get_empty field
  | cons layer above ih =>
    rw [pile_cons, get_overlay, ih, List.reverse_cons, List.findSome?_append,
      List.findSome?_singleton]
    exact Option.orElse_eq_or

theorem isEmpty_pile_iff (layers : List Style) :
    (pile layers).isEmpty = true ↔ ∀ layer ∈ layers, layer.isEmpty = true := by
  induction layers with
  | nil => exact iff_of_true (isEmpty_iff.2 get_empty) (List.forall_mem_nil _)
  | cons layer above ih => rw [pile_cons, isEmpty_overlay_iff, ih, List.forall_mem_cons]

/-- A way to lay several styles over each other, two at a time. -/
inductive Bracketing where
  | single (style : Style)
  | joined (below top : Bracketing)

namespace Bracketing

/-- The styles that are laid over each other, from the bottom up. -/
def layers : Bracketing → List Style
  | single style => [style]
  | joined below top => below.layers ++ top.layers

/-- The style that they come to. -/
def merged : Bracketing → Style
  | single style => style
  | joined below top => below.merged.overlay top.merged

theorem merged_eq_pile (t : Bracketing) : t.merged = pile t.layers := by
  induction t with
  | single style => exact (pile_singleton style).symm
  | joined below top ihBelow ihTop => rw [merged, layers, pile_append, ihBelow, ihTop]

end Bracketing

/-! ## What is kept of layers -/

theorem toOption_eq_none_iff : s.toOption = none ↔ s.isEmpty = true := by
  simp only [toOption, ite_eq_left_iff, reduceCtorEq, imp_false, Bool.not_eq_true,
    Bool.not_eq_false]

theorem getD_toOption (s : Style) : s.toOption.getD empty = s := by
  unfold toOption
  split
  · rename_i hEmpty
    exact (of_decide_eq_true hEmpty).symm
  · rfl

/-- A style that is left out because it says nothing has no fields. -/
theorem bind_get_toOption (s : Style) (field : Field) :
    (s.toOption.bind fun own => own.get field) = s.get field := by
  unfold toOption
  split
  · rename_i hEmpty
    exact (isEmpty_iff.1 hEmpty field).symm
  · rfl

/-- A style, if there is one, is what layers from the bottom up come to. -/
structure Layered (style : Option Style) (layers : List Style) : Prop where
  /-- The way in which they are laid over each other does not matter. -/
  merged_eq : ∀ t : Bracketing, t.layers = layers → t.merged.toOption = style
  /-- The topmost layer counts that sets a field. -/
  get_eq : ∀ field,
    (style.bind fun own => own.get field) = layers.reverse.findSome? (·.get field)
  /-- What only one layer sets is not lost. -/
  get_of_alone : ∀ field below layer above, layers = below ++ layer :: above →
    (∀ other ∈ below ++ above, other.get field = none) →
      (style.bind fun own => own.get field) = layer.get field
  eq_none_iff : style = none ↔ ∀ layer ∈ layers, layer.isEmpty = true

theorem findSome?_of_alone {layers below above : List Style} {layer : Style} {field : Field}
    (hLayers : layers = below ++ layer :: above)
    (hAlone : ∀ other ∈ below ++ above, other.get field = none) :
    layers.reverse.findSome? (·.get field) = layer.get field := by
  have hBelow : below.reverse.findSome? (·.get field) = none :=
    List.findSome?_eq_none_iff.2 fun other hMem =>
      hAlone other (List.mem_append_left above (List.mem_reverse.1 hMem))
  have hAbove : above.reverse.findSome? (·.get field) = none :=
    List.findSome?_eq_none_iff.2 fun other hMem =>
      hAlone other (List.mem_append_right below (List.mem_reverse.1 hMem))
  rw [hLayers, List.reverse_append, List.reverse_cons, List.append_assoc,
    List.findSome?_append, List.findSome?_append, List.findSome?_singleton, hAbove, hBelow,
    Option.none_or, Option.or_none]

theorem layered_pile (layers : List Style) : Layered (pile layers).toOption layers where
  merged_eq t hLayers := by rw [t.merged_eq_pile, hLayers]
  get_eq field := by rw [bind_get_toOption, get_pile]
  get_of_alone field below layer above hLayers hAlone := by
    rw [bind_get_toOption, get_pile, findSome?_of_alone hLayers hAlone]
  eq_none_iff := by rw [toOption_eq_none_iff, isEmpty_pile_iff]

/-- Layers leave no choice of a style. -/
theorem layered_iff {style : Option Style} {layers : List Style} :
    Layered style layers ↔ style = (pile layers).toOption := by
  refine ⟨fun hLayered => ?_, fun hStyle => hStyle ▸ layered_pile layers⟩
  cases style with
  | none =>
    rw [eq_comm, toOption_eq_none_iff, isEmpty_pile_iff]
    exact hLayered.eq_none_iff.1 rfl
  | some own =>
    -- The fields are those of the layers, and these say something, as there is a style.
    have hOwn : own = pile layers := ext_get fun field => by
      rw [get_pile, ← hLayered.get_eq field, Option.bind_some]
    have hSome : ¬ (pile layers).isEmpty = true := by
      rw [isEmpty_pile_iff, ← hLayered.eq_none_iff]
      exact Option.some_ne_none own
    rw [toOption, if_neg hSome, hOwn]

end Style

end Pagewright.Layout
