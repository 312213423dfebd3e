import Pagewright.Proofs.Classify.Background
import Pagewright.Proofs.Layout.Overlay

/-!
# The layers of a classified node

What a node reads as gets its style from several places: the arrangement of the
node, its looks and those of its background, the typography of its label. In a
stack there is also how the node takes its height. Each builder lays these over
each other in steps of its own. Here every node has one list of layers, from the
bottom up, and what it reads as has the style of this list.

## Main results

* `style_build?`, `style_arrange?` — the style of what a builder makes.
* `style_withSizing` — the sizing of a stack lies below all other layers.
* `overlaid_styles` — how styles lie over each other, in general and in what a
  design is classified as.
-/

namespace Pagewright.Classify

open Design (Thresholds)
open Layout (Style)
open Layout.Style (pile)

variable {thresholds : Thresholds} {node : Design.Node} {members : List Member}
  {layout : Layout.Node}

/-! ## Layers -/

/-- The looks of a background, if there is one. -/
def backdrop (background : Option Member) : List Style :=
  background.toList.map fun member => Design.visualStyle member.node

/-- The arrangement of the columns of a row. -/
def rowArrangement (thresholds : Thresholds) (node : Design.Node) (members : List Member) :
    Style :=
  let content := (absorbBackground thresholds node members).1
  let layout := Design.layoutStyle node .row
  (arrangeRow thresholds node layout (slots (availableWidth node content.length layout) content)).2

/-- The layers of a familiar shape. The background of a card lies below the looks of the
card itself, that of a control above them. -/
def Rule.layers (thresholds : Thresholds) (node : Design.Node) (members : List Member) :
    Rule → List Style
  | .card =>
    backdrop (splitBackground thresholds node members).2 ++ [Design.visualStyle node]
  | .input | .button =>
    [Design.layoutStyle node (Design.ownDirection node), Design.visualStyle node]
      ++ backdrop (splitBackground thresholds node members).2
      ++ (control? thresholds node members).toList.map (Design.textStyle ·.text)
  | .nav => [Design.layoutStyle node .row, Design.visualStyle node]

/-- The layers of an arrangement: how the content is placed, and the looks of the node
or, where it has none, of the background that it absorbs. -/
def arrangeLayers (thresholds : Thresholds) (node : Design.Node) (members : List Member) :
    List Style :=
  let looks := Design.visualStyle node :: backdrop (absorbed? thresholds node members)
  match node.layoutMode with
  | .horizontal => rowArrangement thresholds node members :: looks
  | .vertical => Design.layoutStyle node .column :: looks
  | .free => looks

/-- The first rule that applies to a node and does not decline. -/
def Rule.firstFit? (thresholds : Thresholds) (node : Design.Node) (members : List Member) :
    Option Rule :=
  Rule.all.find? fun rule =>
    rule.applies thresholds node members && (rule.build? thresholds node members).isSome

/-- The layers of what a node reads as, from the bottom up. -/
def layersOf (thresholds : Thresholds) (node : Design.Node) : List Style :=
  let members := membersOf thresholds node
  if node.isText then [Design.textStyle node]
  else if members.isEmpty then [{ borderRadius := Design.radiusCss node }]
  else match Rule.firstFit? thresholds node members with
    | some rule => rule.layers thresholds node members
    | none => arrangeLayers thresholds node members

/-! ## Looks -/

/-- The looks of a node, with its background over them, are two layers. -/
theorem controlVisual_eq_pile (node : Design.Node) (background : Option Member) :
    controlVisual node background = pile (Design.visualStyle node :: backdrop background) := by
  cases background with
  | none => exact (Style.overlay_empty _).symm
  | some background =>
    show (Design.visualStyle node).overlay (Design.visualStyle background.node) =
      (Design.visualStyle node).overlay (pile [Design.visualStyle background.node])
    rw [Style.pile_singleton]

/-- An arrangement takes on the looks of the background that it absorbs. -/
theorem absorbBackground_snd (thresholds : Thresholds) (node : Design.Node)
    (members : List Member) :
    (absorbBackground thresholds node members).2 =
      controlVisual node (absorbed? thresholds node members) := by
  unfold absorbBackground absorbed?
  simp only
  split
  · rfl
  · split <;> simp only [*, controlVisual]

/-! ## Builders -/

theorem style_text? (hText : text? thresholds node = some layout) :
    layout.style = (Design.textStyle node).toOption := by
  unfold text? at hText
  split at hText
  · cases hText
  · simp only at hText
    split at hText <;> exact Option.some.inj hText ▸ rfl

theorem style_image? (hImage : image? thresholds node = some layout) :
    layout.style = (Style.toOption { borderRadius := Design.radiusCss node }) := by
  unfold image? at hImage
  split at hImage
  · exact Option.some.inj hImage ▸ rfl
  · cases hImage

theorem style_card? (hCard : card? thresholds node members = some layout) :
    layout.style = (pile (Rule.card.layers thresholds node members)).toOption := by
  unfold card? at hCard
  split at hCard
  · rename_i others background hSplit
    simp only at hCard
    split at hCard
    · cases hCard
    · rw [← Option.some.inj hCard, Rule.layers, hSplit, Style.pile_append]
      show ((Design.visualStyle background.node).overlay (Design.visualStyle node)).toOption =
        ((pile [Design.visualStyle background.node]).overlay
          (pile [Design.visualStyle node])).toOption
      rw [Style.pile_singleton, Style.pile_singleton]
  · cases hCard

theorem controlStyle_eq {control : Control}
    (hControl : control? thresholds node members = some control) :
    controlStyle node control =
      (pile (Rule.button.layers thresholds node members)).toOption := by
  rw [controlStyle, control?_visual hControl, controlVisual_eq_pile, Rule.layers, hControl,
    Style.pile_append]
  show _ = (((Design.layoutStyle node _).overlay _).overlay
    (pile [Design.textStyle control.text])).toOption
  rw [Style.pile_singleton]
  rfl

theorem style_nav? (hNav : nav? node members = some layout) :
    layout.style = (pile (Rule.nav.layers thresholds node members)).toOption := by
  unfold nav? at hNav
  simp only at hNav
  split at hNav
  · cases hNav
  · rw [← Option.some.inj hNav, Rule.layers, Style.pile_cons, Style.pile_singleton]
    rfl

/-- What a rule makes has the style of the layers of the rule. -/
theorem style_build? {rule : Rule}
    (hBuilt : rule.build? thresholds node members = some layout) :
    layout.style = (pile (rule.layers thresholds node members)).toOption := by
  cases rule with
  | card => exact style_card? hBuilt
  -- Inputs and buttons are controls that differ in their kind alone.
  | input | button =>
    obtain ⟨control, hControl, rfl⟩ := Option.map_eq_some_iff.1 hBuilt
    exact controlStyle_eq hControl
  | nav => exact style_nav? hBuilt

theorem style_row? (hRow : row? thresholds node members = some layout) :
    layout.style = ((rowArrangement thresholds node members).overlay
      (absorbBackground thresholds node members).2).toOption := by
  unfold row? at hRow
  simp only at hRow
  split at hRow
  · cases hRow
  · rw [← Option.some.inj hRow]
    rfl

/-- What is gathered in a container has the style of the container. -/
theorem style_gather_container {style : Option Style} {parts : List Layout.Node}
    (hGather : gather (.container style) parts = some layout) : layout.style = style :=
  (gather_eq_some.1 hGather).2 ▸ rfl

/-- An arrangement has the style of its layers. -/
theorem style_arrange? (hArrange : arrange? thresholds node members = some layout) :
    layout.style = (pile (arrangeLayers thresholds node members)).toOption := by
  have hLooks : (absorbBackground thresholds node members).2 =
      pile (Design.visualStyle node :: backdrop (absorbed? thresholds node members)) := by
    rw [absorbBackground_snd, controlVisual_eq_pile]
  unfold arrange? at hArrange
  unfold arrangeLayers
  cases hMode : node.layoutMode with
  | horizontal =>
    rw [hMode] at hArrange
    rw [style_row? hArrange, hLooks]
    rfl
  | vertical =>
    rw [hMode] at hArrange
    have hGather : gather (.container ((Design.layoutStyle node .column).overlay
        (absorbBackground thresholds node members).2).toOption)
        (stackContent (absorbBackground thresholds node members).1) = some layout := hArrange
    rw [style_gather_container hGather, hLooks]
    rfl
  | free =>
    rw [hMode] at hArrange
    have hGather : gather (.container (absorbBackground thresholds node members).2.toOption)
        ((Design.groupIntoRows Member.node thresholds
          (absorbBackground thresholds node members).1).filterMap visualRow?) = some layout :=
      hArrange
    rw [style_gather_container hGather, hLooks]

/-! ## Whole nodes -/

/-- What the rules make is made by the first that applies and does not decline. -/
theorem firstMatch?_eq (thresholds : Thresholds) (node : Design.Node) (members : List Member) :
    Rule.firstMatch? thresholds node members =
      (Rule.firstFit? thresholds node members).bind (·.build? thresholds node members) := by
  unfold Rule.firstMatch? Rule.firstFit?
  induction Rule.all with
  | nil => rfl
  | cons rule rest ih =>
    rw [List.findSome?_cons, List.find?_cons]
    cases rule.applies thresholds node members with
    | false => exact ih
    | true =>
      cases hBuilt : rule.build? thresholds node members with
      | none => exact ih
      | some built => exact hBuilt.symm

theorem isSome_build?_of_firstFit? {rule : Rule}
    (hFit : Rule.firstFit? thresholds node members = some rule) :
    (rule.build? thresholds node members).isSome = true := by
  unfold Rule.firstFit? at hFit
  have hFits := List.find?_some hFit
  rw [Bool.and_eq_true] at hFits
  exact hFits.2

/-- What a node reads as has the style of its layers. -/
theorem style_classify (hLayout : classify thresholds node = some layout) :
    layout.style = (pile (layersOf thresholds node)).toOption := by
  rw [classify_eq_judge, judge] at hLayout
  unfold layersOf
  split at hLayout
  · rename_i hText
    rw [if_pos hText, Style.pile_singleton, style_text? hLayout]
  rename_i hText
  rw [if_neg hText]
  split at hLayout
  · rename_i hLeaf
    rw [if_pos hLeaf, Style.pile_singleton, style_image? hLayout]
  rename_i hInside
  rw [if_neg hInside]
  rw [firstMatch?_eq] at hLayout
  cases hFit : Rule.firstFit? thresholds node (membersOf thresholds node) with
  | none =>
    rw [hFit] at hLayout
    exact style_arrange? hLayout
  | some rule =>
    obtain ⟨built, hBuilt⟩ := Option.isSome_iff_exists.1 (isSome_build?_of_firstFit? hFit)
    rw [hFit, Option.bind_some, hBuilt] at hLayout
    exact style_build? (hBuilt.trans hLayout)

/-! ## Sizing -/

/-- In a stack the sizing of a child lies below all of its layers. -/
theorem style_withSizing {content : Layout.Node} {layers : List Style} (sizing : Style)
    (hContent : content.style = (pile layers).toOption) :
    (withSizing sizing content).style = (pile (sizing :: layers)).toOption := by
  rw [withSizing_eq, Layout.Node.style_withStyle, hContent, sizedStyle, Style.getD_toOption,
    Style.pile_cons]
  split
  · rename_i hSizing
    rw [of_decide_eq_true hSizing, Style.empty_overlay]
  · rename_i hSizing
    -- A sizing that says something is said by the whole as well, so the style is not left out.
    have hSome : ¬ (sizing.overlay (pile layers)).isEmpty = true := fun hEmpty =>
      hSizing ((Style.isEmpty_overlay_iff _ _).1 hEmpty).1
    rw [Style.toOption, if_neg hSome]

/-! ## Whole designs -/

/-- To lay one style over another is associative and idempotent, and the empty style counts
for nothing. Of the fields, which are all there is to a style, each has the upper value where
that is set and the lower one elsewhere; looks, typography and any content at all come from
one style or the other. So the style of what a node reads as is the same however its layers
are put together, and nothing is lost that only one of them sets; the same holds when a stack
puts its sizing of the node below them. -/
theorem overlaid_styles :
    Style.IsOverlay Style.overlay ∧
    (∀ s t : Style, (∀ field, s.get field = t.get field) → s = t) ∧
    ∀ (thresholds : Thresholds) (node : Design.Node), ∀ layout ∈ classify thresholds node,
      Style.Layered layout.style (layersOf thresholds node) ∧
      Style.Layered (withSizing (stackSizing node) layout).style
        (stackSizing node :: layersOf thresholds node) := by
  refine ⟨Style.isOverlay_overlay, fun s t => Style.ext_get, fun thresholds node layout hMem => ?_⟩
  have hStyle : layout.style = (pile (layersOf thresholds node)).toOption := style_classify hMem
  exact ⟨Style.layered_iff.2 hStyle, Style.layered_iff.2 (style_withSizing _ hStyle)⟩

/-- A button to buy, with a border around its label. -/
def buyButton : Json :=
  .obj [("children", .arr [
      .obj [("characters", .str "Buy"), ("style", .obj [("fontSize", .int 14)]),
        ("type", .str "TEXT")]]),
    ("itemSpacing", .int 8), ("layoutGrow", .int 1), ("layoutMode", .str "HORIZONTAL"),
    ("strokeWeight", .int 1),
    ("strokes", .arr [.obj [("type", .str "SOLID"),
      ("color", .obj [("b", .int 0), ("g", .int 0), ("r", .int 0)])]]),
    ("type", .str "FRAME")]

/-- The button has three layers: its gap is that of the arrangement, its border that of the
looks, and its font size that of the label. In a stack it also grows. -/
theorem overlaid_styles_buyButton :
    ∃ layout, classify {} (Design.readNode buyButton) = some layout ∧
      layersOf {} (Design.readNode buyButton) =
        [{ direction := some .row, gap := some 8.0 },
          { border := some "1px solid rgba(0,0,0,1)" }, { fontSize := some 14.0 }] ∧
      Style.Layered layout.style (layersOf {} (Design.readNode buyButton)) ∧
      Style.Layered (withSizing (stackSizing (Design.readNode buyButton)) layout).style
        (growing 1.0 :: layersOf {} (Design.readNode buyButton)) := by
  have hSome : (classify {} (Design.readNode buyButton)).isSome = true := by decide +kernel
  have hSizing : stackSizing (Design.readNode buyButton) = growing 1.0 := by decide +kernel
  obtain ⟨layout, hLayout⟩ := Option.isSome_iff_exists.1 hSome
  obtain ⟨hOwn, hSized⟩ := overlaid_styles.2.2 {} (Design.readNode buyButton) layout hLayout
  exact ⟨layout, hLayout, by decide +kernel, hOwn, hSizing ▸ hSized⟩

end Pagewright.Classify
