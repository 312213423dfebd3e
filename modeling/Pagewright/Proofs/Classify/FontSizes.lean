import Pagewright.Proofs.Classify.Leaves
import Pagewright.Proofs.Layout.Overlay

/-!
# Two font sizes of a text

Whether a text is a heading, and of which level, goes by its resolved font size:
its own size if that is positive, else the first positive override, else zero. A
size is also part of the style of the text, and there the text's own size comes
first whatever it is. So the style has the resolved size, or none where that is
zero, exactly as long as the text has no size of its own that is not positive.
Otherwise the style has that size, although the level may be that of an override.

Headings and texts of a classified layout have the level of the one size and show
the other, and nothing on the way up changes that.

## Main results

* `textStyle_fontSize_eq_iff` — when the style has the resolved size.
* `letterings_of_classify` — the headings and texts of a classified design.
* `fontSizes_of_classify` — all of this for one design.
* `zeroSizedTitle_shows_zero` — a heading that is shown in the size zero.
-/

namespace Pagewright.Design

variable (node : Node)

/-- The size that a text is given itself. -/
def ownFontSize? : Option Float := node.typeStyle.bind (·.fontSize)

/-- The resolved size of a text, where it is positive. -/
def resolvedFontSize? : Option Float :=
  if 0.0 < textFontSize node then some (textFontSize node) else none

/-- The resolved size is positive, or it is zero because none is known. -/
theorem textFontSize_pos_or_eq_zero : 0.0 < textFontSize node ∨ textFontSize node = 0.0 := by
  unfold textFontSize
  cases hSize : (((node.typeStyle.bind (·.fontSize)).filter fun size => 0.0 < size)
      <|> overrideFontSize? node) with
  | none => exact .inr rfl
  | some size =>
    left
    show 0.0 < size
    rcases Option.or_eq_some_iff.1 ((Option.orElse_eq_or).symm.trans hSize) with
      hOwn | ⟨-, hOverride⟩
    · exact of_decide_eq_true (Option.filter_eq_some_iff.1 hOwn).2
    · exact of_decide_eq_true (List.find?_some (p := fun size => decide (0.0 < size)) hOverride)

/-- An own size that is positive is the resolved one. -/
theorem textFontSize_of_own {size : Float} (hOwn : ownFontSize? node = some size)
    (hPositive : 0.0 < size) : textFontSize node = size := by
  rw [ownFontSize?] at hOwn
  rw [textFontSize, hOwn, Option.filter_some, if_pos (decide_eq_true hPositive)]
  rfl

/-- A text shows its own size. -/
theorem textStyle_fontSize_of_own {size : Float} (hOwn : ownFontSize? node = some size) :
    (textStyle node).fontSize = some size := by
  rw [ownFontSize?] at hOwn
  show shownFontSize node = some size
  rw [shownFontSize, hOwn]

/-- A text without a size of its own shows the resolved one. -/
theorem textStyle_fontSize_of_none (hOwn : ownFontSize? node = none) :
    (textStyle node).fontSize = resolvedFontSize? node := by
  rw [ownFontSize?] at hOwn
  show shownFontSize node = resolvedFontSize? node
  rw [shownFontSize, hOwn]
  rfl

/-- A text shows the resolved size unless its own size is there but not positive. -/
theorem textStyle_fontSize_eq_iff :
    (textStyle node).fontSize = resolvedFontSize? node ↔
      ∀ own ∈ ownFontSize? node, 0.0 < own := by
  cases hOwn : ownFontSize? node with
  | none =>
    rw [textStyle_fontSize_of_none node hOwn]
    exact iff_of_true rfl nofun
  | some size =>
    rw [textStyle_fontSize_of_own node hOwn, resolvedFontSize?]
    constructor
    · intro hSame own hMem
      rw [← Option.some.inj hMem]
      by_cases hResolved : 0.0 < textFontSize node
      · rw [if_pos hResolved] at hSame
        rw [Option.some.inj hSame]
        exact hResolved
      · rw [if_neg hResolved] at hSame
        cases hSame
    · intro hPositive
      have hSize := hPositive size rfl
      rw [textFontSize_of_own node hOwn hSize, if_pos hSize]

end Pagewright.Design

namespace Pagewright.Layout

/-- What there is to a heading or text: what it says, its level and its size. -/
structure Lettering where
  content : String
  level : Option UInt8
  fontSize : Option Float
  deriving DecidableEq

/-- The font size of a style, if there is one. -/
def fontSizeOf (style : Option Style) : Option Float := style.bind (·.fontSize)

namespace Node

/-- The lettering of a heading or text. -/
def lettering? : Node → Option Lettering
  | .heading content level style => some ⟨content, some level, fontSizeOf style⟩
  | .text content style => some ⟨content, none, fontSizeOf style⟩
  | _ => none

/-- Another style with the same font size does not change the lettering. -/
theorem lettering?_withStyle {node : Node} {style : Option Style}
    (hSize : fontSizeOf style = fontSizeOf node.style) :
    (node.withStyle style).lettering? = node.lettering? := by
  cases node with
  | heading content level own =>
    show some (Lettering.mk content (some level) (fontSizeOf style)) = _
    rw [hSize]
    rfl
  | text content own =>
    show some (Lettering.mk content none (fontSizeOf style)) = _
    rw [hSize]
    rfl
  | _ => rfl

end Node

theorem fontSizeOf_toOption (style : Style) : fontSizeOf style.toOption = style.fontSize :=
  style.bind_get_toOption .fontSize

end Pagewright.Layout

namespace Pagewright.Classify

open Design (Thresholds textFontSize textStyle ownFontSize? resolvedFontSize?)
open Layout (Lettering Style fontSizeOf)

variable {thresholds : Thresholds} {node : Design.Node} {layout leaf : Layout.Node}

/-! ## Letterings -/

/-- The lettering of a text node: the level goes by the resolved size, and the size shown
is that of the style. -/
def letteringOf (thresholds : Thresholds) (source : Design.Node) : Lettering where
  content := source.text
  level := thresholds.headingLevel? (textFontSize source)
  fontSize := (textStyle source).fontSize

theorem lettering?_text? (hText : text? thresholds node = some leaf) :
    leaf.lettering? = some (letteringOf thresholds node) := by
  have hSize := Layout.fontSizeOf_toOption (textStyle node)
  unfold text? at hText
  split at hText
  · cases hText
  · simp only at hText
    split at hText
    · rename_i level hLevel
      rw [← Option.some.inj hText, Layout.Node.lettering?, letteringOf, hLevel, hSize]
    · rename_i hLevel
      rw [← Option.some.inj hText, Layout.Node.lettering?, letteringOf, hLevel, hSize]

theorem lettering?_of_isWrapper (hWrapper : layout.isWrapper = true) :
    layout.lettering? = none := by
  cases layout with
  | «section» | container | columns => rfl
  | _ => cases hWrapper

/-- A stack sizes its children by width and height alone. -/
theorem fontSize_stackSizing (child : Design.Node) : (stackSizing child).fontSize = none := by
  unfold stackSizing
  simp only
  split <;> rfl

theorem lettering?_withSizing (child : Design.Node) (leaf : Layout.Node) :
    (withSizing (stackSizing child) leaf).lettering? = leaf.lettering? := by
  rw [withSizing_eq]
  refine Layout.Node.lettering?_withStyle ?_
  unfold sizedStyle
  split
  · rfl
  · show Style.layer (leaf.style.getD Style.empty).fontSize (stackSizing child).fontSize = _
    rw [fontSize_stackSizing, Style.layer_none]
    cases leaf.style <;> rfl

/-- Only texts read as headings and texts. -/
theorem lettering?_of_classify (hLeaf : classify thresholds node = some leaf) :
    leaf.lettering? = none ∨
      node.isText = true ∧ leaf.lettering? = some (letteringOf thresholds node) := by
  rcases classify_cases hLeaf with ⟨hText, hLetters⟩ | hImage | ⟨rule, -, hBuilt⟩ | hArrange
  · exact .inr ⟨hText, lettering?_text? hLetters⟩
  · left
    unfold image? at hImage
    split at hImage
    · exact Option.some.inj hImage ▸ rfl
    · cases hImage
  · left
    cases rule with
    | card =>
      obtain ⟨style, others, background, -, -, -, rfl⟩ := card?_eq_some hBuilt
      rfl
    | input | button =>
      obtain ⟨control, -, rfl⟩ := Option.map_eq_some_iff.1 hBuilt
      rfl
    | nav =>
      obtain ⟨style, hNav⟩ := nav?_eq node (membersOf thresholds node)
      rw [Rule.build?, hNav] at hBuilt
      obtain ⟨-, rfl⟩ := gather_eq_some.1 hBuilt
      rfl
  · exact .inl (lettering?_of_isWrapper (isWrapper_arrange? hArrange))

/-- Every heading or text of a classified design is that of a text in the design. -/
theorem letterings_of_classify (thresholds : Thresholds) (node : Design.Node) :
    ∀ layout, classify thresholds node = some layout → ∀ leaf ∈ layout.leaves,
      ∃ source ∈ node.preorder, ∀ letters ∈ leaf.lettering?,
        source.isText = true ∧ letters = letteringOf thresholds source := by
  refine leaves_of_classify (fun source leaf hLeaf _ letters hMem => ?_)
    (fun source leaf child hHolds letters hMem => ?_) node
  · rcases lettering?_of_classify hLeaf with hNone | ⟨hText, hLetters⟩
    · rw [hNone] at hMem
      cases hMem
    · rw [hLetters] at hMem
      exact ⟨hText, (Option.some.inj hMem).symm⟩
  · rw [lettering?_withSizing] at hMem
    exact hHolds letters hMem

/-- A text whose own size is positive or missing shows the size that its level goes by. -/
theorem letteringOf_of_own {source : Design.Node}
    (hOwn : ∀ own ∈ ownFontSize? source, 0.0 < own) :
    ∀ size ∈ (letteringOf thresholds source).fontSize,
      0.0 < size ∧ (letteringOf thresholds source).level = thresholds.headingLevel? size := by
  intro size hMem
  have hShown : resolvedFontSize? source = some size :=
    ((Design.textStyle_fontSize_eq_iff source).2 hOwn).symm.trans hMem
  obtain ⟨hPositive, hSize⟩ := Option.ite_none_right_eq_some.1 hShown
  rw [← Option.some.inj hSize]
  exact ⟨hPositive, rfl⟩

/-- The style of a text has the resolved font size, or none where that is zero, exactly
if the text has no size of its own that is not positive; otherwise it has that size.
Every heading or text of the layout of a design is that of a text in the design, with
the level that the resolved size has and the size that the style has, which are one and
the same positive size, if any, under the same condition. -/
theorem fontSizes_of_classify (thresholds : Thresholds) (node : Design.Node) :
    (0.0 < textFontSize node ∨ textFontSize node = 0.0) ∧
    ((textStyle node).fontSize = resolvedFontSize? node ↔
      ∀ own ∈ ownFontSize? node, 0.0 < own) ∧
    (∀ own ∈ ownFontSize? node, ¬ 0.0 < own → (textStyle node).fontSize = some own) ∧
    ∀ layout ∈ classify thresholds node, ∀ leaf ∈ layout.leaves, ∀ letters ∈ leaf.lettering?,
      ∃ source ∈ node.preorder, source.isText = true ∧
        letters = letteringOf thresholds source ∧
        ((∀ own ∈ ownFontSize? source, 0.0 < own) → ∀ size ∈ letters.fontSize,
          0.0 < size ∧ letters.level = thresholds.headingLevel? size) := by
  refine ⟨Design.textFontSize_pos_or_eq_zero node, Design.textStyle_fontSize_eq_iff node,
    fun own hOwn _ => Design.textStyle_fontSize_of_own node hOwn, ?_⟩
  intro layout hLayout leaf hLeaf letters hLetters
  obtain ⟨source, hSource, hHolds⟩ :=
    letterings_of_classify thresholds node layout hLayout leaf hLeaf
  obtain ⟨hText, rfl⟩ := hHolds letters hLetters
  exact ⟨source, hSource, hText, rfl, letteringOf_of_own⟩

/-- A title whose own size is zero while a part of it is large. -/
def zeroSizedTitle : Json :=
  .obj [("characters", .str "Sale"), ("style", .obj [("fontSize", .int 0)]),
    ("styleOverrideTable", .obj [("1", .obj [("fontSize", .int 24)])]), ("type", .str "TEXT")]

/-- The large part makes the title a heading, which is then shown in the size zero. -/
theorem zeroSizedTitle_shows_zero :
    (classify {} (Design.readNode zeroSizedTitle)).bind Layout.Node.lettering? =
        some ⟨"Sale", some 2, some 0.0⟩ ∧
      resolvedFontSize? (Design.readNode zeroSizedTitle) = some 24.0 ∧
      (textStyle (Design.readNode zeroSizedTitle)).fontSize ≠
        resolvedFontSize? (Design.readNode zeroSizedTitle) := by
  decide +kernel

end Pagewright.Classify
