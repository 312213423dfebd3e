import Mathlib.Algebra.GroupWithZero.Nat
import Mathlib.Data.List.Infix
import Pagewright.Preview.Document
import Pagewright.Proofs.Layout.Tree
import Pagewright.Proofs.Preview.Markup

/-!
# Previews are read as they were built

The body of a preview is the text of an orderly tree, so it is read back as
that tree whatever the strings of the layout say. None of its tags is the tag
of the container, and as a tag that stands in markup is one of its tags, the
container stands in the document once.

## Main results

* `renderAll_eq`, `renderColumns_eq` — the markup of lists of nodes and columns.
* `render_induct` — what holds of the elements of leaves and around them holds of a preview.
* `orderly_of_mem_render` — the markup of a layout is orderly.
* `occurrences_lines` — occurrences in lines are counted line by line.
* `occurrences_body` — no string of a layout looks like the container.
* `readMarkup_body` — the body is read back, and the container is there once.
-/

namespace Pagewright.Preview

open Layout

/-! ## The markup of a layout -/

theorem renderAll_eq (nodes : List Node) : renderAll nodes = nodes.filterMap render := by
  induction nodes with
  | nil => rfl
  | cons node rest ih =>
    rw [renderAll, ih, List.filterMap_cons]
    cases render node <;> rfl

/-- The element of a column around the markup of its children. -/
def renderColumn (column : Column) : Markup :=
  .element "div"
    (withInline [⟨"class", "col"⟩] (inlineCss false (some (columnStyle column.style))))
    (renderAll column.children)

theorem renderColumns_eq (entries : List Column) :
    renderColumns entries = (entries.filter Column.hasContent).map renderColumn := by
  induction entries with
  | nil => rfl
  | cons column rest ih =>
    obtain ⟨style, children⟩ := column
    rw [renderColumns, List.filter_cons, ih, Column.hasContent]
    split <;> rfl

theorem render_leaf {leaf : Node} (hLeaf : leaf.isWrapper = false) :
    render leaf = if leaf.isUnknown || leaf.hasContent then some (renderLeaf leaf) else none := by
  cases leaf with
  | «section» | container | columns => cases hLeaf
  | _ => simp only [render]

/-- What holds of the elements of leaves, and of a division as soon as it holds
of everything in it, holds of the markup of every layout. -/
theorem render_induct {motive : Markup → Prop}
    (atLeaf : ∀ leaf : Node, motive (renderLeaf leaf))
    (inDivision : ∀ kind ∈ ["section", "row", "col"], ∀ css children,
      (∀ child ∈ children, motive child) →
      motive (.element "div" (withInline [⟨"class", kind⟩] css) children))
    (layout : Node) : ∀ tree ∈ render layout, motive tree := by
  have inBlock {children : List Node} (ih : ∀ child ∈ children, ∀ tree ∈ render child, motive tree)
      {kind : String} (hKind : kind ∈ ["section", "row", "col"]) (css : String) :
      motive (.element "div" (withInline [⟨"class", kind⟩] css) (renderAll children)) := by
    refine inDivision kind hKind css _ fun tree hMem => ?_
    rw [renderAll_eq] at hMem
    obtain ⟨child, hChild, hTree⟩ := List.mem_filterMap.1 hMem
    exact ih child hChild tree hTree
  induction layout using Node.induct with
  | inSection style children ih | inContainer style children ih =>
    intro tree hMem
    rw [render] at hMem
    split at hMem
    · obtain rfl := Option.some.inj hMem
      exact inBlock ih (by decide) _
    · cases hMem
  | inColumns style entries ih =>
    intro tree hMem
    rw [render] at hMem
    split at hMem
    · obtain rfl := Option.some.inj hMem
      refine inDivision "row" (by decide) _ _ fun child hChild => ?_
      rw [renderColumns_eq] at hChild
      obtain ⟨column, hColumn, rfl⟩ := List.mem_map.1 hChild
      exact inBlock (ih column (List.mem_filter.1 hColumn).1) (by decide) _
    · cases hMem
  | atLeaf leaf hLeaf =>
    intro tree hMem
    rw [render_leaf hLeaf] at hMem
    split at hMem
    · obtain rfl := Option.some.inj hMem
      exact atLeaf leaf
    · cases hMem

/-! ## Orderly markup -/

/-- The attributes of an element have proper names if those in front of its style do. -/
theorem isName_withInline {attributes : List Attribute} (names : List String)
    (hNames : ∀ name ∈ names, IsName name) (hAttributes : attributes.map Attribute.name = names)
    (css : String) : ∀ a ∈ withInline attributes css, IsName a.name := by
  have hOwn : ∀ a ∈ attributes, IsName a.name := fun a hMem =>
    hNames a.name (hAttributes ▸ List.mem_map_of_mem hMem)
  unfold withInline
  split
  · exact hOwn
  · have hStyle : IsName "style" := by decide
    exact List.forall_mem_append.2 ⟨hOwn, List.forall_mem_singleton.2 hStyle⟩

theorem headingTag_mem (level : UInt8) : headingTag level ∈ ["h1", "h2", "h3"] := by
  have hRange : max 1 (min 3 level.toNat) ∈ [1, 2, 3] := by
    simp only [List.mem_cons, List.not_mem_nil, or_false]
    omega
  rw [headingTag]
  generalize max 1 (min 3 level.toNat) = n at hRange
  revert n
  decide

theorem orderly_renderItem (item : NavItem) : (renderItem item).Orderly :=
  .leaf rfl (by decide) (isName_withInline ["href"] (by decide) rfl _)

theorem orderly_renderLeaf (leaf : Node) : (renderLeaf leaf).Orderly := by
  cases leaf with
  | heading content level style =>
    have hTag := headingTag_mem level
    have hProper : ∀ tag ∈ ["h1", "h2", "h3"], isVoid tag = false ∧ IsName tag := by decide
    exact .leaf (hProper _ hTag).1 (hProper _ hTag).2 (isName_withInline [] nofun rfl _)
  | text content style => exact .leaf rfl (by decide) (isName_withInline [] nofun rfl _)
  | image src alt style =>
    exact .void rfl (by decide) (isName_withInline ["src", "alt"] (by decide) rfl _)
  | button label href style =>
    exact .leaf rfl (by decide) (isName_withInline ["class", "href"] (by decide) rfl _)
  | input placeholder style =>
    exact .void rfl (by decide) (isName_withInline ["type", "placeholder"] (by decide) rfl _)
  | nav style items =>
    refine .branch rfl (by decide) (isName_withInline [] nofun rfl _) fun child hMem => ?_
    obtain ⟨item, -, rfl⟩ := List.mem_map.1 hMem
    exact orderly_renderItem item
  | _ => exact .leaf rfl (by decide) nofun

theorem orderly_of_mem_render (layout : Node) : ∀ tree ∈ render layout, tree.Orderly :=
  render_induct orderly_renderLeaf
    (fun kind _ css _ hChildren =>
      .branch rfl (by decide) (isName_withInline ["class"] (by decide) rfl css) hChildren)
    layout

/-- The body is written for the one tree of a layout, or for none. -/
theorem body_eq_writeAll (layout : Node) :
    body layout = Markup.writeAll (render layout).toList := by
  cases hTree : render layout with
  | none => rw [body, hTree]; rfl
  | some tree =>
    rw [body, hTree]
    exact (String.append_empty).symm

/-! ## The tag of the container -/

/-- The attributes of the container. -/
def containerAttributes : List Attribute := [⟨"class", "container"⟩]

/-- The start tags of an element are its own and those in it. -/
theorem start_mem_element {tag other : String} {attributes own : List Attribute}
    {children : List Markup}
    (hMem : Token.start tag attributes ∈ (Markup.element other own children).tokens) :
    (tag = other ∧ attributes = own) ∨
      ∃ child ∈ children, Token.start tag attributes ∈ child.tokens := by
  have hInside : Token.start tag attributes ∈ Markup.tokensOfAll children →
      ∃ child ∈ children, Token.start tag attributes ∈ child.tokens := fun h =>
    List.mem_flatMap.1 (Markup.tokensOfAll_eq children ▸ h)
  rw [Markup.tokens] at hMem
  split at hMem
  · exact .inl (Token.start.inj (List.mem_singleton.1 hMem))
  · rcases List.mem_cons.1 hMem with hSame | hMem
    · exact .inl (Token.start.inj hSame)
    · rcases List.mem_append.1 hMem with hMem | hClose
      · exact .inr (hInside hMem)
      · cases List.mem_singleton.1 hClose

theorem start_not_mem_text {tag : String} {attributes : List Attribute} (content : String) :
    Token.start tag attributes ∉ (Markup.text content).tokens := by
  rw [Markup.tokens]
  split
  · exact List.not_mem_nil
  · exact fun hMem => Token.noConfusion (List.mem_singleton.1 hMem)

/-- The elements of leaves are no divisions. -/
theorem division_not_mem_renderLeaf {attributes : List Attribute} (leaf : Node) :
    Token.start "div" attributes ∉ (renderLeaf leaf).tokens := by
  have hAround {tag : String} {own : List Attribute} {content : String} (hTag : "div" ≠ tag) :
      Token.start "div" attributes ∉ (Markup.element tag own [.text content]).tokens := by
    intro hMem
    rcases start_mem_element hMem with ⟨hSame, -⟩ | ⟨child, hChild, hMem⟩
    · exact hTag hSame
    · obtain rfl := List.mem_singleton.1 hChild
      exact start_not_mem_text content hMem
  have hAlone {tag : String} {own : List Attribute} (hTag : "div" ≠ tag) :
      Token.start "div" attributes ∉ (Markup.element tag own []).tokens := by
    intro hMem
    rcases start_mem_element hMem with ⟨hSame, -⟩ | ⟨child, hChild, -⟩
    · exact hTag hSame
    · cases hChild
  cases leaf with
  | heading content level style =>
    refine hAround fun hSame => ?_
    exact absurd (hSame ▸ headingTag_mem level) (by decide)
  | image src alt style => exact hAlone (by decide)
  | input placeholder style => exact hAlone (by decide)
  | nav style items =>
    intro hMem
    rcases start_mem_element hMem with ⟨hSame, -⟩ | ⟨child, hChild, hMem⟩
    · exact absurd hSame (by decide)
    · obtain ⟨item, -, rfl⟩ := List.mem_map.1 hChild
      exact hAround (by decide) hMem
  | _ => exact hAround (by decide)

/-- No element of a preview has the tag of the container. -/
theorem container_not_mem_tokens (layout : Node) :
    ∀ tree ∈ render layout, Token.start "div" containerAttributes ∉ tree.tokens := by
  refine render_induct division_not_mem_renderLeaf ?_ layout
  intro kind hKind css children ih hMem
  rcases start_mem_element hMem with ⟨-, hOwn⟩ | ⟨child, hChild, hMem⟩
  · rw [withInline, containerAttributes] at hOwn
    split at hOwn
    · simp only [List.cons.injEq, Attribute.mk.injEq] at hOwn
      exact absurd (hOwn.1.2 ▸ hKind) (by decide)
    · cases hOwn
  · exact ih child hChild hMem

/-! ## Occurrences in a text -/

/-- At how many places of a text a part of it stands. -/
def occurrences (part text : List Char) : Nat := text.tails.countP part.isPrefixOf

theorem occurrences_cons (part : List Char) (c : Char) (text : List Char) :
    occurrences part (c :: text) =
      occurrences part text + if part.isPrefixOf (c :: text) then 1 else 0 := by
  rw [occurrences, List.tails_cons, List.countP_cons, occurrences]

theorem occurrences_eq_zero {part text : List Char} (hNone : ¬part <:+: text) :
    occurrences part text = 0 := by
  refine List.countP_eq_zero.2 fun rest hRest hPrefix => hNone ?_
  have hHere : part <+: rest := List.isPrefixOf_iff_prefix.1 hPrefix
  have hSuffix : rest <:+ text := (List.mem_tails rest text).1 hRest
  exact hHere.isInfix.trans hSuffix.isInfix

/-- What stands in front of a character that a part does not have is seen without it. -/
theorem isPrefixOf_append_cons {part : List Char} {c : Char} (hNot : c ∉ part)
    (text rest : List Char) : part.isPrefixOf (text ++ c :: rest) = part.isPrefixOf text := by
  rw [Bool.eq_iff_iff, List.isPrefixOf_iff_prefix, List.isPrefixOf_iff_prefix]
  constructor
  · intro hPrefix
    rcases Nat.lt_or_ge text.length part.length with hLonger | hShorter
    -- A longer part would reach over the character.
    · have hUpTo : text ++ [c] <+: text ++ c :: rest :=
        (List.prefix_append_right_inj text).2 ⟨rest, rfl⟩
      have hLength : (text ++ [c]).length ≤ part.length := by
        rw [List.length_append]
        exact hLonger
      have hInside := (List.prefix_of_prefix_length_le hUpTo hPrefix hLength).subset
      exact absurd (hInside (List.mem_append_right text (List.mem_singleton_self c))) hNot
    · exact List.prefix_of_prefix_length_le hPrefix (List.prefix_append text _) hShorter
  · exact fun hPrefix => hPrefix.trans (List.prefix_append text _)

/-- Nothing stands across a character that it does not have. -/
theorem occurrences_append_cons {part : List Char} {c : Char} (hNot : c ∉ part)
    (text rest : List Char) :
    occurrences part (text ++ c :: rest) = occurrences part text + occurrences part rest := by
  induction text with
  | nil =>
    have hHere := isPrefixOf_append_cons hNot [] rest
    rw [List.nil_append] at hHere ⊢
    rw [occurrences_cons, hHere, occurrences, occurrences, List.tails, List.countP_singleton,
      Nat.add_comm]
  | cons d text ih =>
    have hHere := isPrefixOf_append_cons hNot (d :: text) rest
    rw [List.cons_append] at hHere ⊢
    rw [occurrences_cons, ih, hHere, occurrences_cons]
    omega

/-- The places in lines that are written in front of a text, and those in the text. -/
theorem occurrences_lines {part : List Char} (hLine : '\n' ∉ part) (rest : List Char) :
    ∀ lines : List String,
      occurrences part ((String.intercalate "\n" (lines ++ [""])).toList ++ rest) =
        (lines.map fun line => occurrences part line.toList).sum + occurrences part rest
  | [] => by rw [List.nil_append, String.intercalate_singleton]; exact (Nat.zero_add _).symm
  | line :: lines => by
    have hBreak : "\n".toList = ['\n'] := by decide
    rw [List.cons_append, String.intercalate_cons_of_ne_nil (by simp), String.toList_append,
      String.toList_append, hBreak, List.append_assoc, List.append_assoc, List.singleton_append,
      occurrences_append_cons hLine, occurrences_lines hLine rest lines, List.map_cons,
      List.sum_cons, Nat.add_assoc]

/-! ## The document -/

/-- The start tag of the container as the document has it. -/
def containerTag : String := "<div class=\"container\">"

theorem containerTag_eq : containerTag = startTag "div" containerAttributes := rfl

/-- The lines in front of the style sheet. -/
def linesBefore : List String :=
  ["<!DOCTYPE html>", "<html lang=\"en\">", "<head>", "  <meta charset=\"UTF-8\">",
    "  <meta name=\"viewport\" content=\"width=device-width, initial-scale=1\">",
    "  <meta name=\"generator\" content=\"blueprint\">", "  <style>"]

/-- The lines behind the style sheet, up to the start tag of the container. -/
def linesBehind : List String := ["", "  </style>", "</head>", "<body>", containerTag]

/-- The end tags behind the container. -/
def lastLines : String := "</div>\n</body>\n</html>"

theorem documentHead_eq :
    documentHead =
      String.intercalate "\n" (linesBefore ++ styleSheet ++ linesBehind ++ [""]) := rfl

theorem documentTail_eq : documentTail = "\n" ++ lastLines := rfl

/-- The characters of a literal are at hand, while decoding its bytes takes long. -/
theorem not_mem_ofList {c : Char} {text : List Char} (hNot : c ∉ text) :
    c ∉ (String.ofList text).toList := by
  rwa [String.toList_ofList]

theorem styleSheet_noAngle : ∀ line ∈ styleSheet, '<' ∉ line.toList := by
  simp only [styleSheet, List.forall_mem_cons, String.toList_append, List.mem_append, not_or]
  and_intros
  all_goals first
    | exact not_mem_ofList (by decide)
    | exact List.forall_mem_nil _

theorem occurrences_styleSheet :
    (styleSheet.map fun line => occurrences containerTag.toList line.toList).sum = 0 := by
  have hAngle : '<' ∈ containerTag.toList := by simp [containerTag]
  refine List.sum_eq_zero_iff_forall_eq_nat.2 fun n hMem => ?_
  obtain ⟨line, hLine, rfl⟩ := List.mem_map.1 hMem
  exact occurrences_eq_zero fun hInfix => styleSheet_noAngle line hLine (hInfix.subset hAngle)

/-- The head of the document has the start tag of the container at its end only. -/
theorem occurrences_head :
    ((linesBefore ++ styleSheet ++ linesBehind).map fun line =>
      occurrences containerTag.toList line.toList).sum = 1 := by
  have hBefore : (linesBefore.map fun line =>
      occurrences containerTag.toList line.toList).sum = 0 := by
    simp only [linesBefore, containerTag, List.map_cons, List.map_nil, String.reduceToList]
    decide
  have hBehind : (linesBehind.map fun line =>
      occurrences containerTag.toList line.toList).sum = 1 := by
    simp only [linesBehind, containerTag, List.map_cons, List.map_nil, String.reduceToList]
    decide
  rw [List.map_append, List.map_append, List.sum_append, List.sum_append, hBefore,
    occurrences_styleSheet, hBehind]

/-- In the body of a preview no text, no value and no element looks like the container. -/
theorem occurrences_body (layout : Node) :
    occurrences containerTag.toList (body layout).toList = 0 := by
  have hNames : ∀ b ∈ containerAttributes, IsName b.name := by decide
  have hRead := tokenize_writeAll fun tree hMem =>
    orderly_of_mem_render layout tree (Option.mem_toList.1 hMem)
  rw [body_eq_writeAll, containerTag_eq]
  refine occurrences_eq_zero fun hInfix => ?_
  have hMem := start_mem_of_infix hRead (by decide) hNames (by decide) (by decide) hInfix
  rw [Markup.tokensOfAll_eq] at hMem
  obtain ⟨tree, hTree, hStart⟩ := List.mem_flatMap.1 hMem
  exact container_not_mem_tokens layout tree (Option.mem_toList.1 hTree) hStart

theorem occurrences_document (layout : Node) :
    occurrences containerTag.toList (document layout).toList = 1 := by
  have hLine : '\n' ∉ containerTag.toList := by simp [containerTag]
  have hLast : occurrences containerTag.toList lastLines.toList = 0 := by
    simp only [containerTag, lastLines, String.reduceToList]
    decide
  have hBreak : "\n".toList = ['\n'] := by decide
  rw [document, inDocument, String.toList_append, String.toList_append, List.append_assoc,
    documentHead_eq, occurrences_lines hLine, occurrences_head, documentTail_eq,
    String.toList_append, hBreak, List.singleton_append, occurrences_append_cons hLine,
    occurrences_body, hLast]

/-- A preview is its body between the fixed head and tail. The body is read as the markup
that was built for the layout, without empty texts, whatever the strings of the layout are;
so the document has its container once. -/
theorem readMarkup_body (layout : Node) :
    document layout = documentHead ++ body layout ++ documentTail ∧
      readMarkup (body layout) = some (Markup.settledAll (render layout).toList) ∧
      occurrences containerTag.toList (document layout).toList = 1 := by
  refine ⟨rfl, ?_, occurrences_document layout⟩
  rw [body_eq_writeAll]
  exact readMarkup_writeAll fun tree hMem =>
    orderly_of_mem_render layout tree (Option.mem_toList.1 hMem)

end Pagewright.Preview
