import Pagewright.Page.Widget
import Pagewright.Proofs.Preview.Markup
import Pagewright.Text.Search

/-!
# Reading inline markup

Texts, inputs and navigation bars reach a page as markup inside a setting. A
reader of such markup goes from piece to piece: an end tag, a start tag with its
attributes in double quotes, or the text up to the next tag. It decodes the five
entities that texts are escaped with, and puts the pieces together as trees. A
start tag may end in a slash, as those of elements without content do.

What is written inline for an orderly tree is read as that tree, up to texts that
are empty. The markup of every leaf is written for such a tree.

## Main results

* `unescape_escape` — what was escaped is decoded, whatever it was.
* `readToken?_inlineStart`, `readToken?_inlineEnd`, `readToken?_escape` — a reader
  takes one written piece at a time.
* `readInline_inlineAll` — orderly trees are read back.
* `readInline_paragraphMarkup`, `readInline_inputMarkup`, `readInline_navMarkup` — the
  markup of a leaf is one element with the strings of the leaf.
-/

namespace Pagewright.Page

open Preview (Attribute Markup Token IsName isNameChar isVoid buildTrees)

/-! ## Entities -/

/-- The text with its entities decoded. -/
def unescape : List Char → List Char
  | '&' :: 'a' :: 'm' :: 'p' :: ';' :: rest => '&' :: unescape rest
  | '&' :: 'l' :: 't' :: ';' :: rest => '<' :: unescape rest
  | '&' :: 'g' :: 't' :: ';' :: rest => '>' :: unescape rest
  | '&' :: 'q' :: 'u' :: 'o' :: 't' :: ';' :: rest => '"' :: unescape rest
  | '&' :: '#' :: '0' :: '3' :: '9' :: ';' :: rest => '\'' :: unescape rest
  | c :: rest => c :: unescape rest
  | [] => []

/-- An entity starts with an ampersand. -/
theorem unescape_cons {c : Char} (hPlain : c ≠ '&') (rest : List Char) :
    unescape (c :: rest) = c :: unescape rest := by
  rw [unescape]
  all_goals
    intros
    exact hPlain ‹_›

theorem unescape_escapeChar (c : Char) (rest : List Char) :
    unescape (escapeChar c ++ rest) = c :: unescape rest := by
  unfold escapeChar
  split
  case h_6 hPlain _ _ _ _ => exact unescape_cons hPlain rest
  all_goals rfl

theorem unescape_escape (text : List Char) : unescape (escape text) = text := by
  induction text with
  | nil => rfl
  | cons c rest ih =>
    show unescape (escapeChar c ++ escape rest) = c :: rest
    rw [unescape_escapeChar, ih]

/-! ## Reading piece by piece -/

/-- The text behind the end of a start tag. -/
def tagEnd? : List Char → Option (List Char)
  | '>' :: rest => some rest
  | ' ' :: '/' :: '>' :: rest => some rest
  | _ => none

/-- The attribute at the beginning of a text, and the text behind it. -/
def readAttribute? : List Char → Option (Attribute × List Char)
  | ' ' :: rest =>
    match rest.takeWhile isNameChar, rest.dropWhile isNameChar with
    | c :: name, '=' :: '"' :: quoted =>
      match Text.splitFirst '"' quoted with
      | (value, some behind) =>
        some (⟨String.ofList (c :: name), String.ofList (unescape value)⟩, behind)
      | _ => none
    | _, _ => none
  | _ => none

/-- The attributes up to the end of a start tag, and the text behind it. Each of
them takes a character at least. -/
def readAttributes? : Nat → List Char → Option (List Attribute × List Char)
  | 0, _ => none
  | fuel + 1, text =>
    match tagEnd? text with
    | some rest => some ([], rest)
    | none =>
      (readAttribute? text).bind fun (first, behind) =>
        (readAttributes? fuel behind).map fun (others, rest) => (first :: others, rest)

/-- The piece at the beginning of a text, and the text behind it. -/
def readToken? : List Char → Option (Token × List Char)
  | '<' :: '/' :: rest =>
    match rest.takeWhile isNameChar, rest.dropWhile isNameChar with
    | c :: name, '>' :: behind => some (.close (String.ofList (c :: name)), behind)
    | _, _ => none
  | '<' :: rest =>
    match rest.takeWhile isNameChar with
    | c :: name =>
      (readAttributes? rest.length (rest.dropWhile isNameChar)).map fun (attributes, behind) =>
        (.start (String.ofList (c :: name)) attributes, behind)
    | [] => none
  | text =>
    some (.text (String.ofList (unescape (text.takeWhile (· != '<')))),
      text.dropWhile (· != '<'))

/-- The pieces of a text. Each of them takes a character at least. -/
def readTokens? : Nat → List Char → Option (List Token)
  | _, [] => some []
  | 0, _ :: _ => none
  | fuel + 1, c :: text =>
    (readToken? (c :: text)).bind fun (token, behind) =>
      (readTokens? fuel behind).map (token :: ·)

/-- The trees that inline markup is read as. -/
def readInline (markup : String) : Option (List Markup) :=
  (readTokens? markup.toList.length markup.toList).bind buildTrees

/-- Texts with the pieces that they are read as. -/
def Reads (text : List Char) (tokens : List Token) : Prop :=
  ∀ fuel, text.length ≤ fuel → readTokens? fuel text = some tokens

theorem Reads.nil : Reads [] [] := by
  intro fuel _
  cases fuel <;> rfl

/-- A text is read as its first piece and those of what is behind it. -/
theorem Reads.cons {text behind : List Char} {token : Token} {tokens : List Token}
    (hFirst : readToken? text = some (token, behind)) (hShorter : behind.length < text.length)
    (hBehind : Reads behind tokens) : Reads text (token :: tokens) := by
  intro fuel hFuel
  cases text with
  | nil => simp at hShorter
  | cons c text =>
    cases fuel with
    | zero => simp at hFuel
    | succ fuel =>
      have hRest := hBehind fuel (by omega)
      simp only [readTokens?, hFirst, Option.bind_some, hRest, Option.map_some]

/-! ## Writing trees inline -/

/-- An attribute as it is written inline. -/
def inlineAttribute (a : Attribute) : List Char :=
  ' ' :: (a.name.toList ++ '=' :: '"' :: (escape a.value.toList ++ ['"']))

/-- A start tag as it is written inline. -/
def inlineStart (tag : String) (attributes : List Attribute) : List Char :=
  '<' :: (tag.toList ++ (attributes.flatMap inlineAttribute ++
    if isVoid tag then [' ', '/', '>'] else ['>']))

/-- An end tag as it is written inline. -/
def inlineEnd (tag : String) : List Char := '<' :: '/' :: (tag.toList ++ ['>'])

mutual

/-- A tree as it is written inline. -/
def inline : Markup → List Char
  | .text content => escape content.toList
  | .element tag attributes children =>
    if isVoid tag then inlineStart tag attributes
    else inlineStart tag attributes ++ (inlineAll children ++ inlineEnd tag)

/-- Trees as they are written inline. -/
def inlineAll : List Markup → List Char
  | [] => []
  | tree :: rest => inline tree ++ inlineAll rest

end

/-! ## Written pieces are read -/

/-- A name reaches up to the first character that is not of a name. -/
theorem takeWhile_name {name : String} (hName : IsName name) {d : Char}
    (hStop : isNameChar d = false) (rest : List Char) :
    (name.toList ++ d :: rest).takeWhile isNameChar = name.toList ∧
      (name.toList ++ d :: rest).dropWhile isNameChar = d :: rest := by
  have hChars := hName.isNameChar_of_mem
  rw [List.takeWhile_append_of_pos hChars, List.dropWhile_append_of_pos hChars]
  simp [hStop]

theorem IsName.exists_cons {name : String} (hName : IsName name) :
    ∃ c rest, name.toList = c :: rest ∧ isNameChar c = true := by
  cases hList : name.toList with
  | nil => exact absurd hList hName.toList_ne_nil
  | cons c rest =>
    have hMem : c ∈ name.toList := by simp [hList]
    exact ⟨c, rest, rfl, hName.isNameChar_of_mem c hMem⟩

theorem splitFirst_escape (value rest : List Char) :
    Text.splitFirst '"' (escape value ++ '"' :: rest) = (escape value, some rest) :=
  Text.splitFirst_append_cons (fun hMem => absurd (not_mem_escape hMem) (by decide)) rest

theorem readAttribute?_inlineAttribute {a : Attribute} (hName : IsName a.name)
    (rest : List Char) : readAttribute? (inlineAttribute a ++ rest) = some (a, rest) := by
  obtain ⟨hTake, hDrop⟩ := takeWhile_name hName (d := '=') (by decide)
    ('"' :: (escape a.value.toList ++ '"' :: rest))
  obtain ⟨c, others, hList, -⟩ := IsName.exists_cons hName
  have hBlank : inlineAttribute a ++ rest =
      ' ' :: (a.name.toList ++ '=' :: '"' :: (escape a.value.toList ++ '"' :: rest)) := by
    simp [inlineAttribute]
  rw [hBlank, readAttribute?, hTake, hDrop, hList]
  simp only [splitFirst_escape, unescape_escape, String.ofList_toList]
  rw [← hList, String.ofList_toList]

/-- An attribute does not end its tag. -/
theorem tagEnd?_inlineAttribute {a : Attribute} (hName : IsName a.name) (rest : List Char) :
    tagEnd? (inlineAttribute a ++ rest) = none := by
  obtain ⟨c, others, hList, hChar⟩ := IsName.exists_cons hName
  have hSlash : c ≠ '/' := by
    intro hEq
    exact absurd (hEq ▸ hChar) (by decide)
  simp [inlineAttribute, hList, tagEnd?, hSlash]

theorem readAttributes?_inline {ending : List Char}
    (hEnd : ending = [' ', '/', '>'] ∨ ending = ['>']) (rest : List Char) :
    ∀ {attributes : List Attribute}, (∀ a ∈ attributes, IsName a.name) →
      ∀ fuel, attributes.length < fuel →
        readAttributes? fuel (attributes.flatMap inlineAttribute ++ (ending ++ rest)) =
          some (attributes, rest) := by
  intro attributes
  induction attributes with
  | nil =>
    intro _ fuel hFuel
    cases fuel with
    | zero => simp at hFuel
    | succ fuel => rcases hEnd with rfl | rfl <;> rfl
  | cons a others ih =>
    intro hNames fuel hFuel
    obtain ⟨hFirst, hOthers⟩ := List.forall_mem_cons.1 hNames
    cases fuel with
    | zero => simp at hFuel
    | succ fuel =>
      have hRest := ih hOthers fuel (by simpa using hFuel)
      rw [List.flatMap_cons, List.append_assoc, readAttributes?,
        tagEnd?_inlineAttribute hFirst]
      simp only [readAttribute?_inlineAttribute hFirst, Option.bind_some, hRest, Option.map_some]

/-- Every attribute takes a character, so a reader has fuel for them all. -/
theorem length_le_attributes (attributes : List Attribute) :
    attributes.length ≤ (attributes.flatMap inlineAttribute).length := by
  induction attributes with
  | nil => simp
  | cons a others ih =>
    simp only [List.flatMap_cons, List.length_append, List.length_cons, inlineAttribute]
    omega

/-- Behind the name of a start tag stands no character of a name. -/
theorem exists_cons_attributes (attributes : List Attribute) {ending : List Char}
    (hEnd : ending = [' ', '/', '>'] ∨ ending = ['>']) (rest : List Char) :
    ∃ d more, attributes.flatMap inlineAttribute ++ (ending ++ rest) = d :: more ∧
      isNameChar d = false := by
  cases attributes with
  | nil => rcases hEnd with rfl | rfl <;> exact ⟨_, _, rfl, by decide⟩
  | cons a others => exact ⟨_, _, rfl, by decide⟩

theorem readToken?_inlineStart {tag : String} {attributes : List Attribute} (hTag : IsName tag)
    (hNames : ∀ a ∈ attributes, IsName a.name) (rest : List Char) :
    readToken? (inlineStart tag attributes ++ rest) = some (.start tag attributes, rest) := by
  have hEnd (isShort : Bool) : (if isShort then [' ', '/', '>'] else ['>']) = [' ', '/', '>'] ∨
      (if isShort then [' ', '/', '>'] else ['>']) = ['>'] := by
    cases isShort
    · exact .inr rfl
    · exact .inl rfl
  have hText : inlineStart tag attributes ++ rest = '<' :: (tag.toList ++
      (attributes.flatMap inlineAttribute ++
        ((if isVoid tag then [' ', '/', '>'] else ['>']) ++ rest))) := by
    simp only [inlineStart, List.cons_append, List.append_assoc]
  have hRead := readAttributes?_inline (hEnd (isVoid tag)) rest hNames
  obtain ⟨d, more, hBehind, hStop⟩ := exists_cons_attributes attributes (hEnd (isVoid tag)) rest
  obtain ⟨hTake, hDrop⟩ := takeWhile_name hTag hStop more
  obtain ⟨c, others, hList, hChar⟩ := IsName.exists_cons hTag
  rw [← hBehind] at hTake hDrop
  have hFuel : attributes.length < (tag.toList ++ (attributes.flatMap inlineAttribute ++
      ((if isVoid tag then [' ', '/', '>'] else ['>']) ++ rest))).length := by
    have hLength := length_le_attributes attributes
    simp only [List.length_append, hList, List.length_cons]
    omega
  rw [hText, readToken?, hTake, hDrop, hRead _ hFuel, hList]
  · simp only [Option.map_some]
    rw [← hList, String.ofList_toList]
  · intro behind hSlash
    rw [hList] at hSlash
    have hEq : c = '/' := (List.cons.inj hSlash).1
    exact absurd (hEq ▸ hChar) (by decide)

theorem readToken?_inlineEnd {tag : String} (hTag : IsName tag) (rest : List Char) :
    readToken? (inlineEnd tag ++ rest) = some (.close tag, rest) := by
  obtain ⟨hTake, hDrop⟩ := takeWhile_name hTag (d := '>') (by decide) rest
  obtain ⟨c, others, hList, -⟩ := IsName.exists_cons hTag
  have hText : inlineEnd tag ++ rest = '<' :: '/' :: (tag.toList ++ '>' :: rest) := by
    simp [inlineEnd]
  rw [hText, readToken?, hTake, hDrop, hList]
  simp only
  rw [← hList, String.ofList_toList]

/-- A text reaches up to the next tag. -/
theorem readToken?_escape {content : String} (hContent : content ≠ "") (rest : List Char) :
    readToken? (escape content.toList ++ '<' :: rest) = some (.text content, '<' :: rest) := by
  have hPlain : ∀ c ∈ escape content.toList, (c != '<') = true := by
    intro c hMem
    have hSpecial := not_mem_escape hMem
    by_contra hNot
    have hEq : c = '<' := by simpa using hNot
    exact absurd (hEq ▸ hSpecial) (by decide)
  have hTake : (escape content.toList ++ '<' :: rest).takeWhile (· != '<') =
      escape content.toList := by
    rw [List.takeWhile_append_of_pos hPlain]
    simp
  have hDrop : (escape content.toList ++ '<' :: rest).dropWhile (· != '<') = '<' :: rest := by
    rw [List.dropWhile_append_of_pos hPlain]
    simp
  cases hList : escape content.toList with
  | nil =>
    have hNil := unescape_escape content.toList
    rw [hList] at hNil
    exact absurd (String.toList_eq_nil_iff.1 hNil.symm) hContent
  | cons c others =>
    have hFirst : c ≠ '<' := by
      intro hEq
      have hKept := hPlain c (by simp [hList])
      simp [hEq] at hKept
    rw [hList] at hTake hDrop
    rw [List.cons_append] at hTake hDrop ⊢
    rw [readToken?, hTake, hDrop, ← hList, unescape_escape, String.ofList_toList]
    · intro behind hEq
      exact hFirst (List.cons.inj hEq).1
    · intro behind hEq
      exact hFirst (List.cons.inj hEq).1

/-! ## Written trees are read -/

section

variable {tag content : String} {attributes : List Attribute} {rest : List Char}
  {tokens : List Token}

theorem Reads.start (hTag : IsName tag) (hNames : ∀ a ∈ attributes, IsName a.name)
    (hRest : Reads rest tokens) :
    Reads (inlineStart tag attributes ++ rest) (.start tag attributes :: tokens) :=
  .cons (readToken?_inlineStart hTag hNames rest) (by simp [inlineStart]; omega) hRest

theorem Reads.close (hTag : IsName tag) (hRest : Reads rest tokens) :
    Reads (inlineEnd tag ++ rest) (.close tag :: tokens) :=
  .cons (readToken?_inlineEnd hTag rest) (by simp [inlineEnd]; omega) hRest

/-- Up to a tag a text is read, or nothing if it is empty. -/
theorem Reads.text (content : String) (hRest : Reads ('<' :: rest) tokens) :
    Reads (escape content.toList ++ '<' :: rest) ((Markup.text content).tokens ++ tokens) := by
  rw [Markup.tokens]
  by_cases hEmpty : content = ""
  · rw [if_pos hEmpty, hEmpty]
    exact hRest
  · have hSome : escape content.toList ≠ [] := by
      intro hNil
      have hText := unescape_escape content.toList
      rw [hNil] at hText
      exact hEmpty (String.toList_eq_nil_iff.1 hText.symm)
    rw [if_neg hEmpty]
    refine .cons (readToken?_escape hEmpty rest) ?_ hRest
    have hLength := List.length_pos_iff.2 hSome
    simp
    omega

end

/-- Trees one after the other are read tree by tree. -/
theorem reads_inlineAll {trees : List Markup}
    (hTrees : ∀ tree ∈ trees, ∀ {rest tokens}, Reads rest tokens →
      Reads (inline tree ++ rest) (tree.tokens ++ tokens)) {rest : List Char}
    {tokens : List Token} (hRest : Reads rest tokens) :
    Reads (inlineAll trees ++ rest) (Markup.tokensOfAll trees ++ tokens) := by
  induction trees with
  | nil => exact hRest
  | cons tree others ih =>
    obtain ⟨hTree, hOthers⟩ := List.forall_mem_cons.1 hTrees
    rw [inlineAll, Markup.tokensOfAll, List.append_assoc, List.append_assoc]
    exact hTree (ih hOthers)

/-- What is written inline for an orderly tree is read as its pieces. -/
theorem reads_inline {tree : Markup} (hTree : tree.Orderly) :
    ∀ {rest tokens}, Reads rest tokens → Reads (inline tree ++ rest) (tree.tokens ++ tokens) := by
  induction hTree with
  | void hVoid hTag hNames =>
    intro rest tokens hRest
    rw [inline, if_pos hVoid, Markup.tokens, if_pos hVoid]
    exact .start hTag hNames hRest
  | @leaf tag attributes content hOpen hTag hNames =>
    intro rest tokens hRest
    have hInside : Reads (escape content.toList ++ (inlineEnd tag ++ rest))
        ((Markup.text content).tokens ++ .close tag :: tokens) :=
      Reads.text content (Reads.close hTag hRest)
    have hText : inline (.element tag attributes [.text content]) ++ rest =
        inlineStart tag attributes ++ (escape content.toList ++ (inlineEnd tag ++ rest)) := by
      simp [inline, inlineAll, hOpen]
    rw [hText, Markup.tokens_element hOpen]
    simpa [Markup.tokensOfAll] using Reads.start hTag hNames hInside
  | @branch tag attributes children hOpen hTag hNames _ ih =>
    intro rest tokens hRest
    have hInside := reads_inlineAll ih (Reads.close hTag hRest)
    rw [inline, hOpen, Markup.tokens_element hOpen]
    simpa using Reads.start hTag hNames hInside

/-- Orderly trees are read back without their empty texts, whatever strings they hold. -/
theorem readInline_inlineAll {trees : List Markup} (hTrees : ∀ tree ∈ trees, tree.Orderly) :
    readInline (String.ofList (inlineAll trees)) = some (Markup.settledAll trees) := by
  have hReads := reads_inlineAll (fun tree hMem => reads_inline (hTrees tree hMem)) Reads.nil
  have hTokens := hReads _ (Nat.le_refl _)
  rw [List.append_nil, List.append_nil] at hTokens
  rw [readInline, String.toList_ofList, hTokens]
  exact Preview.buildTrees_tokensOfAll hTrees

/-! ## The markup of leaves -/

/-- The tree of a paragraph. -/
def paragraphTree (text : String) : Markup := .element "p" [] [.text text]

/-- The tree of a text field. -/
def inputTree (placeholder : String) : Markup :=
  .element "input" [⟨"type", "text"⟩, ⟨"placeholder", placeholder⟩] []

/-- The tree of a link. -/
def linkTree (item : Layout.NavItem) : Markup :=
  .element "a" [⟨"href", item.href⟩] [.text item.label]

/-- The tree of a navigation bar. -/
def navTree (items : List Layout.NavItem) : Markup :=
  .element "nav" [] ((labelledItems items).map linkTree)

theorem paragraphMarkup_eq (text : String) :
    paragraphMarkup text = String.ofList (inlineAll [paragraphTree text]) := by
  have hOpen : isVoid "p" = false := by decide
  refine String.toList_inj.1 (Eq.trans ?_ String.toList_ofList.symm)
  unfold paragraphMarkup escapeText
  simp [paragraphTree, inlineAll, inline, inlineStart, inlineEnd, hOpen]

theorem inputMarkup_eq (placeholder : String) :
    inputMarkup placeholder = String.ofList (inlineAll [inputTree placeholder]) := by
  have hVoid : isVoid "input" = true := by decide
  have hText : escape ['t', 'e', 'x', 't'] = ['t', 'e', 'x', 't'] := by decide
  refine String.toList_inj.1 (Eq.trans ?_ String.toList_ofList.symm)
  unfold inputMarkup escapeText
  simp [inputTree, inlineAll, inline, inlineStart, inlineAttribute, hVoid, hText]

theorem linkMarkup_eq (item : Layout.NavItem) :
    (linkMarkup item).toList = inline (linkTree item) := by
  have hOpen : isVoid "a" = false := by decide
  unfold linkMarkup escapeText
  simp [linkTree, inline, inlineAll, inlineStart, inlineEnd, inlineAttribute, hOpen]

theorem navMarkup_eq (items : List Layout.NavItem) :
    navMarkup items = String.ofList (inlineAll [navTree items]) := by
  have hOpen : isVoid "nav" = false := by decide
  have hLinks : ∀ links : List Layout.NavItem,
      (links.map linkMarkup).flatMap String.toList = inlineAll (links.map linkTree) := by
    intro links
    induction links with
    | nil => rfl
    | cons link rest ih =>
      rw [List.map_cons, List.flatMap_cons, ih, linkMarkup_eq]
      rfl
  refine String.toList_inj.1 (Eq.trans ?_ String.toList_ofList.symm)
  simp only [navMarkup, String.toList_append, String.toList_join, hLinks]
  simp [navTree, inlineAll, inline, inlineStart, inlineEnd, hOpen]

/-- A paragraph is read with its text, or empty. -/
theorem readInline_paragraphMarkup (text : String) :
    readInline (paragraphMarkup text) =
      some [.element "p" [] (Markup.settledAll [.text text])] := by
  have hOrderly : (paragraphTree text).Orderly := .leaf rfl (by decide) nofun
  rw [paragraphMarkup_eq, readInline_inlineAll (List.forall_mem_singleton.2 hOrderly)]
  rfl

theorem readInline_inputMarkup (placeholder : String) :
    readInline (inputMarkup placeholder) = some [inputTree placeholder] := by
  have hNames : ∀ a ∈ [⟨"type", "text"⟩, ⟨"placeholder", placeholder⟩],
      IsName (Attribute.name a) := by
    simp only [List.forall_mem_cons]
    exact ⟨by decide, by decide, nofun⟩
  have hOrderly : (inputTree placeholder).Orderly := .void rfl (by decide) hNames
  rw [inputMarkup_eq, readInline_inlineAll (List.forall_mem_singleton.2 hOrderly)]
  rfl

/-- A bar is read with the links that are labelled. -/
theorem readInline_navMarkup (items : List Layout.NavItem) :
    readInline (navMarkup items) = some [navTree items] := by
  have hHref : IsName "href" := by decide
  have hLink (item : Layout.NavItem) : (linkTree item).Orderly :=
    .leaf rfl (by decide) (List.forall_mem_singleton.2 hHref)
  have hOrderly : (navTree items).Orderly := by
    refine .branch rfl (by decide) nofun fun child hMem => ?_
    obtain ⟨item, -, rfl⟩ := List.mem_map.1 hMem
    exact hLink item
  -- The labels of these links are not empty.
  have hSettled : ∀ links : List Layout.NavItem, (∀ item ∈ links, item.label ≠ "") →
      Markup.settledAll (links.map linkTree) = links.map linkTree := by
    intro links
    induction links with
    | nil =>
      intro _
      rfl
    | cons link rest ih =>
      intro hLabels
      obtain ⟨hFirst, hRest⟩ := List.forall_mem_cons.1 hLabels
      simp [Markup.settledAll, linkTree, Markup.settled, hFirst, ih hRest]
  have hLabels : ∀ item ∈ labelledItems items, item.label ≠ "" := by
    intro item hMem
    simpa using (List.mem_filter.1 hMem).2
  rw [navMarkup_eq, readInline_inlineAll (List.forall_mem_singleton.2 hOrderly)]
  simp only [Markup.settledAll, navTree, Markup.settled, hSettled _ hLabels, List.append_nil]

end Pagewright.Page
