import Pagewright.Proofs.Preview.Reader

/-!
# Markup is read as it was written

A tree is `Orderly` when it is an element with proper names, empty if it is an
image or an input, and otherwise around one text or around elements. So no two
texts stand side by side, and what is written for the tree is read as the tree,
up to texts that are empty: they leave no trace.

## Main results

* `Markup.settled` — a tree without its empty texts.
* `readMarkup_writeAll` — an orderly tree is read back, whatever strings it holds.
-/

namespace Pagewright.Preview

/-! ## Trees without empty texts -/

mutual

/-- The tree without its empty texts, which is nothing for an empty text itself. -/
def Markup.settled : Markup → List Markup
  | .text content => if content = "" then [] else [.text content]
  | .element tag attributes children => [.element tag attributes (Markup.settledAll children)]

/-- The trees without their empty texts. -/
def Markup.settledAll : List Markup → List Markup
  | [] => []
  | tree :: rest => tree.settled ++ Markup.settledAll rest

end

/-! ## Orderly trees -/

/-- Elements with proper names that hold nothing, one text or orderly elements. -/
inductive Markup.Orderly : Markup → Prop where
  | void {tag : String} {attributes : List Attribute} (hVoid : isVoid tag = true)
      (hTag : IsName tag) (hNames : ∀ a ∈ attributes, IsName a.name) :
      Orderly (.element tag attributes [])
  | leaf {tag : String} {attributes : List Attribute} {content : String}
      (hOpen : isVoid tag = false) (hTag : IsName tag)
      (hNames : ∀ a ∈ attributes, IsName a.name) :
      Orderly (.element tag attributes [.text content])
  | branch {tag : String} {attributes : List Attribute} {children : List Markup}
      (hOpen : isVoid tag = false) (hTag : IsName tag)
      (hNames : ∀ a ∈ attributes, IsName a.name)
      (hChildren : ∀ child ∈ children, Orderly child) :
      Orderly (.element tag attributes children)

/-! ## The pieces of a tree -/

mutual

/-- The pieces that a tree is written as. -/
def Markup.tokens : Markup → List Token
  | .text content => if content = "" then [] else [.text content]
  | .element tag attributes children =>
    if isVoid tag then [.start tag attributes]
    else .start tag attributes :: (Markup.tokensOfAll children ++ [.close tag])

/-- The pieces that trees are written as. -/
def Markup.tokensOfAll : List Markup → List Token
  | [] => []
  | tree :: rest => tree.tokens ++ Markup.tokensOfAll rest

end

theorem textTokens_escapeText (content : String) :
    textTokens (escapeText content.toList) = (Markup.text content).tokens := by
  have hEmpty : escapeText content.toList = [] ↔ content = "" := by
    rw [← String.toList_eq_nil_iff]
    constructor
    · intro hNil
      rw [← decode_escapeText content.toList, hNil]
      rfl
    · intro hNil
      rw [hNil]
      rfl
  simp only [textTokens, hEmpty, Markup.tokens, decode_escapeText, String.ofList_toList]

theorem textTokens_nil : textTokens [] = [] := rfl

namespace Markup

theorem tokensOfAll_eq (trees : List Markup) : tokensOfAll trees = trees.flatMap tokens := by
  induction trees with
  | nil => rfl
  | cons tree rest ih => rw [tokensOfAll, ih, List.flatMap_cons]

/-- What is written for elements one after the other is read element by element. -/
theorem run_writeAll {trees : List Markup}
    (hTrees : ∀ tree ∈ trees, ∀ seen,
      Scan.run ⟨seen, .content []⟩ tree.write.toList = ⟨seen ++ tree.tokens, .content []⟩) :
    ∀ seen, Scan.run ⟨seen, .content []⟩ (writeAll trees).toList =
      ⟨seen ++ tokensOfAll trees, .content []⟩ := by
  induction trees with
  | nil =>
    intro seen
    rw [tokensOfAll, List.append_nil]
    rfl
  | cons tree rest ih =>
    intro seen
    obtain ⟨hTree, hRest⟩ := List.forall_mem_cons.1 hTrees
    rw [writeAll, String.toList_append, Scan.run_append, hTree, ih hRest, tokensOfAll,
      List.append_assoc]

section

variable {tag : String} {attributes : List Attribute} {children : List Markup}

theorem write_element (hOpen : isVoid tag = false) :
    (element tag attributes children).write =
      startTag tag attributes ++ writeAll children ++ endTag tag := by
  rw [write, hOpen]
  rfl

theorem tokens_element (hOpen : isVoid tag = false) :
    (element tag attributes children).tokens =
      .start tag attributes :: (tokensOfAll children ++ [.close tag]) := by
  rw [tokens, hOpen]
  rfl

/-- Around what is read as the children of an element, the element is read. The
text that is still open at the end of the children is ended by the end tag. -/
theorem run_element (inside : List Token) (left : List Char) (hOpen : isVoid tag = false)
    (hTag : IsName tag) (hNames : ∀ a ∈ attributes, IsName a.name)
    (hInside : ∀ seen, Scan.run ⟨seen, .content []⟩ (writeAll children).toList =
      ⟨seen ++ inside, .content left⟩)
    (hTokens : inside ++ textTokens left = tokensOfAll children) (seen : List Token) :
    Scan.run ⟨seen, .content []⟩ (element tag attributes children).write.toList =
      ⟨seen ++ (element tag attributes children).tokens, .content []⟩ := by
  rw [write_element hOpen, tokens_element hOpen, ← hTokens, String.toList_append,
    String.toList_append, Scan.run_append, Scan.run_append, Scan.run_startTag hTag hNames,
    hInside, Scan.run_endTag hTag, textTokens_nil]
  simp only [List.append_nil, List.append_assoc, List.cons_append, List.nil_append]

end

/-- An orderly tree is written as its pieces. -/
theorem Orderly.run_write {tree : Markup} (hTree : tree.Orderly) :
    ∀ seen, Scan.run ⟨seen, .content []⟩ tree.write.toList =
      ⟨seen ++ tree.tokens, .content []⟩ := by
  induction hTree with
  | void hVoid hTag hNames =>
    intro seen
    rw [write, if_pos hVoid, tokens, if_pos hVoid, Scan.run_startTag hTag hNames, textTokens_nil,
      List.append_nil]
  | @leaf tag attributes content hOpen hTag hNames =>
    have hWritten : (writeAll [.text content]).toList = escapeText content.toList := by
      rw [writeAll, writeAll, write, String.toList_append, String.toList_ofList]
      exact List.append_nil _
    refine run_element [] (escapeText content.toList) hOpen hTag hNames (fun seen => ?_) ?_
    · rw [hWritten, Scan.run_escapeText, List.append_nil]
    · rw [textTokens_escapeText, tokensOfAll, tokensOfAll, List.append_nil, List.nil_append]
  | branch hOpen hTag hNames hChildren ih =>
    exact run_element _ [] hOpen hTag hNames (run_writeAll ih) (List.append_nil _)

/-! ## Putting the pieces together -/

/-- Pieces of trees one after the other are put together tree by tree. -/
theorem build_tokensOfAll {trees : List Markup} (frames : List Frame)
    (hTrees : ∀ tree ∈ trees, ∀ before,
      tree.tokens.foldlM Builder.step ⟨frames, before⟩ = some ⟨frames, before ++ tree.settled⟩) :
    ∀ before, (tokensOfAll trees).foldlM Builder.step ⟨frames, before⟩ =
      some ⟨frames, before ++ settledAll trees⟩ := by
  induction trees with
  | nil =>
    intro before
    rw [tokensOfAll, settledAll, List.append_nil]
    rfl
  | cons tree rest ih =>
    intro before
    obtain ⟨hTree, hRest⟩ := List.forall_mem_cons.1 hTrees
    rw [tokensOfAll, List.foldlM_append, hTree, settledAll, ← List.append_assoc]
    exact ih hRest _

theorem build_text (content : String) (frames : List Frame) (before : List Markup) :
    (Markup.text content).tokens.foldlM Builder.step ⟨frames, before⟩ =
      some ⟨frames, before ++ (Markup.text content).settled⟩ := by
  rw [tokens, settled]
  split
  · rw [List.append_nil]
    rfl
  · rfl

/-- The pieces of an element that is not void are put together around its children. -/
theorem build_element {tag : String} {attributes : List Attribute} {children : List Markup}
    (hOpen : isVoid tag = false)
    (hChildren : ∀ child ∈ children, ∀ frames before,
      child.tokens.foldlM Builder.step ⟨frames, before⟩ =
        some ⟨frames, before ++ child.settled⟩)
    (frames : List Frame) (before : List Markup) :
    (Markup.element tag attributes children).tokens.foldlM Builder.step ⟨frames, before⟩ =
      some ⟨frames, before ++ (Markup.element tag attributes children).settled⟩ := by
  have hStart : Builder.step ⟨frames, before⟩ (.start tag attributes) =
      some ⟨⟨tag, attributes, before⟩ :: frames, []⟩ := by
    rw [Builder.step, hOpen]
    rfl
  have hInside := build_tokensOfAll (⟨tag, attributes, before⟩ :: frames)
    fun child hChild => hChildren child hChild _
  rw [tokens_element hOpen, List.foldlM_cons, hStart]
  show (tokensOfAll children ++ [Token.close tag]).foldlM Builder.step _ = _
  have hClose :
      Builder.step ⟨⟨tag, attributes, before⟩ :: frames, settledAll children⟩ (.close tag) =
        some ⟨frames, before ++ [.element tag attributes (settledAll children)]⟩ := if_pos rfl
  rw [List.foldlM_append, hInside, List.nil_append, settled]
  show Builder.step _ (.close tag) >>= pure = _
  rw [hClose]
  rfl

/-- The pieces of an orderly tree are put together as the tree without its empty texts. -/
theorem Orderly.build_tokens {tree : Markup} (hTree : tree.Orderly) :
    ∀ frames before, tree.tokens.foldlM Builder.step ⟨frames, before⟩ =
      some ⟨frames, before ++ tree.settled⟩ := by
  induction hTree with
  | @void tag attributes hVoid hTag hNames =>
    intro frames before
    rw [tokens, if_pos hVoid, List.foldlM_cons, Builder.step, if_pos hVoid, settled, settledAll]
    rfl
  | leaf hOpen hTag hNames =>
    exact build_element hOpen (List.forall_mem_singleton.2 (build_text _))
  | branch hOpen hTag hNames hChildren ih => exact build_element hOpen ih

end Markup

/-- Orderly trees are written as their pieces. -/
theorem tokenize_writeAll {trees : List Markup} (hTrees : ∀ tree ∈ trees, tree.Orderly) :
    tokenize (Markup.writeAll trees).toList = some (Markup.tokensOfAll trees) := by
  rw [tokenize, Markup.run_writeAll (fun tree hMem => (hTrees tree hMem).run_write) []]
  show some (([] ++ Markup.tokensOfAll trees) ++ textTokens []) = _
  rw [List.nil_append, textTokens_nil, List.append_nil]

/-- The pieces of orderly trees are put together as the trees without their empty texts. -/
theorem buildTrees_tokensOfAll {trees : List Markup} (hTrees : ∀ tree ∈ trees, tree.Orderly) :
    buildTrees (Markup.tokensOfAll trees) = some (Markup.settledAll trees) := by
  have hBuilt := Markup.build_tokensOfAll []
    (fun tree hMem => (hTrees tree hMem).build_tokens []) []
  rw [buildTrees, hBuilt]
  rfl

/-- Orderly trees are read back without their empty texts, whatever strings they hold. -/
theorem readMarkup_writeAll {trees : List Markup} (hTrees : ∀ tree ∈ trees, tree.Orderly) :
    readMarkup (Markup.writeAll trees) = some (Markup.settledAll trees) := by
  rw [readMarkup, tokenize_writeAll hTrees]
  exact buildTrees_tokensOfAll hTrees

end Pagewright.Preview
