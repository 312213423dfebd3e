import Mathlib.Data.List.Basic
import Pagewright.Preview.Markup

/-!
# Reading markup

A reader of markup goes over the text character by character. It tells texts
from tags, takes attributes in double quotes, and decodes the entities that
stand for characters; every end tag has to close the element that was opened
last, and images and inputs are never open. What fits none of this is no
markup, so a reader that answers has understood all of the text.

## Main results

* `decode_escapeText`, `decode_escapeAttribute` — what was escaped is decoded.
* `Scan.run_startTag`, `Scan.run_endTag`, `Scan.run_escapeText` — written tags and texts
  are told apart.
* `start_mem_of_infix` — a start tag that stands in markup is a start tag of the markup.
-/

namespace Pagewright.Preview

/-! ## Entities -/

/-- The entities with the characters that they stand for. -/
def entities : List (String × Char) :=
  [("&amp;", '&'), ("&lt;", '<'), ("&gt;", '>'), ("&quot;", '"'), ("&nbsp;", '\u00a0')]

/-- The entity at the beginning of a text. -/
def entityAt? (text : List Char) : Option (String × Char) :=
  entities.find? fun entity => entity.1.toList.isPrefixOf text

/-- The text with its entities decoded, behind a number of characters to pass over. -/
def decodeFrom : Nat → List Char → List Char
  | _, [] => []
  | skip + 1, _ :: rest => decodeFrom skip rest
  | 0, c :: rest =>
    match entityAt? (c :: rest) with
    | some (name, meant) => meant :: decodeFrom (name.length - 1) rest
    | none => c :: decodeFrom 0 rest

/-- The text with its entities decoded. -/
def decode (text : List Char) : List Char := decodeFrom 0 text

/-- An entity starts with an ampersand. -/
theorem decode_cons {c : Char} (hPlain : c ≠ '&') (rest : List Char) :
    decode (c :: rest) = c :: decode rest := by
  have hNone : entityAt? (c :: rest) = none := by
    simp [entityAt?, entities, List.isPrefixOf, hPlain.symm]
  rw [decode, decodeFrom, hNone]
  rfl

theorem decode_escapeTextChar (c : Char) (rest : List Char) :
    decode (escapeTextChar c ++ rest) = c :: decode rest := by
  unfold escapeTextChar
  split
  case h_5 hPlain _ _ _ => exact decode_cons hPlain rest
  all_goals rfl

theorem decode_escapeAttributeChar (c : Char) (rest : List Char) :
    decode (escapeAttributeChar c ++ rest) = c :: decode rest := by
  unfold escapeAttributeChar
  split
  case h_4 hPlain _ _ => exact decode_cons hPlain rest
  all_goals rfl

/-- What was escaped character by character is decoded, whatever it was. -/
theorem decode_flatMap {escape : Char → List Char}
    (hEscape : ∀ c rest, decode (escape c ++ rest) = c :: decode rest) (text : List Char) :
    decode (text.flatMap escape) = text := by
  induction text with
  | nil => rfl
  | cons c rest ih => rw [List.flatMap_cons, hEscape, ih]

theorem decode_escapeText (text : List Char) : decode (escapeText text) = text :=
  decode_flatMap decode_escapeTextChar text

theorem decode_escapeAttribute (value : List Char) : decode (escapeAttribute value) = value :=
  decode_flatMap decode_escapeAttributeChar value

/-! ## Telling tags from texts -/

/-- A piece of markup. -/
inductive Token where
  | text (content : String)
  | start (tag : String) (attributes : List Attribute)
  | close (tag : String)
  deriving DecidableEq, Repr, Inhabited

/-- Where in a tag or between tags a reader stands, and what it has seen there. -/
inductive Mode where
  | content (seen : List Char)
  | tag
  | startName (seen : List Char)
  | attributeName (tag : String) (attributes : List Attribute) (seen : List Char)
  | equals (tag : String) (attributes : List Attribute) (name : String)
  | value (tag : String) (attributes : List Attribute) (name : String) (seen : List Char)
  | valueEnd (tag : String) (attributes : List Attribute)
  | closeName (seen : List Char)
  /-- What was read is no markup. -/
  | broken
  deriving DecidableEq, Repr, Inhabited

/-- A reader in the middle of a text, with the pieces that it has read. -/
structure Scan where
  tokens : List Token
  mode : Mode
  deriving DecidableEq, Repr, Inhabited

/-- The characters of the names of tags and attributes. -/
def isNameChar (c : Char) : Bool := c.isLower || c.isDigit

/-- A text between tags, unless it is empty. -/
def textTokens (seen : List Char) : List Token :=
  if seen = [] then [] else [.text (String.ofList (decode seen))]

/-- The next mode of a reader that has read no piece to its end. -/
def Scan.goTo (scan : Scan) (mode : Mode) : Scan := { scan with mode := mode }

/-- A reader that has read a tag to its end. -/
def Scan.emit (scan : Scan) (token : Token) : Scan := ⟨scan.tokens ++ [token], .content []⟩

/-- Reads one character. -/
def Scan.step (scan : Scan) (c : Char) : Scan :=
  match scan.mode with
  | .content seen =>
    if c = '<' then ⟨scan.tokens ++ textTokens seen, .tag⟩ else scan.goTo (.content (seen ++ [c]))
  | .tag =>
    if c = '/' then scan.goTo (.closeName [])
    else if isNameChar c then scan.goTo (.startName [c])
    else scan.goTo .broken
  | .startName seen =>
    if isNameChar c then scan.goTo (.startName (seen ++ [c]))
    else if c = ' ' then scan.goTo (.attributeName (String.ofList seen) [] [])
    else if c = '>' then scan.emit (.start (String.ofList seen) [])
    else scan.goTo .broken
  | .attributeName tag attributes seen =>
    if isNameChar c then scan.goTo (.attributeName tag attributes (seen ++ [c]))
    else if c = '=' ∧ seen ≠ [] then scan.goTo (.equals tag attributes (String.ofList seen))
    else scan.goTo .broken
  | .equals tag attributes name =>
    if c = '"' then scan.goTo (.value tag attributes name []) else scan.goTo .broken
  | .value tag attributes name seen =>
    if c = '"' then
      scan.goTo (.valueEnd tag (attributes ++ [⟨name, String.ofList (decode seen)⟩]))
    else scan.goTo (.value tag attributes name (seen ++ [c]))
  | .valueEnd tag attributes =>
    if c = ' ' then scan.goTo (.attributeName tag attributes [])
    else if c = '>' then scan.emit (.start tag attributes)
    else scan.goTo .broken
  | .closeName seen =>
    if isNameChar c then scan.goTo (.closeName (seen ++ [c]))
    else if c = '>' then scan.emit (.close (String.ofList seen))
    else scan.goTo .broken
  | .broken => scan

/-- Reads a text. -/
def Scan.run (scan : Scan) (text : List Char) : Scan := text.foldl Scan.step scan

/-- The pieces of a text that ends between tags. -/
def tokenize (text : List Char) : Option (List Token) :=
  match Scan.run ⟨[], .content []⟩ text with
  | ⟨tokens, .content seen⟩ => some (tokens ++ textTokens seen)
  | _ => none

/-! ## Putting trees together -/

/-- An element that is open, with the trees in front of it. -/
structure Frame where
  tag : String
  attributes : List Attribute
  before : List Markup

/-- The open elements, the innermost first, and the trees that the innermost one holds so far. -/
structure Builder where
  frames : List Frame
  trees : List Markup

/-- Adds a piece of markup; an end tag has to close the innermost element. -/
def Builder.step (builder : Builder) : Token → Option Builder
  | .text content => some { builder with trees := builder.trees ++ [.text content] }
  | .start tag attributes =>
    if isVoid tag then
      some { builder with trees := builder.trees ++ [.element tag attributes []] }
    else some ⟨⟨tag, attributes, builder.trees⟩ :: builder.frames, []⟩
  | .close tag =>
    match builder.frames with
    | frame :: rest =>
      if frame.tag = tag then
        some ⟨rest, frame.before ++ [.element frame.tag frame.attributes builder.trees]⟩
      else none
    | [] => none

/-- The trees of pieces of markup that leave no element open. -/
def buildTrees (tokens : List Token) : Option (List Markup) :=
  match tokens.foldlM Builder.step ⟨[], []⟩ with
  | some ⟨[], trees⟩ => some trees
  | _ => none

/-- The trees that a text is read as, if it is markup. -/
def readMarkup (text : String) : Option (List Markup) := (tokenize text.toList).bind buildTrees

/-! ## How written markup is told apart -/

namespace Scan

variable {tokens : List Token}

theorem run_append (scan : Scan) (text rest : List Char) :
    scan.run (text ++ rest) = (scan.run text).run rest :=
  List.foldl_append

theorem run_cons (scan : Scan) (c : Char) (rest : List Char) :
    scan.run (c :: rest) = (scan.step c).run rest := rfl

theorem run_nil (scan : Scan) : scan.run [] = scan := rfl

/-- A mode that keeps each of the next characters keeps them all. -/
theorem run_collect (mode : List Char → Mode) {text : List Char}
    (hStep : ∀ c ∈ text, ∀ seen, step ⟨tokens, mode seen⟩ c = ⟨tokens, mode (seen ++ [c])⟩) :
    ∀ seen, run ⟨tokens, mode seen⟩ text = ⟨tokens, mode (seen ++ text)⟩ := by
  induction text with
  | nil =>
    intro seen
    rw [run_nil, List.append_nil]
  | cons c rest ih =>
    intro seen
    obtain ⟨hFirst, hRest⟩ := List.forall_mem_cons.1 hStep
    rw [run_cons, hFirst, ih hRest, List.append_assoc]
    rfl

theorem run_content {text : List Char} (hText : ∀ c ∈ text, c ≠ '<') (seen : List Char) :
    run ⟨tokens, .content seen⟩ text = ⟨tokens, .content (seen ++ text)⟩ :=
  run_collect .content (fun c hMem _ => if_neg (hText c hMem)) seen

theorem run_startName {name : List Char} (hName : ∀ c ∈ name, isNameChar c = true)
    (seen : List Char) : run ⟨tokens, .startName seen⟩ name = ⟨tokens, .startName (seen ++ name)⟩ :=
  run_collect .startName (fun c hMem _ => if_pos (hName c hMem)) seen

theorem run_closeName {name : List Char} (hName : ∀ c ∈ name, isNameChar c = true)
    (seen : List Char) :
    run ⟨tokens, .closeName seen⟩ name = ⟨tokens, .closeName (seen ++ name)⟩ :=
  run_collect .closeName (fun c hMem _ => if_pos (hName c hMem)) seen

theorem run_attributeName {tag : String} {attributes : List Attribute} {name : List Char}
    (hName : ∀ c ∈ name, isNameChar c = true) (seen : List Char) :
    run ⟨tokens, .attributeName tag attributes seen⟩ name =
      ⟨tokens, .attributeName tag attributes (seen ++ name)⟩ :=
  run_collect (.attributeName tag attributes) (fun c hMem _ => if_pos (hName c hMem)) seen

theorem run_value {tag : String} {attributes : List Attribute} {name : String} {text : List Char}
    (hText : ∀ c ∈ text, c ≠ '"') (seen : List Char) :
    run ⟨tokens, .value tag attributes name seen⟩ text =
      ⟨tokens, .value tag attributes name (seen ++ text)⟩ :=
  run_collect (.value tag attributes name) (fun c hMem _ => if_neg (hText c hMem)) seen

end Scan

/-- A name of tags and attributes. -/
def IsName (name : String) : Prop := name ≠ "" ∧ name.toList.all isNameChar = true

instance (name : String) : Decidable (IsName name) :=
  inferInstanceAs (Decidable (name ≠ "" ∧ name.toList.all isNameChar = true))

theorem IsName.toList_ne_nil {name : String} (hName : IsName name) : name.toList ≠ [] :=
  fun hNil => hName.1 (String.toList_eq_nil_iff.1 hNil)

theorem IsName.isNameChar_of_mem {name : String} (hName : IsName name) :
    ∀ c ∈ name.toList, isNameChar c = true :=
  List.all_eq_true.1 hName.2

theorem toList_attribute (a : Attribute) :
    a.text.toList = ' ' :: (a.name.toList ++
      '=' :: '"' :: (escapeAttribute a.value.toList ++ ['"'])) := by
  simp [Attribute.text]

theorem toList_startTag (tag : String) (attributes : List Attribute) :
    (startTag tag attributes).toList =
      '<' :: (tag.toList ++ (attributes.flatMap (·.text.toList) ++ ['>'])) := by
  simp [startTag, String.toList_join, List.flatMap_map]

theorem toList_endTag (tag : String) :
    (endTag tag).toList = '<' :: '/' :: (tag.toList ++ ['>']) := by
  simp [endTag]

theorem mem_escapeText_ne {text : List Char} : ∀ c ∈ escapeText text, c ≠ '<' :=
  fun _ hMem => (escapeText_noAngle hMem).1

theorem mem_escapeAttribute_ne {value : List Char} : ∀ c ∈ escapeAttribute value, c ≠ '"' :=
  fun _ hMem => escapeAttribute_noQuote hMem

namespace Scan

variable {tokens : List Token} {tag : String} {attributes : List Attribute}

/-- Behind its blank an attribute is read with its value, whatever stands in it. -/
theorem run_attribute {a : Attribute} (hName : IsName a.name) :
    run ⟨tokens, .attributeName tag attributes []⟩
        (a.name.toList ++ '=' :: '"' :: (escapeAttribute a.value.toList ++ ['"'])) =
      ⟨tokens, .valueEnd tag (attributes ++ [a])⟩ := by
  have hEquals : step ⟨tokens, .attributeName tag attributes a.name.toList⟩ '=' =
      ⟨tokens, .equals tag attributes a.name⟩ := by
    simp [step, goTo, isNameChar, hName.toList_ne_nil]
  have hQuote : step ⟨tokens, .equals tag attributes a.name⟩ '"' =
      ⟨tokens, .value tag attributes a.name []⟩ := rfl
  have hEnd : step ⟨tokens, .value tag attributes a.name (escapeAttribute a.value.toList)⟩ '"' =
      ⟨tokens, .valueEnd tag (attributes ++ [a])⟩ := by
    simp [step, goTo, decode_escapeAttribute]
  rw [run_append, run_attributeName hName.isNameChar_of_mem, List.nil_append, run_cons, hEquals,
    run_cons, hQuote, run_append, run_value mem_escapeAttribute_ne, List.nil_append, run_cons,
    hEnd, run_nil]

/-- The attributes behind others are read in their order, up to the end of the tag. -/
theorem run_attributes {others : List Attribute} (hNames : ∀ a ∈ others, IsName a.name) :
    ∀ attributes, run ⟨tokens, .valueEnd tag attributes⟩
        (others.flatMap (·.text.toList) ++ ['>']) =
      ⟨tokens ++ [.start tag (attributes ++ others)], .content []⟩ := by
  induction others with
  | nil =>
    intro attributes
    rw [List.append_nil]
    rfl
  | cons a rest ih =>
    intro attributes
    have hBlank : step ⟨tokens, .valueEnd tag attributes⟩ ' ' =
        ⟨tokens, .attributeName tag attributes []⟩ := rfl
    obtain ⟨hFirst, hRest⟩ := List.forall_mem_cons.1 hNames
    rw [List.flatMap_cons, toList_attribute, List.append_assoc, List.cons_append, run_cons, hBlank,
      run_append, run_attribute hFirst, ih hRest, List.append_assoc]
    rfl

theorem run_startTag (hTag : IsName tag) (hNames : ∀ a ∈ attributes, IsName a.name)
    (seen : List Char) :
    run ⟨tokens, .content seen⟩ (startTag tag attributes).toList =
      ⟨tokens ++ textTokens seen ++ [.start tag attributes], .content []⟩ := by
  generalize hBefore : tokens ++ textTokens seen = before
  have hOpen : step ⟨tokens, .content seen⟩ '<' = ⟨before, .tag⟩ := hBefore ▸ rfl
  have hName : run ⟨before, .tag⟩ tag.toList = ⟨before, .startName tag.toList⟩ := by
    cases hList : tag.toList with
    | nil => exact absurd hList hTag.toList_ne_nil
    | cons first rest =>
      have hChars := hTag.isNameChar_of_mem
      rw [hList, List.forall_mem_cons] at hChars
      have hSlash : first ≠ '/' := fun hEq => absurd (hEq ▸ hChars.1) (by decide)
      have hFirst : step ⟨before, .tag⟩ first = ⟨before, .startName [first]⟩ := by
        simp [step, goTo, hSlash, hChars.1]
      rw [run_cons, hFirst, run_startName hChars.2]
      rfl
  rw [toList_startTag, run_cons, hOpen, run_append, hName]
  cases attributes with
  | nil =>
    have hEnd : step ⟨before, .startName tag.toList⟩ '>' =
        ⟨before ++ [.start tag []], .content []⟩ := by
      simp [step, emit, isNameChar]
    exact hEnd
  | cons a rest =>
    have hBlank : step ⟨before, .startName tag.toList⟩ ' ' =
        ⟨before, .attributeName tag [] []⟩ := by
      simp [step, goTo, isNameChar]
    obtain ⟨hFirst, hRest⟩ := List.forall_mem_cons.1 hNames
    rw [List.flatMap_cons, toList_attribute, List.append_assoc, List.cons_append, run_cons, hBlank,
      run_append, run_attribute hFirst, run_attributes hRest]
    rfl

theorem run_endTag (hTag : IsName tag) (seen : List Char) :
    run ⟨tokens, .content seen⟩ (endTag tag).toList =
      ⟨tokens ++ textTokens seen ++ [.close tag], .content []⟩ := by
  generalize hBefore : tokens ++ textTokens seen = before
  have hOpen : step ⟨tokens, .content seen⟩ '<' = ⟨before, .tag⟩ := hBefore ▸ rfl
  have hSlash : step ⟨before, .tag⟩ '/' = ⟨before, .closeName []⟩ := rfl
  have hEnd : step ⟨before, .closeName tag.toList⟩ '>' =
      ⟨before ++ [.close tag], .content []⟩ := by
    simp [step, emit, isNameChar]
  rw [toList_endTag, run_cons, hOpen, run_cons, hSlash, run_append,
    run_closeName hTag.isNameChar_of_mem, List.nil_append, run_cons, hEnd, run_nil]

theorem run_escapeText (text : List Char) :
    run ⟨tokens, .content []⟩ (escapeText text) = ⟨tokens, .content (escapeText text)⟩ :=
  run_content mem_escapeText_ne []

end Scan

/-! ## A start tag inside a text

Where a start tag with an attribute stands in markup it is a tag of the markup,
as long as its first value does not begin as the end of a tag does. Inside a
value its own quote would end that value, and what comes then is no markup.
-/

namespace Scan

variable {tokens : List Token}

/-- What was read stays read. -/
theorem tokens_prefix_step (scan : Scan) (c : Char) : scan.tokens <+: (scan.step c).tokens := by
  unfold step
  repeat' split
  all_goals first
    | exact List.prefix_rfl
    | exact List.prefix_append _ _

theorem tokens_prefix_run (text : List Char) :
    ∀ scan : Scan, scan.tokens <+: (scan.run text).tokens := by
  induction text with
  | nil => exact fun _ => List.prefix_rfl
  | cons c rest ih => exact fun scan => (scan.tokens_prefix_step c).trans (ih (scan.step c))

theorem run_broken (text : List Char) : run ⟨tokens, .broken⟩ text = ⟨tokens, .broken⟩ :=
  List.foldl_fixed' (fun _ => rfl) text

/-- What stands behind the opening quote of a value that does not begin as the end of a tag. -/
theorem exists_cons_escapeAttribute {value : List Char}
    (hBlank : value.head? ≠ some ' ') (hEnd : value.head? ≠ some '>') (rest : List Char) :
    ∃ d more, escapeAttribute value ++ '"' :: rest = d :: more ∧ d ≠ ' ' ∧ d ≠ '>' := by
  cases value with
  | nil => exact ⟨'"', rest, rfl, by decide, by decide⟩
  | cons c others =>
    rw [escapeAttribute, List.flatMap_cons, List.append_assoc]
    unfold escapeAttributeChar
    split
    case h_4 =>
      exact ⟨c, _, rfl, fun hEq => hBlank (congrArg some hEq), fun hEq => hEnd (congrArg some hEq)⟩
    all_goals exact ⟨'&', _, rfl, by decide, by decide⟩

/-- Anywhere but between tags such a start tag is no markup. -/
theorem run_startTag_inside {mode : Mode} {tag : String} {a : Attribute} {rest : List Attribute}
    (hMode : ∀ seen, mode ≠ .content seen) (hTag : IsName tag) (hName : IsName a.name)
    (hBlank : a.value.toList.head? ≠ some ' ') (hEnd : a.value.toList.head? ≠ some '>') :
    (run ⟨tokens, mode⟩ (startTag tag (a :: rest)).toList).mode = .broken := by
  -- Only within a value is there anything to read behind the angle bracket.
  have hElsewhere (hStep : step ⟨tokens, mode⟩ '<' = ⟨tokens, .broken⟩) :
      (run ⟨tokens, mode⟩ (startTag tag (a :: rest)).toList).mode = .broken := by
    rw [toList_startTag, run_cons, hStep, run_broken]
  cases mode with
  | content seen => exact absurd rfl (hMode seen)
  | value otherTag attributes name seen =>
    have hOpening : ∀ c ∈ '<' :: (tag.toList ++ ' ' :: (a.name.toList ++ ['='])), c ≠ '"' := by
      have hNoQuote {s : String} (hs : IsName s) : ∀ c ∈ s.toList, c ≠ '"' :=
        fun c hMem hEq => absurd (hEq ▸ hs.isNameChar_of_mem c hMem) (by decide)
      simp only [List.forall_mem_cons, List.forall_mem_append]
      exact ⟨by decide, hNoQuote hTag, by decide, hNoQuote hName, by decide, nofun⟩
    obtain ⟨d, more, hRest, hNoBlank, hNoEnd⟩ :=
      exists_cons_escapeAttribute hBlank hEnd (rest.flatMap (·.text.toList) ++ ['>'])
    have hText : (startTag tag (a :: rest)).toList =
        '<' :: (tag.toList ++ ' ' :: (a.name.toList ++ ['='])) ++ '"' :: d :: more := by
      rw [toList_startTag, List.flatMap_cons, toList_attribute, ← hRest]
      simp only [List.append_assoc, List.cons_append, List.nil_append]
    have hQuote (seen) : step ⟨tokens, .value otherTag attributes name seen⟩ '"' =
        ⟨tokens, .valueEnd otherTag (attributes ++ [⟨name, String.ofList (decode seen)⟩])⟩ := rfl
    have hAfter (found) : step ⟨tokens, .valueEnd otherTag found⟩ d = ⟨tokens, .broken⟩ :=
      (if_neg hNoBlank).trans (if_neg hNoEnd)
    rw [hText, run_append, run_value hOpening, run_cons, hQuote, run_cons, hAfter, run_broken]
  | attributeName otherTag attributes seen => exact hElsewhere (by simp [step, goTo, isNameChar])
  | startName seen => exact hElsewhere (by simp [step, goTo, isNameChar])
  | closeName seen => exact hElsewhere (by simp [step, goTo, isNameChar])
  | tag => exact hElsewhere rfl
  | equals otherTag attributes name => exact hElsewhere rfl
  | valueEnd otherTag attributes => exact hElsewhere rfl
  | broken => exact hElsewhere rfl

end Scan

/-- Markup ends between tags. -/
theorem tokenize_eq_some {text : List Char} {found : List Token}
    (hRead : tokenize text = some found) :
    ∃ seen, (Scan.run ⟨[], .content []⟩ text).mode = .content seen ∧
      found = (Scan.run ⟨[], .content []⟩ text).tokens ++ textTokens seen := by
  unfold tokenize at hRead
  split at hRead
  case h_1 tokens seen hRun =>
    rw [hRun]
    exact ⟨seen, rfl, (Option.some.inj hRead).symm⟩
  case h_2 => cases hRead

/-- A start tag that stands in markup is a start tag of the markup. -/
theorem start_mem_of_infix {text : List Char} {found : List Token} {tag : String} {a : Attribute}
    {rest : List Attribute} (hRead : tokenize text = some found) (hTag : IsName tag)
    (hNames : ∀ b ∈ a :: rest, IsName b.name)
    (hBlank : a.value.toList.head? ≠ some ' ') (hEnd : a.value.toList.head? ≠ some '>')
    (hInfix : (startTag tag (a :: rest)).toList <:+: text) :
    Token.start tag (a :: rest) ∈ found := by
  obtain ⟨before, after, rfl⟩ := hInfix
  obtain ⟨seen, hMode, rfl⟩ := tokenize_eq_some hRead
  rw [Scan.run_append, Scan.run_append] at hMode ⊢
  generalize Scan.run ⟨[], .content []⟩ before = scan at hMode ⊢
  obtain ⟨tokens, mode⟩ := scan
  by_cases hContent : ∃ text, mode = .content text
  · obtain ⟨text, rfl⟩ := hContent
    rw [Scan.run_startTag hTag hNames]
    refine List.mem_append_left _ ((Scan.tokens_prefix_run after _).subset ?_)
    exact List.mem_append_right _ (List.mem_singleton_self _)
  · have hBroken : (Scan.run ⟨tokens, mode⟩ (startTag tag (a :: rest)).toList).mode = .broken :=
      Scan.run_startTag_inside (fun text hEq => hContent ⟨text, hEq⟩) hTag
        (hNames a List.mem_cons_self) hBlank hEnd
    generalize Scan.run ⟨tokens, mode⟩ (startTag tag (a :: rest)).toList = scan at hBroken hMode
    obtain ⟨tokens, mode⟩ := scan
    obtain rfl : mode = .broken := hBroken
    rw [Scan.run_broken] at hMode
    cases hMode

end Pagewright.Preview
