import Pagewright.Page.Element

/-!
# Promoting blocks to the top level

A page often is one plain section with one column that holds everything. To
make its blocks editable on their own, every inner section of that column
becomes a section of its own, and the runs of other elements between them are
wrapped in new sections. The section stays as it is when that would give one
block only.

The blocks of a column are found first, as plain data; ids are handed out for
the new sections afterwards, in order.

## Main results

* `blocks_members` — a column is the concatenation of its blocks.
* `length_blocks` — as many blocks are taken as were counted.
-/

namespace Pagewright.Page

variable {ι : Type}

/-- A block of a column: an inner section, or a run of other elements. -/
inductive Block (ι : Type) where
  | promoted (section_ : Element ι)
  | run (elements : List (Element ι))

/-- The blocks of a column, where `buffer` are the elements since the last section. -/
def blocksFrom (buffer : List (Element ι)) : List (Element ι) → List (Block ι)
  | [] => if buffer.isEmpty then [] else [.run buffer]
  | e :: rest =>
    if e.isInnerSection then
      (if buffer.isEmpty then [] else [.run buffer]) ++ .promoted e :: blocksFrom [] rest
    else blocksFrom (buffer ++ [e]) rest

/-- The blocks of a column. -/
def blocks (elements : List (Element ι)) : List (Block ι) := blocksFrom [] elements

/-- The elements that a block was made of. -/
def Block.members : Block ι → List (Element ι)
  | .promoted e => [e]
  | .run elements => elements

theorem blocksFrom_members (buffer es : List (Element ι)) :
    (blocksFrom buffer es).flatMap Block.members = buffer ++ es := by
  induction es generalizing buffer with
  | nil => by_cases h : buffer.isEmpty <;> simp_all [blocksFrom, Block.members]
  | cons e rest ih =>
    unfold blocksFrom
    split
    · by_cases h : buffer.isEmpty <;> simp_all [Block.members]
    · rw [ih, List.append_assoc, List.singleton_append]

/-- A column is the concatenation of its blocks. -/
theorem blocks_members (es : List (Element ι)) : (blocks es).flatMap Block.members = es := by
  rw [blocks, blocksFrom_members, List.nil_append]

/-! Whether a split is worth it is decided by a count, before any block is taken. -/

/-- The number of blocks of a column, where `inRun` tells whether a run goes on. -/
def countFrom (inRun : Bool) : List (Element ι) → Nat
  | [] => 0
  | e :: rest =>
    if e.isInnerSection then countFrom false rest + 1
    else if inRun then countFrom true rest
    else countFrom true rest + 1

/-- The number of blocks of a column. -/
def blockCount (elements : List (Element ι)) : Nat := countFrom false elements

theorem length_blocksFrom (es : List (Element ι)) :
    ∀ buffer : List (Element ι), (blocksFrom buffer es).length =
      countFrom (!buffer.isEmpty) es + if buffer.isEmpty then 0 else 1 := by
  induction es with
  | nil => intro buffer; cases buffer <;> rfl
  | cons e rest ih =>
    intro buffer
    rw [blocksFrom, countFrom]
    split
    · rw [List.length_append, List.length_cons, ih [], Nat.add_comm]
      cases buffer <;> rfl
    · -- A run goes on behind the element, whether it began there or before.
      have hRun : (buffer ++ [e]).isEmpty = false := by cases buffer <;> rfl
      rw [ih (buffer ++ [e]), hRun]
      cases buffer <;> rfl

/-- The count is the number of blocks that are taken. -/
theorem length_blocks (es : List (Element ι)) : (blocks es).length = blockCount es :=
  length_blocksFrom es []

/-! ## Sections of their own -/

/-- The path of the part of a new section that stands before `count` blocks more. -/
def runPath (part : String) (index position : Nat) : String :=
  part ++ ".simple." ++ toString index ++ ".buf." ++ toString position

/-- The sections of blocks, the first of which comes at `position`. -/
def sectionsOf (index : Nat) : Nat → List (Block String) → Issued →
    List (Element String) × Issued
  | _, [], issued => ([], issued)
  | position, .promoted e :: rest, issued =>
    let others := sectionsOf index (position + 1) rest issued
    ({ e with inner := false } :: others.1, others.2)
  | position, .run elements :: rest, issued =>
    let outer := issued.allocate (runPath "section" index position)
    let column := outer.2.allocate (runPath "column" index position)
    let others := sectionsOf index (position + 1) rest column.2
    (Element.ofSection outer.1 false [] [Element.ofColumn column.1 [] elements] :: others.1,
     others.2)

/-- The elements of the only column of a plain top-level section. -/
def soleColumn? (e : Element ι) : Option (List (Element ι)) :=
  if e.kind == .section && !e.inner && e.settings.isEmpty then
    match e.elements with
    | [column] => if column.kind = .column then some column.elements else none
    | _ => none
  else none

/-- What stands at the top level for the element at an index. -/
def splitElement (index : Nat) (e : Element String) (issued : Issued) :
    List (Element String) × Issued :=
  match soleColumn? e with
  | none => ([e], issued)
  | some elements =>
    if blockCount elements ≤ 1 then ([e], issued)
    else sectionsOf index 0 (blocks elements) issued

/-- The elements from an index on, split. -/
def splitFrom : Nat → List (Element String) → Issued → List (Element String) × Issued
  | _, [], issued => ([], issued)
  | index, e :: rest, issued =>
    let first := splitElement index e issued
    let others := splitFrom (index + 1) rest first.2
    (first.1 ++ others.1, others.2)

/-- A page with its blocks at the top level. -/
def split (content : List (Element String)) (issued : Issued) :
    List (Element String) × Issued :=
  splitFrom 0 content issued

end Pagewright.Page
