import Mathlib.Data.List.Infix
import Pagewright.Proofs.Page.Build
import Pagewright.Proofs.Page.Labels

/-!
# Structural paths are told apart by their spelling

Every element asks for its id with the spelling of its structural path. A step of
a path is spelled as a number, as a word, or as a word and a number after a point.
As neither a number nor a word holds a point, and no word is a number, a reader
takes a spelled path apart step by step; so paths from the same root are spelled
alike only if they are the same path.

In what is built the elements inside an element lie below its path, and those of
different children or columns below different steps. So no path occurs twice. The
block around a leaf and the sections around runs have spellings of their own.

## Main results

* `readStep_text` — a step is read back from its spelling.
* `Path.text_injective` — paths from one root have different spellings.
* `rooted_build` — what is built has different paths, all of them below that of the root.
* `nodup_requests` — the paths that an export asks ids for are different.
-/

namespace Pagewright.Page

open Layout Element

variable {d : Dialect}

/-! ## Reading steps -/

/-- A numbered step whose number a text begins with, and the text behind it. -/
def readNumbered (step : Nat → PathStep) (text : List Char) : PathStep × List Char :=
  (step (Nat.ofDigitChars 10 (text.takeWhile Char.isDigit) 0), text.dropWhile Char.isDigit)

/-- The step that a text begins with, and the text behind it. -/
def readStep : List Char → PathStep × List Char
  | 'e' :: 'l' :: 'e' :: 'm' :: 'e' :: 'n' :: 't' :: 's' :: rest => (.elements, rest)
  | 'c' :: 'o' :: 'l' :: 'u' :: 'm' :: 'n' :: '.' :: rest => readNumbered .column rest
  | 'c' :: 'o' :: 'n' :: 't' :: 'a' :: 'i' :: 'n' :: 'e' :: 'r' :: '.' :: rest =>
    readNumbered .container rest
  | 'c' :: 'o' :: 'l' :: '.' :: rest => readNumbered .cell rest
  | text => readNumbered .child text

/-- Texts that do not go on with a digit. -/
def NoDigit (text : List Char) : Prop := ∀ c ∈ text.head?, c.isDigit = false

theorem noDigit_nil : NoDigit [] := by
  intro c hMem
  cases hMem

theorem noDigit_cons {c : Char} (hChar : c.isDigit = false) (text : List Char) :
    NoDigit (c :: text) := by
  intro other hOther
  exact Option.some.inj hOther ▸ hChar

theorem toList_toString (n : Nat) : (toString n).toList = Nat.toDigits 10 n := by
  rw [Nat.toString_eq_ofList_toDigits, String.toList_ofList]

/-- A spelled number reaches as far as there are digits. -/
theorem takeWhile_toDigits (n : Nat) {rest : List Char} (hRest : NoDigit rest) :
    (Nat.toDigits 10 n ++ rest).takeWhile Char.isDigit = Nat.toDigits 10 n ∧
      (Nat.toDigits 10 n ++ rest).dropWhile Char.isDigit = rest := by
  have hDigits : ∀ c ∈ Nat.toDigits 10 n, c.isDigit = true := by
    intro c hMem
    exact Nat.isDigit_of_mem_toDigits (by decide) (by decide) hMem
  rw [List.takeWhile_append_of_pos hDigits, List.dropWhile_append_of_pos hDigits]
  cases rest with
  | nil => simp
  | cons c text =>
    have hChar : c.isDigit = false := hRest c rfl
    simp [hChar]

theorem readNumbered_toDigits (step : Nat → PathStep) (n : Nat) {rest : List Char}
    (hRest : NoDigit rest) : readNumbered step (Nat.toDigits 10 n ++ rest) = (step n, rest) := by
  obtain ⟨hTake, hDrop⟩ := takeWhile_toDigits n hRest
  rw [readNumbered, hTake, hDrop, Nat.ofDigitChars_ten_toDigits]

/-- Numbers that are spelled alike in front of no further digit are the same. -/
theorem toDigits_append_injective {n m : Nat} {rest other : List Char} (hRest : NoDigit rest)
    (hOther : NoDigit other) (hEq : Nat.toDigits 10 n ++ rest = Nat.toDigits 10 m ++ other) :
    n = m ∧ rest = other := by
  have hRead := readNumbered_toDigits .child n hRest
  rw [hEq, readNumbered_toDigits .child m hOther] at hRead
  obtain ⟨hStep, hBehind⟩ := Prod.mk.inj hRead
  exact ⟨(PathStep.child.inj hStep).symm, hBehind.symm⟩

/-- A spelled number begins with a digit. -/
theorem exists_cons_toDigits (n : Nat) :
    ∃ c rest, Nat.toDigits 10 n = c :: rest ∧ c.isDigit = true := by
  have hDigits : ∀ c ∈ Nat.toDigits 10 n, c.isDigit = true := by
    intro c hMem
    exact Nat.isDigit_of_mem_toDigits (by decide) (by decide) hMem
  cases hList : Nat.toDigits 10 n with
  | nil => exact absurd hList Nat.toDigits_ne_nil
  | cons c rest => exact ⟨c, rest, rfl, hDigits c (by simp [hList])⟩

/-- A step is read back from its spelling. -/
theorem readStep_text (step : PathStep) {rest : List Char} (hRest : NoDigit rest) :
    readStep (step.text.toList ++ rest) = (step, rest) := by
  cases step with
  | elements => rfl
  | column index =>
    have hText : (PathStep.column index).text.toList ++ rest =
        'c' :: 'o' :: 'l' :: 'u' :: 'm' :: 'n' :: '.' :: (Nat.toDigits 10 index ++ rest) := by
      rw [PathStep.text, String.toList_append, toList_toString]
      rfl
    rw [hText]
    exact readNumbered_toDigits .column index hRest
  | container index =>
    have hText : (PathStep.container index).text.toList ++ rest = 'c' :: 'o' :: 'n' :: 't' :: 'a' ::
        'i' :: 'n' :: 'e' :: 'r' :: '.' :: (Nat.toDigits 10 index ++ rest) := by
      rw [PathStep.text, String.toList_append, toList_toString]
      rfl
    rw [hText]
    exact readNumbered_toDigits .container index hRest
  | cell index =>
    have hText : (PathStep.cell index).text.toList ++ rest =
        'c' :: 'o' :: 'l' :: '.' :: (Nat.toDigits 10 index ++ rest) := by
      rw [PathStep.text, String.toList_append, toList_toString]
      rfl
    rw [hText]
    exact readNumbered_toDigits .cell index hRest
  | child index =>
    have hNumber := readNumbered_toDigits .child index hRest
    obtain ⟨c, digits, hDigits, hDigit⟩ := exists_cons_toDigits index
    rw [PathStep.text, toList_toString, ← hNumber, hDigits, List.cons_append, readStep]
    -- No word begins with a digit.
    all_goals
      intro text hEq
      obtain ⟨rfl, -⟩ := List.cons.inj hEq
      exact absurd hDigit (by decide)

/-- A step is spelled with a digit or a word at its beginning. -/
theorem exists_cons_text (step : PathStep) :
    ∃ c rest, step.text.toList = c :: rest ∧ (c.isDigit = true ∨ c = 'e' ∨ c = 'c') := by
  cases step with
  | elements => exact ⟨'e', _, rfl, .inr (.inl rfl)⟩
  | column index | container index | cell index =>
    rw [PathStep.text, String.toList_append]
    exact ⟨'c', _, rfl, .inr (.inr rfl)⟩
  | child index =>
    obtain ⟨c, digits, hDigits, hDigit⟩ := exists_cons_toDigits index
    rw [PathStep.text, toList_toString]
    exact ⟨c, digits, hDigits, .inl hDigit⟩

/-! ## Reading paths -/

namespace Path

/-- The name of the root that a path starts from. -/
def base : Path → String
  | root name => name
  | under parent _ => parent.base

/-- The steps of a path, the first one first. -/
def steps : Path → List PathStep
  | root _ => []
  | under parent step => parent.steps ++ [step]

/-- A path is its root and its steps. -/
theorem eq_of_steps {p : Path} : ∀ {q : Path}, p.base = q.base → p.steps = q.steps → p = q := by
  induction p with
  | root name =>
    intro q hBase hSteps
    cases q with
    | root other => exact congrArg root hBase
    | under parent step => simp [steps] at hSteps
  | under parent step ih =>
    intro q hBase hSteps
    cases q with
    | root other => simp [steps] at hSteps
    | under other last =>
      obtain ⟨hParents, hLast⟩ := List.append_inj' hSteps rfl
      have hSame : parent = other := ih hBase hParents
      rw [hSame, (List.cons.inj hLast).1]

/-- A step as it is spelled behind others. -/
def stepChars (step : PathStep) : List Char := '.' :: step.text.toList

theorem toList_text (p : Path) : p.text.toList = p.base.toList ++ p.steps.flatMap stepChars := by
  induction p with
  | root name => simp [text, base, steps]
  | under parent step ih =>
    have hPoint : ".".toList = ['.'] := rfl
    rw [text, String.toList_append, String.toList_append, ih, hPoint, base, steps,
      List.flatMap_append, List.flatMap_singleton, stepChars]
    simp only [List.append_assoc, List.singleton_append]

theorem noDigit_steps (steps : List PathStep) : NoDigit (steps.flatMap stepChars) := by
  cases steps with
  | nil => exact noDigit_nil
  | cons step rest => exact noDigit_cons (by decide) _

/-- Steps are read one by one, so others are spelled otherwise. -/
theorem stepChars_injective {steps : List PathStep} :
    ∀ {others : List PathStep}, steps.flatMap stepChars = others.flatMap stepChars →
      steps = others := by
  induction steps with
  | nil =>
    intro others hEq
    cases others with
    | nil => rfl
    | cons step rest => simp [stepChars] at hEq
  | cons step rest ih =>
    intro others hEq
    cases others with
    | nil => simp [stepChars] at hEq
    | cons other more =>
      simp only [List.flatMap_cons, stepChars, List.cons_append, List.cons.injEq, true_and] at hEq
      have hRead := readStep_text step (noDigit_steps rest)
      rw [hEq, readStep_text other (noDigit_steps more)] at hRead
      obtain ⟨hStep, hBehind⟩ := Prod.mk.inj hRead
      rw [hStep, ih hBehind.symm]

/-- Paths from one root have different spellings. -/
theorem text_injective {p q : Path} (hBase : p.base = q.base) (hText : p.text = q.text) :
    p = q := by
  have hChars := congrArg String.toList hText
  rw [toList_text, toList_text, hBase] at hChars
  exact eq_of_steps hBase (stepChars_injective (List.append_cancel_left hChars))

/-! ## Below a path -/

/-- Whether a path is another one or leads on from it. -/
def Below (p q : Path) : Prop := p.base = q.base ∧ p.steps <+: q.steps

theorem Below.refl (p : Path) : Below p p := ⟨rfl, List.prefix_refl _⟩

theorem Below.of_under {p q : Path} {step : PathStep} (hBelow : Below (p.under step) q) :
    Below p q :=
  ⟨hBelow.1, (List.prefix_append _ _).trans hBelow.2⟩

/-- The next step towards a path below another one is only one. -/
theorem Below.step_unique {p q : Path} {step other : PathStep} (hStep : Below (p.under step) q)
    (hOther : Below (p.under other) q) : step = other := by
  have hSame : p.steps ++ [step] = p.steps ++ [other] :=
    (List.prefix_of_prefix_length_le hStep.2 hOther.2 (by simp [steps])).eq_of_length
      (by simp [steps])
  exact (List.cons.inj (List.append_cancel_left hSame)).1

theorem not_below_under (p : Path) (step : PathStep) : ¬Below (p.under step) p := by
  intro hBelow
  have hLength := hBelow.2.length_le
  rw [steps, List.length_append, List.length_singleton] at hLength
  omega

end Path

/-! ## Paths in what is built -/

open Pagewright.Page.Path (Below)

/-- Elements whose paths are different, all of them at or below that of the outermost. -/
def Rooted (e : Element Path) : Prop := e.labels.Nodup ∧ ∀ q ∈ e.labels, Below e.id q

/-- An element is rooted when what is in it has different paths below its own. -/
theorem rooted_of_elements {e : Element Path} (hNodup : (labelsAll e.elements).Nodup)
    (hBelow : ∀ q ∈ labelsAll e.elements, ∃ step, Below (e.id.under step) q) : Rooted e := by
  rw [Rooted, labels_eq]
  constructor
  · refine List.nodup_cons.2 ⟨?_, hNodup⟩
    intro hMem
    obtain ⟨step, hStep⟩ := hBelow e.id hMem
    exact Path.not_below_under e.id step hStep
  · intro q hMem
    rcases List.mem_cons.1 hMem with rfl | hInside
    · exact Below.refl _
    · obtain ⟨step, hStep⟩ := hBelow q hInside
      exact hStep.of_under

/-- Elements in front of others have other paths when they lie below other steps. -/
theorem nodup_append_of_below {path : Path} {labels others : List Path}
    (hLabels : labels.Nodup) (hOthers : others.Nodup) {steps otherSteps : PathStep → Prop}
    (hSteps : ∀ q ∈ labels, ∃ step, steps step ∧ Below (path.under step) q)
    (hOtherSteps : ∀ q ∈ others, ∃ step, otherSteps step ∧ Below (path.under step) q)
    (hApart : ∀ step, steps step → ¬otherSteps step) : (labels ++ others).Nodup := by
  refine List.nodup_append'.2 ⟨hLabels, hOthers, ?_⟩
  intro q hMem hOther
  obtain ⟨step, hStep, hBelow⟩ := hSteps q hMem
  obtain ⟨other, hOtherStep, hOtherBelow⟩ := hOtherSteps q hOther
  exact hApart step hStep (hBelow.step_unique hOtherBelow ▸ hOtherStep)

/-- The step from a row to the element of a column. -/
def Dialect.columnStep (d : Dialect) (index : Nat) : PathStep :=
  match d with
  | .container => .container index
  | _ => .column index

theorem wrapColumn_eq (path : Path) (index : Nat) (style : Option Style) (share : Option Nat)
    (elements : List (Element Path)) :
    (d.wrapColumn path index style share elements).id = path.under (d.columnStep index) ∧
      (d.wrapColumn path index style share elements).elements = elements := by
  cases d <;> exact ⟨rfl, rfl⟩

theorem wrapRow_eq (path : Path) (depth : Nat) (style : Option Style)
    (elements : List (Element Path)) :
    (d.wrapRow path depth style elements).id = path ∧
      (d.wrapRow path depth style elements).elements = elements := by
  cases d <;> exact ⟨rfl, rfl⟩

theorem wrapBlock_id (path : Path) (depth : Nat) (style : Option Style)
    (elements : List (Element Path)) : (d.wrapBlock path depth style elements).id = path := by
  cases d <;> rfl

/-- A node is built at its path. -/
theorem id_of_build {path : Path} {depth : Nat} {node : Node} {e : Element Path}
    (hBuilt : build d path depth node = some e) : e.id = path := by
  cases node with
  | «section» style children =>
    rcases row_or_block d children with ⟨hDialect, rowStyle, entries, rfl⟩ | hBlock
    · rw [build_section_row hDialect] at hBuilt
      obtain ⟨row, hRow, rfl⟩ := Option.map_eq_some_iff.1 hBuilt
      obtain ⟨-, rfl⟩ := eq_of_build_columns hRow
      exact (wrapRow_eq path depth rowStyle _).1
    · rw [build_section_block hBlock] at hBuilt
      obtain ⟨-, rfl⟩ := eq_of_build_container hBuilt
      exact wrapBlock_id path depth style _
  | container style children =>
    obtain ⟨-, rfl⟩ := eq_of_build_container hBuilt
    exact wrapBlock_id path depth style _
  | columns style entries =>
    obtain ⟨-, rfl⟩ := eq_of_build_columns hBuilt
    exact (wrapRow_eq path depth style _).1
  | heading | text | image | button | input | nav | unknown =>
    obtain ⟨-, widget, settings, -, rfl⟩ := eq_of_build_leaf rfl hBuilt
    rfl

/-- The steps to the children from an index on. -/
def FromChild (index : Nat) (step : PathStep) : Prop := ∃ i, index ≤ i ∧ step = .child i

/-- The elements of nodes lie below the steps to the nodes. -/
theorem labels_buildNodes (depth : Nat) {nodes : List Node}
    (hRooted : ∀ node ∈ nodes, ∀ path depth e, build d path depth node = some e → Rooted e)
    (path : Path) : ∀ index,
      (labelsAll (buildNodes d path depth index nodes)).Nodup ∧
        ∀ q ∈ labelsAll (buildNodes d path depth index nodes),
          ∃ step, FromChild index step ∧ Below (path.under step) q := by
  induction nodes with
  | nil => exact fun index => ⟨List.nodup_nil, nofun⟩
  | cons node rest ih =>
    intro index
    obtain ⟨hNode, hRest⟩ := List.forall_mem_cons.1 hRooted
    obtain ⟨hNodup, hBelow⟩ := ih hRest (index + 1)
    have hFirst : (labelsAll (build d (path.under (.child index)) depth node).toList).Nodup ∧
        ∀ q ∈ labelsAll (build d (path.under (.child index)) depth node).toList,
          ∃ step, step = .child index ∧ Below (path.under step) q := by
      cases hBuilt : build d (path.under (.child index)) depth node with
      | none => exact ⟨List.nodup_nil, nofun⟩
      | some e =>
        obtain ⟨hOwn, hInside⟩ := hNode _ _ _ hBuilt
        rw [id_of_build hBuilt] at hInside
        rw [Option.toList_some, labelsAll_singleton]
        exact ⟨hOwn, fun q hMem => ⟨_, rfl, hInside q hMem⟩⟩
    rw [buildNodes, labelsAll_append]
    constructor
    · refine nodup_append_of_below hFirst.1 hNodup hFirst.2 hBelow ?_
      rintro step rfl ⟨i, hIndex, hStep⟩
      have hSame : index = i := PathStep.child.inj hStep
      omega
    · intro q hMem
      rcases List.mem_append.1 hMem with hMem | hMem
      · obtain ⟨step, hStep, hQ⟩ := hFirst.2 q hMem
        exact ⟨step, ⟨index, Nat.le_refl index, hStep⟩, hQ⟩
      · obtain ⟨step, ⟨i, hIndex, hStep⟩, hQ⟩ := hBelow q hMem
        exact ⟨step, ⟨i, by omega, hStep⟩, hQ⟩

/-- The steps to the column at an index and to the nodes in it. -/
def AtColumn (d : Dialect) (index : Nat) (step : PathStep) : Prop :=
  step = d.columnStep index ∨ step = .cell index

theorem columnStep_injective {index other : Nat} (hEq : d.columnStep index = d.columnStep other) :
    index = other := by
  cases d with
  | container => exact PathStep.container.inj hEq
  | classic | classicSimple => exact PathStep.column.inj hEq

theorem columnStep_ne_cell (index other : Nat) : d.columnStep index ≠ .cell other := by
  cases d <;> exact PathStep.noConfusion

/-- Different columns are at different steps. -/
theorem AtColumn.index_unique {index other : Nat} {step : PathStep} (hStep : AtColumn d index step)
    (hOther : AtColumn d other step) : index = other := by
  rcases hStep with rfl | rfl
  · rcases hOther with hEq | hEq
    · exact columnStep_injective hEq
    · exact absurd hEq (columnStep_ne_cell _ _)
  · rcases hOther with hEq | hEq
    · exact absurd hEq.symm (columnStep_ne_cell _ _)
    · exact PathStep.cell.inj hEq

/-- The element of a column lies at the step of the column, and what is in it at the step to
its nodes. -/
theorem labels_wrapColumn (depth : Nat) {nodes : List Node}
    (hRooted : ∀ node ∈ nodes, ∀ path depth e, build d path depth node = some e → Rooted e)
    (path : Path) (index : Nat) (style : Option Style) (share : Option Nat) :
    (d.wrapColumn path index style share
        (buildNodes d (Dialect.cellPath path index) depth 0 nodes)).labels.Nodup ∧
      ∀ q ∈ (d.wrapColumn path index style share
          (buildNodes d (Dialect.cellPath path index) depth 0 nodes)).labels,
        ∃ step, AtColumn d index step ∧ Below (path.under step) q := by
  obtain ⟨hNodup, hBelow⟩ := labels_buildNodes depth hRooted (path.under (.cell index)) 0
  obtain ⟨hId, hElements⟩ := wrapColumn_eq (d := d) path index style share
    (buildNodes d (Dialect.cellPath path index) depth 0 nodes)
  have hCell : ∀ q ∈ labelsAll (buildNodes d (Dialect.cellPath path index) depth 0 nodes),
      Below (path.under (.cell index)) q := by
    intro q hMem
    obtain ⟨step, -, hStep⟩ := hBelow q hMem
    exact hStep.of_under
  rw [labels_eq, hId, hElements]
  constructor
  · refine List.nodup_cons.2 ⟨?_, hNodup⟩
    intro hMem
    have hSame := (hCell _ hMem).step_unique (Below.refl (path.under (d.columnStep index)))
    exact columnStep_ne_cell index index hSame.symm
  · intro q hMem
    rcases List.mem_cons.1 hMem with rfl | hInside
    · exact ⟨_, .inl rfl, Below.refl _⟩
    · exact ⟨_, .inr rfl, hCell q hInside⟩

/-- The elements of a row lie at the steps of its columns. -/
theorem labels_buildColumns (depth : Nat) {entries : List Column}
    (hRooted : ∀ column ∈ entries, ∀ node ∈ column.children, ∀ path depth e,
      build d path depth node = some e → Rooted e)
    (path : Path) (shares : Option (List Nat)) : ∀ kept index,
      (labelsAll (buildColumns d path depth shares kept index entries)).Nodup ∧
        ∀ q ∈ labelsAll (buildColumns d path depth shares kept index entries),
          ∃ step, (∃ i, index ≤ i ∧ AtColumn d i step) ∧ Below (path.under step) q := by
  induction entries with
  | nil => exact fun kept index => ⟨List.nodup_nil, nofun⟩
  | cons column rest ih =>
    intro kept index
    obtain ⟨style, children⟩ := column
    obtain ⟨hColumn, hRest⟩ := List.forall_mem_cons.1 hRooted
    rw [buildColumns]
    by_cases hContent : Node.anyContent children = true
    · obtain ⟨hNodup, hBelow⟩ := ih hRest (kept + 1) (index + 1)
      obtain ⟨hOwn, hInside⟩ := labels_wrapColumn depth hColumn path index style
        (shares.bind (·[kept]?))
      rw [if_pos hContent, labelsAll]
      constructor
      · refine nodup_append_of_below hOwn hNodup hInside hBelow ?_
        rintro step hStep ⟨i, hIndex, hOther⟩
        have hSame : index = i := hStep.index_unique hOther
        omega
      · intro q hMem
        rcases List.mem_append.1 hMem with hMem | hMem
        · obtain ⟨step, hStep, hQ⟩ := hInside q hMem
          exact ⟨step, ⟨index, Nat.le_refl index, hStep⟩, hQ⟩
        · obtain ⟨step, ⟨i, hIndex, hStep⟩, hQ⟩ := hBelow q hMem
          exact ⟨step, ⟨i, by omega, hStep⟩, hQ⟩
    · obtain ⟨hNodup, hBelow⟩ := ih hRest kept (index + 1)
      rw [if_neg hContent]
      refine ⟨hNodup, fun q hMem => ?_⟩
      obtain ⟨step, ⟨i, hIndex, hStep⟩, hQ⟩ := hBelow q hMem
      exact ⟨step, ⟨i, by omega, hStep⟩, hQ⟩

/-- A block around the elements of nodes. In the classic dialects its column stands between. -/
theorem rooted_wrapBlock {nodes : List Node}
    (hRooted : ∀ node ∈ nodes, ∀ path depth e, build d path depth node = some e → Rooted e)
    (path : Path) (depth : Nat) (style : Option Style) :
    Rooted (d.wrapBlock path depth style
      (buildNodes d (d.blockPath path) (d.blockDepth depth) 0 nodes)) := by
  obtain ⟨hNodup, hBelow⟩ :=
    labels_buildNodes (d.blockDepth depth) hRooted (d.blockPath path) 0
  have hBlock {parent : Path} (hParent : d.blockPath path = parent.under .elements) :
      ∀ q ∈ labelsAll (buildNodes d (d.blockPath path) (d.blockDepth depth) 0 nodes),
        ∃ step, Below (parent.under step) q := by
    intro q hMem
    obtain ⟨step, -, hStep⟩ := hBelow q hMem
    exact ⟨.elements, hParent ▸ hStep.of_under⟩
  cases d with
  | container => exact rooted_of_elements hNodup (hBlock rfl)
  | classic | classicSimple =>
    have hColumn : Rooted (Element.ofColumn (path.under (.column 0)) [] _) :=
      rooted_of_elements hNodup (hBlock rfl)
    refine rooted_of_elements ?_ ?_
    · show (labelsAll [_]).Nodup
      rw [labelsAll_singleton]
      exact hColumn.1
    · intro q hMem
      have hInside : q ∈ labelsAll [_] := hMem
      rw [labelsAll_singleton] at hInside
      exact ⟨.column 0, hColumn.2 q hInside⟩

/-- A row around the elements of its columns. -/
theorem rooted_wrapRow {entries : List Column}
    (hRooted : ∀ column ∈ entries, ∀ node ∈ column.children, ∀ path depth e,
      build d path depth node = some e → Rooted e)
    (path : Path) (depth : Nat) (style : Option Style) :
    Rooted (d.wrapRow path depth style
      (buildColumns d path (depth + 2) (rowShares entries) 0 0 entries)) := by
  obtain ⟨hNodup, hBelow⟩ :=
    labels_buildColumns (depth + 2) hRooted path (rowShares entries) 0 0
  have hElements : ∀ q ∈ labelsAll (buildColumns d path (depth + 2) (rowShares entries) 0 0
      entries), ∃ step, Below (path.under step) q := by
    intro q hMem
    obtain ⟨step, -, hStep⟩ := hBelow q hMem
    exact ⟨step, hStep⟩
  cases d <;> exact rooted_of_elements hNodup hElements

/-- What is built has different paths, all of them at or below that of the node. -/
theorem rooted_build (node : Node) : ∀ path depth e,
    build d path depth node = some e → Rooted e := by
  refine build_induct (motive := fun _ e => Rooted e) ?leaf ?container ?columns ?sectionBlock
    ?sectionRow node
  case leaf =>
    intro node path widget settings _ _ _
    exact rooted_of_elements List.nodup_nil nofun
  case container =>
    intro style children path depth _ ih
    exact rooted_wrapBlock ih path depth style
  case columns =>
    intro style entries path depth _ ih
    exact rooted_wrapRow ih path depth style
  case sectionBlock => exact fun _ _ _ _ hBlock => hBlock
  case sectionRow =>
    intro style rowStyle entries path depth _ hRow
    -- The row takes over settings of the section, and no paths.
    rw [Rooted, labels_eq] at hRow ⊢
    exact hRow

/-! ## Requests of an export -/

/-- The block around a leaf has spellings that no path of a layout has. -/
theorem text_ne_wrapRequest {p : Path} (hBase : p.base = "root") {request : String}
    (hRequest : request ∈ wrapRequests d 0) : p.text ≠ request := by
  have hWraps : ∀ other ∈ wrapRequests d 0,
      ['r', 'o', 'o', 't', '.', 'w'].isPrefixOf other.toList = true := by
    cases d <;> decide +kernel
  have hRoot : "root".toList = ['r', 'o', 'o', 't'] := rfl
  rintro rfl
  have hPrefix := List.isPrefixOf_iff_prefix.1 (hWraps _ hRequest)
  rw [Path.toList_text, hBase, hRoot] at hPrefix
  have hSteps : ['.', 'w'] <+: p.steps.flatMap Path.stepChars :=
    (List.prefix_append_right_inj ['r', 'o', 'o', 't']).1 hPrefix
  cases hList : p.steps with
  | nil =>
    rw [hList] at hSteps
    exact absurd (List.prefix_nil.1 hSteps) (by decide)
  | cons step rest =>
    obtain ⟨c, text, hText, hFirst⟩ := exists_cons_text step
    rw [hList, List.flatMap_cons, Path.stepChars, hText] at hSteps
    have hChar : 'w' = c := by simpa using hSteps
    subst hChar
    exact absurd hFirst (by decide)

/-- The sections around runs have spellings that no path starting from a root has. -/
theorem runPath_ne {part : String} (hPart : part ∈ ["section", "column"]) (index position : Nat)
    {request : String} (hRequest : ['r'].isPrefixOf request.toList = true) :
    runPath part index position ≠ request := by
  rintro rfl
  simp only [List.mem_cons, List.not_mem_nil, or_false] at hPart
  rcases hPart with rfl | rfl <;>
  · simp only [runPath, String.toList_append] at hRequest
    cases hRequest

/-- A spelling of a run tells its part, its index and its position. -/
theorem runPath_injective {part other : String} (hPart : part ∈ ["section", "column"])
    (hOther : other ∈ ["section", "column"]) {index position otherIndex otherPosition : Nat}
    (hEq : runPath part index position = runPath other otherIndex otherPosition) :
    part = other ∧ index = otherIndex ∧ position = otherPosition := by
  have hChars : part.toList ++ (".simple.".toList ++ (Nat.toDigits 10 index ++
        (".buf.".toList ++ Nat.toDigits 10 position))) =
      other.toList ++ (".simple.".toList ++ (Nat.toDigits 10 otherIndex ++
        (".buf.".toList ++ Nat.toDigits 10 otherPosition))) := by
    simpa only [runPath, String.toList_append, toList_toString, List.append_assoc] using
      congrArg String.toList hEq
  have hSame : part = other := by
    simp only [List.mem_cons, List.not_mem_nil, or_false] at hPart hOther
    rcases hPart with rfl | rfl <;> rcases hOther with rfl | rfl
    · rfl
    · cases (List.cons.inj hChars).1
    · cases (List.cons.inj hChars).1
    · rfl
  rw [hSame] at hChars
  have hPoint (n : Nat) : NoDigit (".buf.".toList ++ Nat.toDigits 10 n) :=
    noDigit_cons (by decide : '.'.isDigit = false) _
  obtain ⟨hIndex, hBehind⟩ := toDigits_append_injective (hPoint position) (hPoint otherPosition)
    (List.append_cancel_left (List.append_cancel_left hChars))
  have hPositions : Nat.toDigits 10 position ++ [] = Nat.toDigits 10 otherPosition ++ [] := by
    simpa using List.append_cancel_left hBehind
  obtain ⟨hPosition, -⟩ := toDigits_append_injective noDigit_nil noDigit_nil hPositions
  exact ⟨hSame, hIndex, hPosition⟩

variable {ι : Type}

/-- The spellings of one block of a split element are different. -/
theorem nodup_blockRequests (index position : Nat) (block : Block ι) :
    (block.requests index position).Nodup ∧
      ∀ request ∈ block.requests index position, ∃ part ∈ ["section", "column"],
        request = runPath part index position := by
  cases block with
  | promoted e => exact ⟨List.nodup_nil, nofun⟩
  | run elements =>
    constructor
    · refine List.nodup_cons.2 ⟨?_, List.nodup_singleton _⟩
      intro hMem
      have hParts := (runPath_injective (by decide) (by decide) (List.mem_singleton.1 hMem)).1
      exact absurd hParts (by decide)
    · intro request hMem
      rcases List.mem_cons.1 hMem with hSection | hColumn
      · exact ⟨"section", by decide, hSection⟩
      · exact ⟨"column", by decide, List.mem_singleton.1 hColumn⟩

/-- The spellings of the sections of blocks are different. -/
theorem nodup_sectionRequests (index : Nat) (bs : List (Block ι)) : ∀ position,
    (sectionRequests index position bs).Nodup ∧
      ∀ request ∈ sectionRequests index position bs, ∃ part ∈ ["section", "column"],
        ∃ other, position ≤ other ∧ request = runPath part index other := by
  induction bs with
  | nil => exact fun position => ⟨List.nodup_nil, nofun⟩
  | cons block rest ih =>
    intro position
    obtain ⟨hNodup, hRuns⟩ := ih (position + 1)
    have hOwn := nodup_blockRequests index position block
    rw [sectionRequests]
    constructor
    · refine List.nodup_append'.2 ⟨hOwn.1, hNodup, ?_⟩
      intro request hMem hLater
      obtain ⟨part, hPart, hRun⟩ := hOwn.2 request hMem
      obtain ⟨other, hOther, later, hPosition, hLaterRun⟩ := hRuns request hLater
      have hSame := (runPath_injective hPart hOther (hRun.symm.trans hLaterRun)).2.2
      omega
    · intro request hMem
      rcases List.mem_append.1 hMem with hMem | hMem
      · obtain ⟨part, hPart, hRun⟩ := hOwn.2 request hMem
        exact ⟨part, hPart, position, Nat.le_refl position, hRun⟩
      · obtain ⟨part, hPart, later, hPosition, hRun⟩ := hRuns request hMem
        exact ⟨part, hPart, later, by omega, hRun⟩

/-- The spellings of one split element are different. -/
theorem nodup_splitElementRequests (index : Nat) (e : Element ι) :
    (splitElementRequests index e).Nodup ∧
      ∀ request ∈ splitElementRequests index e, ∃ part ∈ ["section", "column"],
        ∃ position, request = runPath part index position := by
  unfold splitElementRequests
  cases soleColumn? e with
  | none => exact ⟨List.nodup_nil, nofun⟩
  | some elements =>
    obtain ⟨hSections, hParts⟩ := nodup_sectionRequests index (blocks elements) 0
    by_cases hShort : (blocks elements).length ≤ 1
    · simp only [if_pos hShort]
      exact ⟨List.nodup_nil, nofun⟩
    · simp only [if_neg hShort]
      refine ⟨hSections, fun request hMem => ?_⟩
      obtain ⟨part, hPart, position, -, hRun⟩ := hParts request hMem
      exact ⟨part, hPart, position, hRun⟩

/-- The spellings of a whole split are different. -/
theorem nodup_splitRequests (es : List (Element ι)) : ∀ index,
    (splitRequests index es).Nodup ∧
      ∀ request ∈ splitRequests index es, ∃ part ∈ ["section", "column"],
        ∃ other, index ≤ other ∧ ∃ position, request = runPath part other position := by
  induction es with
  | nil => exact fun index => ⟨List.nodup_nil, nofun⟩
  | cons e rest ih =>
    intro index
    obtain ⟨hNodup, hRuns⟩ := ih (index + 1)
    have hOwn := nodup_splitElementRequests index e
    rw [splitRequests]
    constructor
    · refine List.nodup_append'.2 ⟨hOwn.1, hNodup, ?_⟩
      intro request hMem hLater
      obtain ⟨part, hPart, position, hRun⟩ := hOwn.2 request hMem
      obtain ⟨other, hOther, later, hIndex, latePosition, hLaterRun⟩ := hRuns request hLater
      have hSame := (runPath_injective hPart hOther (hRun.symm.trans hLaterRun)).2.1
      omega
    · intro request hMem
      rcases List.mem_append.1 hMem with hMem | hMem
      · obtain ⟨part, hPart, position, hRun⟩ := hOwn.2 request hMem
        exact ⟨part, hPart, index, Nat.le_refl index, position, hRun⟩
      · obtain ⟨part, hPart, later, hIndex, position, hRun⟩ := hRuns request hMem
        exact ⟨part, hPart, later, by omega, position, hRun⟩

/-- The requests of the block around the root, if it is a leaf. -/
theorem normalizeRequests_toList (tree : Option (Element ι)) :
    normalizeRequests d 0 tree.toList = [] ∨
      normalizeRequests d 0 tree.toList = wrapRequests d 0 := by
  cases tree with
  | none => exact .inl rfl
  | some e =>
    rw [Option.toList_some, normalizeRequests, normalizeRequests, List.append_nil]
    by_cases hKind : e.kind = d.topLevel
    · exact .inl (if_pos hKind)
    · exact .inr (if_neg hKind)

/-- The spellings that the passes of a dialect ask ids for are different. -/
theorem nodup_passRequests (es : List (Element ι)) :
    (passRequests d es).Nodup ∧
      ∀ request ∈ passRequests d es, ∃ part ∈ ["section", "column"],
        ∃ index position, request = runPath part index position := by
  cases d with
  | classicSimple =>
    obtain ⟨hNodup, hRuns⟩ := nodup_splitRequests es 0
    refine ⟨hNodup, fun request hMem => ?_⟩
    obtain ⟨part, hPart, index, -, position, hRun⟩ := hRuns request hMem
    exact ⟨part, hPart, index, position, hRun⟩
  | classic | container => exact ⟨List.nodup_nil, nofun⟩

/-- The paths of what is built for a layout are different, and start from the root. -/
theorem nodup_labels_root (d : Dialect) (layout : Node) :
    (labelsAll (build d rootPath 0 layout).toList).Nodup ∧
      ∀ p ∈ labelsAll (build d rootPath 0 layout).toList, p.base = "root" := by
  cases hBuilt : build d rootPath 0 layout with
  | none => exact ⟨List.nodup_nil, nofun⟩
  | some e =>
    obtain ⟨hNodup, hBelow⟩ := rooted_build layout rootPath 0 e hBuilt
    rw [Option.toList_some, labelsAll_singleton]
    refine ⟨hNodup, fun p hMem => ?_⟩
    have hBase := (hBelow p hMem).1
    rw [id_of_build hBuilt] at hBase
    exact hBase.symm

/-- Of the paths that an export asks ids for no two are spelled alike. -/
theorem nodup_requests (d : Dialect) (layout : Node) : (requests d layout).Nodup := by
  obtain ⟨hTree, hBase⟩ := nodup_labels_root d layout
  have hTexts : ((labelsAll (build d rootPath 0 layout).toList).map Path.text).Nodup := by
    refine List.Nodup.map_on ?_ hTree
    intro p hp q hq hText
    exact Path.text_injective ((hBase p hp).trans (hBase q hq).symm) hText
  have hWraps : (wrapRequests d 0).Nodup ∧
      ∀ request ∈ wrapRequests d 0, ['r'].isPrefixOf request.toList = true := by
    cases d <;> decide +kernel
  have hBlock : (normalizeRequests d 0 (build d rootPath 0 layout).toList).Nodup ∧
      ∀ request ∈ normalizeRequests d 0 (build d rootPath 0 layout).toList,
        request ∈ wrapRequests d 0 := by
    rcases normalizeRequests_toList (d := d) (build d rootPath 0 layout) with hNone | hWrap
    · rw [hNone]
      exact ⟨List.nodup_nil, nofun⟩
    · rw [hWrap]
      exact ⟨hWraps.1, fun _ hMem => hMem⟩
  obtain ⟨hPasses, hRuns⟩ := nodup_passRequests (d := d) (rootBlocks d layout).1
  have hRootFirst : ∀ request ∈ (labelsAll (build d rootPath 0 layout).toList).map Path.text,
      ['r'].isPrefixOf request.toList = true := by
    intro request hMem
    obtain ⟨p, hp, rfl⟩ := List.mem_map.1 hMem
    rw [Path.toList_text, hBase p hp]
    rfl
  rw [requests]
  refine List.nodup_append'.2 ⟨List.nodup_append'.2 ⟨hTexts, hBlock.1, ?_⟩, hPasses, ?_⟩
  · intro request hMem hOther
    obtain ⟨p, hp, rfl⟩ := List.mem_map.1 hMem
    exact text_ne_wrapRequest (hBase p hp) (hBlock.2 _ hOther) rfl
  · intro request hMem hOther
    obtain ⟨part, hPart, index, position, rfl⟩ := hRuns request hOther
    rcases List.mem_append.1 hMem with hText | hWrap
    · exact runPath_ne hPart index position (hRootFirst _ hText) rfl
    · exact runPath_ne hPart index position (hWraps.2 _ (hBlock.2 _ hWrap)) rfl

end Pagewright.Page
