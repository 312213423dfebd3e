import Mathlib.Data.List.Nodup
import Pagewright.Preview.Css
import Pagewright.Proofs.Number.Characters
import Pagewright.Text.Search

/-!
# Inline styles are read as their declarations

An inline style is a table of slots, one for each property in a fixed order, of
which those that hold a value are written. As no property holds a colon, and no
value a semicolon unless a text of the style does, the written style is read
back as the declarations it was written for: each property stands once, and its
value is that of its slot.

## Main results

* `declarations_eq` — the declarations of a style are the slots with a value.
* `filter_written` — a property has the value of its slot.
* `readDeclarations?_intercalate` — declarations are read back.
* `inlineCss_declares` — what an inline style says about the style.
-/

namespace Pagewright.Preview

open Layout

/-! ## Slots -/

/-- The declaration of a property that has a value. -/
def slot (property : String) (value : Option String) : List Declaration :=
  (value.map (⟨property, ·⟩)).toList

/-- The declarations of the slots that hold a value. -/
def written (slots : List (String × Option String)) : List Declaration :=
  slots.flatMap fun entry => slot entry.1 entry.2

theorem written_cons (entry : String × Option String) (slots : List (String × Option String)) :
    written (entry :: slots) = slot entry.1 entry.2 ++ written slots :=
  List.flatMap_cons

theorem mem_written {slots : List (String × Option String)} {d : Declaration} :
    d ∈ written slots ↔ (d.property, some d.value) ∈ slots := by
  simp only [written, slot, List.mem_flatMap, Option.mem_toList, Option.map_eq_some_iff]
  constructor
  · rintro ⟨⟨property, value⟩, hMem, text, rfl, rfl⟩
    exact hMem
  · exact fun hMem => ⟨_, hMem, d.value, rfl, rfl⟩

theorem properties_written_sublist (slots : List (String × Option String)) :
    ((written slots).map Declaration.property).Sublist (slots.map Prod.fst) := by
  induction slots with
  | nil => exact List.Sublist.refl []
  | cons entry rest ih =>
    obtain ⟨property, value⟩ := entry
    rw [written_cons, List.map_append, List.map_cons]
    cases value with
    | none => exact ih.cons property
    | some text => exact ih.cons_cons property

/-- A property has the value of its slot, and no other. -/
theorem filter_written {slots : List (String × Option String)} {property : String}
    {value : Option String} (hDistinct : (slots.map Prod.fst).Nodup)
    (hSlot : (property, value) ∈ slots) :
    (written slots).filter (·.property = property) = slot property value := by
  induction slots with
  | nil => cases hSlot
  | cons entry rest ih =>
    obtain ⟨hFirst, hRest⟩ := List.nodup_cons.1 hDistinct
    rw [written_cons, List.filter_append]
    rcases List.mem_cons.1 hSlot with rfl | hLater
    · have hOwn : (slot property value).filter (·.property = property) = slot property value := by
        cases value <;> simp [slot]
      have hOthers : (written rest).filter (·.property = property) = [] := by
        refine List.filter_eq_nil_iff.2 fun d hMem hSame => hFirst ?_
        have hProperty : d.property = property := by simpa using hSame
        exact List.mem_map.2 ⟨_, mem_written.1 hMem, hProperty⟩
      rw [hOwn, hOthers, List.append_nil]
    · have hNe : entry.1 ≠ property := by
        rintro rfl
        exact hFirst (List.mem_map.2 ⟨_, hLater, rfl⟩)
      have hOther : (slot entry.1 entry.2).filter (·.property = property) = [] := by
        cases entry.2 <;> simp [slot, hNe]
      rw [hOther, List.nil_append, ih hRest hLater]

/-! ## The slots of a style -/

/-- A text that is not empty. -/
def nonempty? (text : Option String) : Option String := text.filter (· != "")

/-- The direction of the children; a row is always one. -/
def direction? (isRow : Bool) (style : Style) : Option Direction :=
  if isRow then some .row else style.direction

/-- The basis in pixels, else `auto` where that is asked for. -/
def basis? (style : Style) : Option String :=
  match style.flexBasis, style.flexBasisAuto with
  | some basis, _ => some (px basis)
  | none, some true => some "auto"
  | none, _ => none

/-- A share of the row in percent. -/
def shareText (percent : Float) : String :=
  Number.threePlaces (Number.clampTo 0.0 100.0 percent) ++ "%"

/-- The distances of the edges, unless they are all zero. -/
def paddingText? (padding : Option Padding) : Option String :=
  (padding.filter fun p => !p.isZero).map fun p =>
    px p.top ++ " " ++ px p.right ++ " " ++ px p.bottom ++ " " ++ px p.left

/-- The value of each property, in the order of the properties. -/
def slots (isRow : Bool) (style : Style) : List (String × Option String) :=
  [("display", (direction? isRow style).map fun _ => "flex"),
    ("flex-direction", (direction? isRow style).map Direction.name),
    ("flex-grow", style.flexGrow.map Number.plainText),
    ("flex-shrink", style.flexShrink.map Number.plainText),
    ("flex-basis", basis? style),
    ("flex", style.widthPercent.map fun percent => "0 0 " ++ shareText percent),
    ("max-width", style.widthPercent.map shareText),
    ("min-height", style.minHeightPx.map fun x => toString (Number.pixels x) ++ "px"),
    ("gap", style.gap.map px),
    ("background-color", nonempty? style.backgroundColor),
    ("border", nonempty? style.border),
    ("border-radius", nonempty? style.borderRadius),
    ("box-shadow", nonempty? style.boxShadow),
    ("padding", paddingText? style.padding),
    ("justify-content", style.justify.bind mainAxis?),
    ("align-items", style.align.bind crossAxis?),
    ("align-self", style.alignSelf.bind crossAxis?),
    ("font-family", nonempty? style.fontFamily),
    ("font-size", style.fontSize.map px),
    ("font-weight", style.fontWeight.map fun weight => toString weight.toNat),
    ("line-height", style.lineHeightPx.map px),
    ("letter-spacing", style.letterSpacing.map px),
    ("color", nonempty? style.color),
    ("text-align", nonempty? style.textAlign),
    ("text-transform", nonempty? style.textTransform)]

theorem textDeclaration_eq (property : String) (text : Option String) :
    textDeclaration property text = slot property (nonempty? text) := by
  cases text with
  | none => rfl
  | some text =>
    by_cases hEmpty : text = "" <;>
      simp [textDeclaration, nonempty?, slot, Option.filter, hEmpty]

theorem declaration_eq {α : Type} (property : String) (write : α → String) (value : Option α) :
    declaration property write value = slot property (value.map write) := by
  cases value <;> rfl

theorem declaration_id_eq (property : String) (value : Option String) :
    declaration property id value = slot property value := by
  cases value <;> rfl

theorem directionDeclarations_eq (isRow : Bool) (style : Style) :
    directionDeclarations isRow style =
      slot "display" ((direction? isRow style).map fun _ => "flex") ++
        slot "flex-direction" ((direction? isRow style).map Direction.name) := by
  have hDirection : (if isRow then some Direction.row else style.direction) =
      direction? isRow style := rfl
  rw [directionDeclarations, hDirection]
  cases direction? isRow style <;> rfl

theorem basisDeclarations_eq (style : Style) :
    basisDeclarations style = slot "flex-basis" (basis? style) := by
  unfold basisDeclarations basis?
  cases style.flexBasis with
  | some basis => rfl
  | none => rcases style.flexBasisAuto with _ | _ | _ <;> rfl

theorem percentDeclarations_eq (percent : Option Float) :
    percentDeclarations percent =
      slot "flex" (percent.map fun percent => "0 0 " ++ shareText percent) ++
        slot "max-width" (percent.map shareText) := by
  cases percent with
  | none => rfl
  | some percent => simp [percentDeclarations, slot, shareText, String.append_assoc]

theorem paddingDeclarations_eq (padding : Option Padding) :
    paddingDeclarations padding = slot "padding" (paddingText? padding) := by
  cases padding with
  | none => rfl
  | some p =>
    by_cases hZero : p.isZero = true <;>
      simp [paddingDeclarations, paddingText?, slot, Option.filter, hZero]

/-- The declarations of a style are its slots with a value. -/
theorem declarations_eq (isRow : Bool) (style : Style) :
    declarations isRow style = written (slots isRow style) := by
  unfold declarations
  rw [directionDeclarations_eq, basisDeclarations_eq, percentDeclarations_eq,
    paddingDeclarations_eq]
  simp only [declaration_id_eq]
  simp only [declaration_eq, textDeclaration_eq, slots, written, List.flatMap_cons,
    List.flatMap_nil, List.append_nil, List.append_assoc]

/-! ## Reading -/

/-- A declaration from its text: the property goes up to the first colon. -/
def readDeclaration? (text : List Char) : Option Declaration :=
  match Text.splitFirst ':' text with
  | (property, some value) => some ⟨String.ofList property, String.ofList value⟩
  | (_, none) => none

/-- The declarations between the semicolons of an inline style; an empty one has none. -/
def readDeclarations? (css : String) : Option (List Declaration) :=
  if css = "" then some [] else (css.toList.splitOn ';').mapM readDeclaration?

example : readDeclarations? "color:red;border:url(a:b)" =
    some [⟨"color", "red"⟩, ⟨"border", "url(a:b)"⟩] := by
  rfl

theorem toList_text (d : Declaration) :
    d.text.toList = d.property.toList ++ ':' :: d.value.toList := by
  rw [Declaration.text, String.toList_append, String.toList_append, List.append_assoc]
  rfl

theorem readDeclaration?_text {d : Declaration} (hName : ':' ∉ d.property.toList) :
    readDeclaration? d.text.toList = some d := by
  rw [toList_text, readDeclaration?, Text.splitFirst_append_cons hName]
  simp only [String.ofList_toList]

/-- Declarations are read back, as long as no colon stands in their properties and no semicolon
in them. -/
theorem readDeclarations?_intercalate {found : List Declaration}
    (hNames : ∀ d ∈ found, ':' ∉ d.property.toList) (hParts : ∀ d ∈ found, ';' ∉ d.text.toList) :
    readDeclarations? (String.intercalate ";" (found.map Declaration.text)) = some found := by
  have hRead : ∀ ds : List Declaration, (∀ d ∈ ds, ':' ∉ d.property.toList) →
      (ds.map fun d => d.text.toList).mapM readDeclaration? = some ds := by
    intro ds hNames
    induction ds with
    | nil => rfl
    | cons d rest ih =>
      obtain ⟨hFirst, hRest⟩ := List.forall_mem_cons.1 hNames
      rw [List.map_cons, List.mapM_cons, readDeclaration?_text hFirst, ih hRest]
      rfl
  cases found with
  | nil => rfl
  | cons first rest =>
    have hSplit :
        (String.intercalate ";" ((first :: rest).map Declaration.text)).toList.splitOn ';' =
          (first :: rest).map fun d => d.text.toList := by
      have hSeparator : ";".toList = [';'] := by decide
      rw [String.toList_intercalate, hSeparator, List.map_map]
      refine List.splitOn_intercalate ';' (fun text hMem => ?_) (by simp)
      obtain ⟨d, hFound, rfl⟩ := List.mem_map.1 hMem
      exact hParts d hFound
    have hNotEmpty : String.intercalate ";" ((first :: rest).map Declaration.text) ≠ "" := by
      intro hEmpty
      rw [hEmpty] at hSplit
      have hFirst : first.text.toList = [] := (List.cons.inj hSplit).1.symm
      rw [toList_text] at hFirst
      exact absurd hFirst (by simp)
    rw [readDeclarations?, if_neg hNotEmpty, hSplit, hRead _ hNames]

/-! ## No semicolons -/

/-- The properties whose values are texts of the style. -/
def freeTexts : List (String × (Style → Option String)) :=
  [("background-color", Style.backgroundColor), ("border", Style.border),
    ("border-radius", Style.borderRadius), ("box-shadow", Style.boxShadow),
    ("font-family", Style.fontFamily), ("color", Style.color), ("text-align", Style.textAlign),
    ("text-transform", Style.textTransform)]

/-- Whether no semicolon stands in a value. -/
def Unbroken (value : Option String) : Prop := ∀ text ∈ value, ';' ∉ text.toList

theorem unbroken_map {α : Type} {write : α → String} (hWrite : ∀ x, ';' ∉ (write x).toList)
    (value : Option α) : Unbroken (value.map write) := by
  intro text hMem
  obtain ⟨x, -, rfl⟩ := Option.map_eq_some_iff.1 hMem
  exact hWrite x

theorem Unbroken.bind {α : Type} {write : α → Option String} (hWrite : ∀ x, Unbroken (write x))
    (value : Option α) : Unbroken (value.bind write) := by
  intro text hMem
  obtain ⟨x, -, hText⟩ := Option.mem_bind_iff.1 hMem
  exact hWrite x text hText

theorem Unbroken.nonempty? {text : Option String} (hText : Unbroken text) :
    Unbroken (nonempty? text) :=
  fun _ hMem => hText _ (Option.mem_filter_iff.1 hMem).1

theorem not_mem_append {c : Char} {front back : String} (hFront : c ∉ front.toList)
    (hBack : c ∉ back.toList) : c ∉ (front ++ back).toList := by
  rw [String.toList_append, List.mem_append, not_or]
  exact ⟨hFront, hBack⟩

theorem semicolon_not_mem_plainText (x : Float) : ';' ∉ (Number.plainText x).toList :=
  fun hMem => (Number.mem_plainText hMem).ne rfl (by decide) rfl

theorem semicolon_not_mem_px (x : Float) : ';' ∉ (px x).toList :=
  not_mem_append (semicolon_not_mem_plainText x) (by decide)

theorem semicolon_not_mem_shareText (x : Float) : ';' ∉ (shareText x).toList :=
  not_mem_append (fun hMem => (Number.mem_threePlaces hMem).ne rfl (by decide) rfl) (by decide)

theorem unbroken_basis? (style : Style) : Unbroken (basis? style) := by
  have hAuto : Unbroken (some "auto") := by
    rintro text ⟨⟩
    decide
  unfold basis?
  split
  · rintro text ⟨⟩
    exact semicolon_not_mem_px _
  · exact hAuto
  · exact nofun

theorem unbroken_paddingText? (padding : Option Padding) : Unbroken (paddingText? padding) := by
  have hBlank : ';' ∉ " ".toList := by decide
  refine unbroken_map (fun p => ?_) _
  refine not_mem_append (not_mem_append (not_mem_append (not_mem_append (not_mem_append
    (not_mem_append ?_ hBlank) ?_) hBlank) ?_) hBlank) ?_
  all_goals exact semicolon_not_mem_px _

theorem unbroken_mainAxis? (a : Align) : Unbroken (mainAxis? a) := by
  cases a <;> rintro text ⟨⟩ <;> decide

theorem unbroken_crossAxis? (a : Align) : Unbroken (crossAxis? a) := by
  cases a <;> rintro text ⟨⟩ <;> decide

/-- No value of a style holds a semicolon unless one of its texts does. -/
theorem unbroken_slots (isRow : Bool) {style : Style}
    (hTexts : ∀ field ∈ freeTexts, Unbroken (field.2 style)) :
    ∀ entry ∈ slots isRow style, Unbroken entry.2 := by
  have hText : ∀ field ∈ freeTexts, Unbroken (nonempty? (field.2 style)) :=
    fun field hField => (hTexts field hField).nonempty?
  have hWeight (weight : UInt32) : ';' ∉ (toString weight.toNat).toList :=
    fun hMem => (Number.mem_toString_nat hMem).ne rfl (by decide) rfl
  have hHeight (x : Float) : ';' ∉ (toString (Number.pixels x) ++ "px").toList :=
    not_mem_append (fun hMem => (Number.mem_toString hMem).ne rfl (by decide) rfl) (by decide)
  have hShare (x : Float) : ';' ∉ ("0 0 " ++ shareText x).toList :=
    not_mem_append (by decide) (semicolon_not_mem_shareText x)
  have hDirection (direction : Direction) : ';' ∉ direction.name.toList := by
    cases direction <;> decide
  simp only [freeTexts, List.forall_mem_cons] at hText
  obtain ⟨hBackground, hBorder, hRadius, hShadow, hFamily, hColor, hAlign, hTransform, -⟩ := hText
  simp only [slots, List.forall_mem_cons]
  exact ⟨unbroken_map (fun _ => by decide) _, unbroken_map hDirection _,
    unbroken_map semicolon_not_mem_plainText _, unbroken_map semicolon_not_mem_plainText _,
    unbroken_basis? style, unbroken_map hShare _, unbroken_map semicolon_not_mem_shareText _,
    unbroken_map hHeight _, unbroken_map semicolon_not_mem_px _, hBackground, hBorder, hRadius,
    hShadow, unbroken_paddingText? _, .bind unbroken_mainAxis? _, .bind unbroken_crossAxis? _,
    .bind unbroken_crossAxis? _, hFamily, unbroken_map semicolon_not_mem_px _,
    unbroken_map hWeight _, unbroken_map semicolon_not_mem_px _,
    unbroken_map semicolon_not_mem_px _, hColor, hAlign, hTransform, List.forall_mem_nil _⟩

/-! ## What a style declares -/

/-- The properties in the order in which they are declared. -/
def propertyOrder : List String :=
  ["display", "flex-direction", "flex-grow", "flex-shrink", "flex-basis", "flex", "max-width",
    "min-height", "gap", "background-color", "border", "border-radius", "box-shadow", "padding",
    "justify-content", "align-items", "align-self", "font-family", "font-size", "font-weight",
    "line-height", "letter-spacing", "color", "text-align", "text-transform"]

/-- The values given to a property. -/
def valuesOf (found : List Declaration) (property : String) : List String :=
  (found.filter (·.property = property)).map Declaration.value

/-- What the declarations of a style say: each property at most once and in order, each text of
the style under its property as it is, and no value that its property does not know. -/
structure Declares (style : Style) (found : List Declaration) : Prop where
  order : (found.map Declaration.property).Sublist propertyOrder
  distinct : (found.map Declaration.property).Nodup
  texts : ∀ field ∈ freeTexts,
    valuesOf found field.1 = ((field.2 style).filter (· != "")).toList
  basis : valuesOf found "flex-basis" = match style.flexBasis with
    | some basis => [px basis]
    | none => if style.flexBasisAuto = some true then ["auto"] else []
  padding : valuesOf found "padding" ≠ [] ↔
    ∃ p ∈ style.padding, ∃ edge ∈ [p.top, p.right, p.bottom, p.left], edge != 0.0
  justify : ∀ value ∈ valuesOf found "justify-content", value ∉ ["baseline", "stretch"]
  align : ∀ property ∈ ["align-items", "align-self"], ∀ value ∈ valuesOf found property,
    value ∉ ["space-between", "space-around", "space-evenly"]

theorem map_fst_slots (isRow : Bool) (style : Style) :
    (slots isRow style).map Prod.fst = propertyOrder :=
  rfl

theorem nodup_propertyOrder : propertyOrder.Nodup := by simp [propertyOrder]

theorem not_mem_of_mem_propertyOrder :
    ∀ property ∈ propertyOrder, ':' ∉ property.toList ∧ ';' ∉ property.toList := by
  simp [propertyOrder]

/-- A property has the value of its slot. -/
theorem valuesOf_written {isRow : Bool} {style : Style} {property : String}
    {value : Option String} (hSlot : (property, value) ∈ slots isRow style) :
    valuesOf (written (slots isRow style)) property = value.toList := by
  have hDistinct : ((slots isRow style).map Prod.fst).Nodup := nodup_propertyOrder
  rw [valuesOf, filter_written hDistinct hSlot]
  cases value <;> rfl

theorem isZero_eq_false_iff (p : Padding) :
    p.isZero = false ↔ ∃ edge ∈ [p.top, p.right, p.bottom, p.left], edge != 0.0 := by
  have hAll : p.isZero = [p.top, p.right, p.bottom, p.left].all (· == 0.0) := by
    simp only [Padding.isZero, List.all_cons, List.all_nil, Bool.and_true, Bool.and_assoc]
  rw [hAll, List.all_eq_false]
  simp only [bne, Bool.not_eq_true, Bool.not_eq_true']

/-- Padding is given exactly where some edge has a distance. -/
theorem paddingText?_toList_ne_nil_iff (padding : Option Padding) :
    (paddingText? padding).toList ≠ [] ↔
      ∃ p ∈ padding, ∃ edge ∈ [p.top, p.right, p.bottom, p.left], edge != 0.0 := by
  simp only [← isZero_eq_false_iff]
  cases padding with
  | none => simp [paddingText?]
  | some p => cases hZero : p.isZero <;> simp [paddingText?, Option.filter, hZero]

theorem basis?_toList (style : Style) :
    (basis? style).toList = match style.flexBasis with
      | some basis => [px basis]
      | none => if style.flexBasisAuto = some true then ["auto"] else [] := by
  unfold basis?
  cases style.flexBasis with
  | some basis => rfl
  | none => rcases style.flexBasisAuto with _ | _ | _ <;> rfl

theorem mainAxis?_known {a : Align} {value : String} (hValue : mainAxis? a = some value) :
    value ∉ ["baseline", "stretch"] := by
  cases a <;> cases hValue <;> decide

theorem crossAxis?_known {a : Align} {value : String} (hValue : crossAxis? a = some value) :
    value ∉ ["space-between", "space-around", "space-evenly"] := by
  cases a <;> cases hValue <;> decide

theorem declares_written (isRow : Bool) (style : Style) :
    Declares style (written (slots isRow style)) where
  order := properties_written_sublist (slots isRow style)
  distinct := (properties_written_sublist (slots isRow style)).nodup nodup_propertyOrder
  texts := by
    have hSlots : ∀ field ∈ freeTexts,
        (field.1, nonempty? (field.2 style)) ∈ slots isRow style := by
      simp [freeTexts, slots]
    exact fun field hField => valuesOf_written (hSlots field hField)
  basis := by
    have hSlot : ("flex-basis", basis? style) ∈ slots isRow style := by simp [slots]
    rw [valuesOf_written hSlot, basis?_toList]
  padding := by
    have hSlot : ("padding", paddingText? style.padding) ∈ slots isRow style := by simp [slots]
    rw [valuesOf_written hSlot]
    exact paddingText?_toList_ne_nil_iff style.padding
  justify := by
    have hSlot : ("justify-content", style.justify.bind mainAxis?) ∈ slots isRow style := by
      simp [slots]
    intro value hMem
    rw [valuesOf_written hSlot] at hMem
    obtain ⟨a, -, hValue⟩ := Option.bind_eq_some_iff.1 (Option.mem_toList.1 hMem)
    exact mainAxis?_known hValue
  align := by
    have hSlot : ∀ property ∈ ["align-items", "align-self"], ∃ hint : Option Align,
        (property, hint.bind crossAxis?) ∈ slots isRow style := by
      simp only [List.forall_mem_cons]
      exact ⟨⟨style.align, by simp [slots]⟩, ⟨style.alignSelf, by simp [slots]⟩, nofun⟩
    intro property hProperty value hMem
    obtain ⟨hint, hHint⟩ := hSlot property hProperty
    rw [valuesOf_written hHint] at hMem
    obtain ⟨a, -, hValue⟩ := Option.bind_eq_some_iff.1 (Option.mem_toList.1 hMem)
    exact crossAxis?_known hValue

/-- An inline style whose texts hold no semicolon is read as declarations that say what the style
does. -/
theorem inlineCss_declares (isRow : Bool) (style : Style)
    (hTexts : ∀ field ∈ freeTexts, ∀ text ∈ field.2 style, ';' ∉ text.toList) :
    ∃ found, readDeclarations? (inlineCss isRow (some style)) = some found ∧
      Declares style found := by
  have hNames : ∀ d ∈ written (slots isRow style),
      ':' ∉ d.property.toList ∧ ';' ∉ d.property.toList := by
    intro d hMem
    refine not_mem_of_mem_propertyOrder _ ?_
    exact map_fst_slots isRow style ▸ List.mem_map_of_mem (mem_written.1 hMem)
  have hParts : ∀ d ∈ written (slots isRow style), ';' ∉ d.text.toList := by
    intro d hMem
    have hValue : ';' ∉ d.value.toList :=
      unbroken_slots isRow hTexts _ (mem_written.1 hMem) _ rfl
    exact not_mem_append (not_mem_append (hNames d hMem).2 (by decide)) hValue
  refine ⟨written (slots isRow style), ?_, declares_written isRow style⟩
  rw [inlineCss, Option.getD_some, declarations_eq]
  exact readDeclarations?_intercalate (fun d hMem => (hNames d hMem).1) hParts

/-- A column with an image behind it: its background holds a colon, its border is empty, and two
of its hints have no meaning for their property. -/
def backdropStyle : Style :=
  { direction := some .column, flexBasis := some 0.0, flexBasisAuto := some true,
    padding := some { left := 4.0 }, justify := some .stretch, align := some .spaceBetween,
    backgroundColor := some "url(data:image/png,0)", border := some "" }

theorem inlineCss_declares_backdropStyle :
    (∀ field ∈ freeTexts, ∀ text ∈ field.2 backdropStyle, ';' ∉ text.toList) ∧
      ∃ found, readDeclarations? (inlineCss false (some backdropStyle)) = some found ∧
        Declares backdropStyle found := by
  have hTexts : ∀ field ∈ freeTexts, ∀ text ∈ field.2 backdropStyle, ';' ∉ text.toList := by
    simp [freeTexts, backdropStyle]
  exact ⟨hTexts, inlineCss_declares false backdropStyle hTexts⟩

end Pagewright.Preview
