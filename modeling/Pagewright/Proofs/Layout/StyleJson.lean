import Pagewright.Layout.Style.Json
import Pagewright.Proofs.Json.Fields
import Pagewright.Proofs.Number.Whole

/-!
# Styles are read as they were written

Each field of a style has a written form that its reader takes back: names of
alignments and directions, truth values, numbers, and a weight as a whole
number, which the reader takes as a number and cuts again. The order of the
fields does not matter, so the written form with ascending keys is read as the
same style.

## Main results

* `readWeight_toJson` — weights of 32 bits survive the way over numbers.
* `readStyle_toJson`, `readStyle_sorted` — styles survive writing and reading.
-/

namespace Pagewright.Layout

open Json

/-! ## Values of fields -/

theorem readDirection_toJson (place : Place) (d : Direction) :
    readDirection place d.toJson = .ok d := by
  cases d <;> rfl

theorem parse?_name (a : Align) : Align.parse? a.name = some a := by
  cases a <;> decide

theorem readAlign_toJson (a : Align) : readAlign a.toJson = .ok a := by
  simp only [readAlign, Align.toJson, readText, bind, Except.bind, parse?_name]

/-- What is read as an alignment is a hint of it. -/
theorem readAlignHint_of_readAlign {value : Json} {a : Align} (hRead : readAlign value = .ok a) :
    readAlignHint value = .ok (some a) := by
  cases value with
  | str name =>
    simp only [readAlign, readText, bind, Except.bind] at hRead
    split at hRead
    · rename_i align hName
      obtain rfl := Except.ok.inj hRead
      simp only [readAlignHint, readOption, readText, Except.map, bind, Except.bind, Option.bind,
        hName]
    · cases hRead
  | null | bool | int | float | arr | obj => cases hRead

theorem readAlignHint_toJson (a : Align) : readAlignHint a.toJson = .ok (some a) :=
  readAlignHint_of_readAlign (readAlign_toJson a)

/-- A whole number of at most fifty-three bits is read as a number from zero up. -/
theorem readNonNegative_int {n : Nat} (hMost : n < 2 ^ 53) :
    readNonNegative (.int n) = .ok (Number.ofInt n) := by
  have hRange : ((Number.ofInt n).isFinite && decide (0.0 ≤ Number.ofInt n)) = true := by
    rw [Number.isFinite_ofInt hMost, decide_eq_true (Number.nonneg_ofInt hMost)]
    rfl
  exact if_pos hRange

theorem readWeight_toJson (weight : UInt32) :
    readWeight (weightToJson weight) = .ok (some weight) := by
  have hLt : weight.toNat < 2 ^ 32 := weight.toNat_lt
  have hRead := readNonNegative_int (Nat.lt_trans hLt (by decide))
  have hPart := Number.natPart32_ofInt hLt
  unfold readWeight readOption weightToJson
  simp only [hRead]
  show Except.ok (some (UInt32.ofNat (Number.natPart32 (Number.ofInt weight.toNat)))) = _
  rw [hPart, UInt32.ofNat_toNat]

/-! ## Paddings -/

/-- The slots of a padding. -/
def Padding.slots (p : Padding) : List (String × Option Json) :=
  [("top", some (.float p.top)), ("right", some (.float p.right)),
    ("bottom", some (.float p.bottom)), ("left", some (.float p.left))]

theorem Padding.toJson_eq (p : Padding) : p.toJson = .obj (written p.slots) := rfl

theorem keys_padding (p : Padding) : (p.slots.map Prod.fst).Nodup := by
  show ["top", "right", "bottom", "left"].Nodup
  decide

/-- A padding is read wherever its edges can be looked up. -/
theorem readPadding_of_lookup {p : Padding} {fields : Fields} {form : Json → Json}
    (hForm : Plain form) (hFields : ∀ key value, (key, value) ∈ p.slots →
      lookup key fields = value.map form) (place : Place) :
    readPadding place (.obj fields) = .ok p := by
  have hEdge : ∀ key x, (key, some (.float x)) ∈ p.slots →
      field fields key readFloat 0.0 = .ok x := by
    intro key x hSlot
    rw [field, hFields key _ hSlot, Option.map_some, hForm.float]
    rfl
  have hTop := hEdge "top" p.top (by simp [Padding.slots])
  have hRight := hEdge "right" p.right (by simp [Padding.slots])
  have hBottom := hEdge "bottom" p.bottom (by simp [Padding.slots])
  have hLeft := hEdge "left" p.left (by simp [Padding.slots])
  unfold readPadding readRecord
  simp only [hTop, hRight, hBottom, hLeft]
  rfl

theorem readPadding_toJson (place : Place) (p : Padding) :
    readPadding place p.toJson = .ok p :=
  readPadding_of_lookup plain_id (fun _ _ => lookup_written_id (keys_padding p)) place

theorem readPadding_sorted (place : Place) (p : Padding) :
    readPadding place p.toJson.sorted = .ok p := by
  rw [Padding.toJson_eq, sorted]
  exact readPadding_of_lookup plain_sorted
    (fun _ _ => lookup_sorted_written (keys_padding p)) place

/-! ## Styles -/

/-- The slots of a style. -/
def Style.slots (s : Style) : List (String × Option Json) :=
  [("direction", s.direction.map Direction.toJson), ("gap", s.gap.map Json.float),
    ("padding", s.padding.map Padding.toJson), ("justify", s.justify.map Align.toJson),
    ("align", s.align.map Align.toJson), ("alignSelf", s.alignSelf.map Align.toJson),
    ("flexGrow", s.flexGrow.map Json.float), ("flexShrink", s.flexShrink.map Json.float),
    ("flexBasis", s.flexBasis.map Json.float),
    ("flexBasisAuto", s.flexBasisAuto.map Json.bool), ("widthPx", s.widthPx.map Json.float),
    ("widthPercent", s.widthPercent.map Json.float),
    ("minHeightPx", s.minHeightPx.map Json.float),
    ("backgroundColor", s.backgroundColor.map Json.str), ("border", s.border.map Json.str),
    ("borderRadius", s.borderRadius.map Json.str), ("boxShadow", s.boxShadow.map Json.str),
    ("fontFamily", s.fontFamily.map Json.str), ("fontSize", s.fontSize.map Json.float),
    ("fontWeight", s.fontWeight.map weightToJson),
    ("letterSpacing", s.letterSpacing.map Json.float),
    ("lineHeightPx", s.lineHeightPx.map Json.float), ("textAlign", s.textAlign.map Json.str),
    ("textTransform", s.textTransform.map Json.str), ("color", s.color.map Json.str)]

theorem keys_style (s : Style) : (s.slots.map Prod.fst).Nodup := by
  show ["direction", "gap", "padding", "justify", "align", "alignSelf", "flexGrow",
    "flexShrink", "flexBasis", "flexBasisAuto", "widthPx", "widthPercent", "minHeightPx",
    "backgroundColor", "border", "borderRadius", "boxShadow", "fontFamily", "fontSize",
    "fontWeight", "letterSpacing", "lineHeightPx", "textAlign", "textTransform",
    "color"].Nodup
  decide

theorem setField_eq {α : Type} (key : String) (write : α → Json) (value : Option α) :
    setField key write value = ((value.map write).map (key, ·)).toList := by
  cases value <;> rfl

theorem Style.toFields_eq (s : Style) : s.toFields = written s.slots := by
  unfold Style.toFields Style.slots
  simp only [setField_eq]
  simp only [written_cons, written_nil, List.append_assoc, List.append_nil]

section Fields

variable {s : Style} {fields : Fields} {form : Json → Json}

/-- What the fields of a style were written from is read back, kind by kind. -/
theorem field_of_style {α : Type} {key : String} {write : α → Json} {value : Option α}
    {read : Reader (Option α)}
    (hFields : ∀ key value, (key, value) ∈ s.slots → lookup key fields = value.map form)
    (hSlot : (key, value.map write) ∈ s.slots)
    (hRead : ∀ x, read (form (write x)) = .ok (some x)) :
    field fields key read none = .ok value := by
  have hLookup := hFields key _ hSlot
  rw [Option.map_map] at hLookup
  exact field_of_slot hLookup hRead

/-- A style is read wherever its slots can be looked up. -/
theorem ofFields_of_lookup (hForm : Plain form)
    (hFields : ∀ key value, (key, value) ∈ s.slots → lookup key fields = value.map form)
    (place : Place) (hPadding : ∀ p : Padding, readPadding place (form p.toJson) = .ok p) :
    Style.ofFields place fields = .ok s := by
  have hNumber : ∀ key value, (key, value.map Json.float) ∈ s.slots →
      field fields key (readOption readFloat) none = .ok value := fun key value hSlot =>
    field_of_style hFields hSlot fun x => by rw [hForm.float]; rfl
  have hText : ∀ key value, (key, value.map Json.str) ∈ s.slots →
      field fields key (readOption readText) none = .ok value := fun key value hSlot =>
    field_of_style hFields hSlot fun text => by rw [hForm.str]; rfl
  have hAlign : ∀ key value, (key, value.map Align.toJson) ∈ s.slots →
      field fields key readAlignHint none = .ok value := fun key value hSlot =>
    field_of_style hFields hSlot fun a => by
      rw [Align.toJson, hForm.str]
      exact readAlignHint_toJson a
  have hDirection : field fields "direction" (readOption (readDirection place)) none =
      .ok s.direction := by
    have hSlot : ("direction", s.direction.map Direction.toJson) ∈ s.slots := by
      simp [Style.slots]
    refine field_of_style hFields hSlot fun d => ?_
    rw [Direction.toJson, hForm.str]
    exact readOption_of_read (readDirection_toJson place d) fun _ hNull => by cases hNull
  have hAuto : field fields "flexBasisAuto" (readOption readBool) none =
      .ok s.flexBasisAuto := by
    have hSlot : ("flexBasisAuto", s.flexBasisAuto.map Json.bool) ∈ s.slots := by
      simp [Style.slots]
    refine field_of_style hFields hSlot fun b => ?_
    rw [hForm.bool]
    rfl
  have hWeight : field fields "fontWeight" readWeight none = .ok s.fontWeight := by
    have hSlot : ("fontWeight", s.fontWeight.map weightToJson) ∈ s.slots := by
      simp [Style.slots]
    refine field_of_style hFields hSlot fun weight => ?_
    rw [weightToJson, hForm.int]
    exact readWeight_toJson weight
  have hEdges : field fields "padding" (readOption (readPadding place)) none =
      .ok s.padding := by
    have hSlot : ("padding", s.padding.map Padding.toJson) ∈ s.slots := by
      simp [Style.slots]
    exact field_of_style hFields hSlot fun p =>
      readOption_of_read (hPadding p) fun _ hNull => by cases hNull
  unfold Style.ofFields
  simp only [hDirection, hAuto, hWeight, hEdges,
    hNumber "gap" s.gap (by simp [Style.slots]),
    hNumber "flexGrow" s.flexGrow (by simp [Style.slots]),
    hNumber "flexShrink" s.flexShrink (by simp [Style.slots]),
    hNumber "flexBasis" s.flexBasis (by simp [Style.slots]),
    hNumber "widthPx" s.widthPx (by simp [Style.slots]),
    hNumber "widthPercent" s.widthPercent (by simp [Style.slots]),
    hNumber "minHeightPx" s.minHeightPx (by simp [Style.slots]),
    hNumber "fontSize" s.fontSize (by simp [Style.slots]),
    hNumber "letterSpacing" s.letterSpacing (by simp [Style.slots]),
    hNumber "lineHeightPx" s.lineHeightPx (by simp [Style.slots]),
    hText "backgroundColor" s.backgroundColor (by simp [Style.slots]),
    hText "border" s.border (by simp [Style.slots]),
    hText "borderRadius" s.borderRadius (by simp [Style.slots]),
    hText "boxShadow" s.boxShadow (by simp [Style.slots]),
    hText "fontFamily" s.fontFamily (by simp [Style.slots]),
    hText "textAlign" s.textAlign (by simp [Style.slots]),
    hText "textTransform" s.textTransform (by simp [Style.slots]),
    hText "color" s.color (by simp [Style.slots]),
    hAlign "justify" s.justify (by simp [Style.slots]),
    hAlign "align" s.align (by simp [Style.slots]),
    hAlign "alignSelf" s.alignSelf (by simp [Style.slots])]
  rfl

end Fields

theorem readStyle_toJson (place : Place) (s : Style) : readStyle place s.toJson = .ok s := by
  rw [Style.toJson, Style.toFields_eq]
  exact ofFields_of_lookup plain_id (fun _ _ => lookup_written_id (keys_style s)) place
    (readPadding_toJson place)

/-- A style is also read from its form with ascending keys. -/
theorem readStyle_sorted (place : Place) (s : Style) :
    readStyle place s.toJson.sorted = .ok s := by
  rw [Style.toJson, Style.toFields_eq, sorted]
  exact ofFields_of_lookup plain_sorted (fun _ _ => lookup_sorted_written (keys_style s))
    place (readPadding_sorted place)

end Pagewright.Layout
