import Pagewright.Page.Element.Json
import Pagewright.Proofs.Json.Fields
import Pagewright.Proofs.Page.Tree

/-!
# Page-builder elements are read as they were written

An element is read from six parts, found by key in an object and by place in
an array. `Element.ReadFrom` says which parts of a value make up an element;
reading an object succeeds exactly where they do. As a written element has each
of its parts under its key, the tree is read back, level by level, and so it is
from the form with ascending keys.

## Main results

* `readElement_obj_iff`, `readElement_arr_iff` — what an element is read from.
* `readElement_toJson`, `readElement_sorted` — elements are read back.
* `readDocument_toJson`, `readDocument_sorted` — pages are read back.
* `element_json_round_trip` — both, and what is made of a value that is read.
-/

namespace Pagewright.Page

open Json

/-! ## Lists of elements -/

theorem Element.listToJson_eq (es : List (Element String)) :
    Element.listToJson es = es.map Element.toJson := by
  induction es with
  | nil => rfl
  | cons e rest ih => rw [Element.listToJson, ih, List.map_cons]

theorem readElementsField_eq (fields : Fields) :
    readElementsField fields = field fields "elements" readElements [] := by
  induction fields with
  | nil => rw [readElementsField]; rfl
  | cons pair rest ih =>
    obtain ⟨key, value⟩ := pair
    rw [readElementsField, ih, field, field, lookup]
    split <;> rfl

theorem readElementItems_eq (items : List Json) :
    readElementItems items = items.mapM readElement := by
  induction items with
  | nil => rw [readElementItems]; rfl
  | cons item rest ih => rw [readElementItems, List.mapM_cons, ih]; rfl

theorem readElements_arr (items : List Json) :
    readElements (.arr items) = items.mapM readElement := by
  rw [readElements, readElementItems_eq]

theorem readSixthItem_eq (items : List Json) :
    readSixthItem items = entry items 5 readElements [] := by
  match items with
  | [] | [_] | [_, _] | [_, _, _] | [_, _, _, _] | [_, _, _, _, _] =>
    rw [readSixthItem]
    · rfl
    · exact nofun
  | _ :: _ :: _ :: _ :: _ :: _ :: _ =>
    rw [readSixthItem]
    rfl

/-! ## The parts of an element -/

/-- A part of a record, by its key in an object and by its place in an array. -/
def part? (key : String) (index : Nat) : Json → Option Json
  | .obj fields => lookup key fields
  | .arr items => items[index]?
  | _ => none

/-- The parts of a value that make up an element. -/
structure Element.ReadFrom (value : Json) (e : Element String) : Prop where
  id : part? "id" 0 value = some (.str e.id)
  kind : ∃ given, part? "elType" 1 value = some given ∧
    readVariant .alone ElementKind.variants given = .ok e.kind
  widget : match part? "widgetType" 2 value with
    | some given => readOption (readVariant .alone WidgetKind.variants) given = .ok e.widget
    | none => e.widget = none
  inner : part? "isInner" 3 value = some (.bool e.inner)
  settings : match part? "settings" 4 value with
    | some given => given = .obj e.settings
    | none => e.settings = []
  elements : match part? "elements" 5 value with
    | some given => readElements given = .ok e.elements
    | none => e.elements = []

section Parts

variable {α : Type} {read : Reader α} {x : α}

theorem readText_eq_ok {value : Json} {text : String} :
    readText value = .ok text ↔ value = .str text := by
  cases value <;> simp [readText]

theorem readBool_eq_ok {value : Json} {b : Bool} : readBool value = .ok b ↔ value = .bool b := by
  cases value <;> simp [readBool]

theorem readMap_eq_ok {value : Json} {fields : Fields} :
    readMap value = .ok fields ↔ value = .obj fields := by
  cases value <;> simp [readMap]

theorem requiredField_eq_ok {name : String} {value : Option α} :
    requiredField name value = .ok x ↔ value = some x := by
  cases value <;> simp [requiredField]

theorem field_eq_ok_iff {fields : Fields} {key : String} {absent : α} :
    field fields key read absent = .ok x ↔ match lookup key fields with
      | some given => read given = .ok x
      | none => x = absent := by
  unfold field
  cases lookup key fields with
  | none => exact ⟨fun h => (Except.ok.inj h).symm, fun h => h ▸ rfl⟩
  | some given => exact Iff.rfl

theorem presentField_eq_ok {fields : Fields} {key : String} :
    presentField fields key read = .ok (some x) ↔
      ∃ given, lookup key fields = some given ∧ read given = .ok x := by
  unfold presentField field
  cases lookup key fields with
  | none => simp
  | some given => cases hRead : read given <;> simp [hRead, Except.map]

theorem entry_eq_ok_iff {items : List Json} {index : Nat} {absent : α} :
    entry items index read absent = .ok x ↔ match items[index]? with
      | some given => read given = .ok x
      | none => x = absent := by
  unfold entry
  cases items[index]? with
  | none => exact ⟨fun h => (Except.ok.inj h).symm, fun h => h ▸ rfl⟩
  | some given => exact Iff.rfl

theorem requiredEntry_eq_ok {record : String} {items : List Json} {index : Nat} :
    requiredEntry record items index read = .ok x ↔
      ∃ given, items[index]? = some given ∧ read given = .ok x := by
  unfold requiredEntry
  cases items[index]? <;> simp

end Parts

/-- An object is read as the element that its parts make up. -/
theorem readElement_obj_iff {fields : Fields} {e : Element String} :
    readElement (.obj fields) = .ok e ↔ e.ReadFrom (.obj fields) := by
  have hId {text : String} : presentField fields "id" readText = .ok (some text) ↔
      lookup "id" fields = some (.str text) := by
    simp [presentField_eq_ok, readText_eq_ok]
  have hInner {b : Bool} : presentField fields "isInner" readBool = .ok (some b) ↔
      lookup "isInner" fields = some (.bool b) := by
    simp [presentField_eq_ok, readBool_eq_ok]
  rw [readElement, readElementsField_eq]
  simp only [bind_eq_ok, requiredField_eq_ok, field_eq_ok_iff, readMap_eq_ok]
  constructor
  · rintro ⟨_, hKind, elements, hElements, _, hIdField, _, hInnerField, settings, hSettings,
      widget, hWidget, id, rfl, kind, rfl, inner, rfl, hResult⟩
    cases hResult
    exact ⟨hId.1 hIdField, presentField_eq_ok.1 hKind, hWidget, hInner.1 hInnerField, hSettings,
      hElements⟩
  · intro h
    cases e
    exact ⟨_, presentField_eq_ok.2 h.kind, _, h.elements, _, hId.2 h.id, _, hInner.2 h.inner,
      _, h.settings, _, h.widget, _, rfl, _, rfl, _, rfl, rfl⟩

/-- An array is read as the element that its parts make up, if it has no more than those. -/
theorem readElement_arr_iff {items : List Json} {e : Element String} :
    readElement (.arr items) = .ok e ↔
      e.ReadFrom (.arr items) ∧ items.length ≤ elementArity := by
  have hId {text : String} : elementEntry items 0 readText = .ok text ↔
      items[0]? = some (.str text) := by
    simp [elementEntry, requiredEntry_eq_ok, readText_eq_ok]
  have hInner {b : Bool} : elementEntry items 3 readBool = .ok b ↔
      items[3]? = some (.bool b) := by
    simp [elementEntry, requiredEntry_eq_ok, readBool_eq_ok]
  have hLength : checkLength .alone elementArity items = .ok () ↔
      items.length ≤ elementArity := by
    unfold checkLength
    split <;> simp [*]
  rw [readElement, readSixthItem_eq]
  simp only [bind_eq_ok, entry_eq_ok_iff, readMap_eq_ok]
  constructor
  · rintro ⟨id, hIdEntry, kind, hKind, widget, hWidget, inner, hInnerEntry, settings, hSettings,
      elements, hElements, ⟨⟩, hCheck, hResult⟩
    cases hResult
    exact ⟨⟨hId.1 hIdEntry, requiredEntry_eq_ok.1 hKind, hWidget, hInner.1 hInnerEntry, hSettings,
      hElements⟩, hLength.1 hCheck⟩
  · rintro ⟨h, hCheck⟩
    cases e
    exact ⟨_, hId.2 h.id, _, requiredEntry_eq_ok.2 h.kind, _, h.widget, _, hInner.2 h.inner,
      _, h.settings, _, h.elements, (), hLength.2 hCheck, rfl⟩

/-- Whatever is read as an element has its parts. -/
theorem readFrom_of_readElement {value : Json} {e : Element String}
    (hRead : readElement value = .ok e) : e.ReadFrom value := by
  cases value with
  | obj fields => exact readElement_obj_iff.1 hRead
  | arr items => exact (readElement_arr_iff.1 hRead).1
  | null | bool | int | float | str =>
    rw [readElement] at hRead
    · cases hRead
    · intro fields hSame
      cases hSame
    · intro items hSame
      cases hSame

/-! ## Written elements -/

theorem readVariant_elementKind (kind : ElementKind) :
    readVariant .alone ElementKind.variants (.str kind.name) = .ok kind := by
  cases kind <;> rfl

theorem readVariant_widgetKind (widget : WidgetKind) :
    readVariant .alone WidgetKind.variants (.str widget.name) = .ok widget := by
  cases widget <;> rfl

/-- The slots of an element. -/
def Element.slots (e : Element String) : List (String × Option Json) :=
  [("id", some (.str e.id)), ("elType", some (.str e.kind.name)),
    ("widgetType", e.widget.map fun widget => .str widget.name), ("isInner", some (.bool e.inner)),
    ("settings", some (.obj e.settings)),
    ("elements", some (.arr (e.elements.map Element.toJson)))]

theorem Element.toJson_eq (e : Element String) : e.toJson = .obj (written e.slots) := by
  obtain ⟨id, kind, widget, inner, settings, elements⟩ := e
  rw [Element.toJson, Element.listToJson_eq]
  cases widget <;> rfl

theorem Element.keys_slots (e : Element String) : (e.slots.map Prod.fst).Nodup := by
  show ["id", "elType", "widgetType", "isInner", "settings", "elements"].Nodup
  decide

section Forms

variable {slots : List (String × Option Json)} {fields : Fields} {form : Json → Json}

/-- A text is looked up as it is in every form of values. -/
theorem lookup_text {key text : String} (hForm : Plain form)
    (hFields : ∀ key value, (key, value) ∈ slots → lookup key fields = value.map form)
    (hSlot : (key, some (.str text)) ∈ slots) : lookup key fields = some (.str text) := by
  rw [hFields key _ hSlot, Option.map_some, hForm.str]

/-- An element is read wherever its slots can be looked up, in a form of values that leaves its
settings alone and in which its elements are read. -/
theorem readElement_of_lookup {e : Element String} (hForm : Plain form)
    (hFields : ∀ key value, (key, value) ∈ e.slots → lookup key fields = value.map form)
    (hSettings : form (.obj e.settings) = .obj e.settings)
    (hElements : readElements (form (.arr (e.elements.map Element.toJson))) = .ok e.elements) :
    readElement (.obj fields) = .ok e := by
  have hId : lookup "id" fields = some (.str e.id) :=
    lookup_text hForm hFields (by simp [Element.slots])
  have hKind : lookup "elType" fields = some (.str e.kind.name) :=
    lookup_text hForm hFields (by simp [Element.slots])
  have hWidget : lookup "widgetType" fields = e.widget.map fun widget => .str widget.name := by
    have hSlot : ("widgetType", e.widget.map fun widget => .str widget.name) ∈ e.slots := by
      simp [Element.slots]
    rw [hFields _ _ hSlot, Option.map_map]
    exact congrArg (e.widget.map ·) (funext fun widget => hForm.str widget.name)
  have hInner : lookup "isInner" fields = some (.bool e.inner) := by
    rw [hFields "isInner" (some (.bool e.inner)) (by simp [Element.slots]), Option.map_some,
      hForm.bool]
  have hSettingsField : lookup "settings" fields = some (.obj e.settings) := by
    rw [hFields "settings" (some (.obj e.settings)) (by simp [Element.slots]), Option.map_some,
      hSettings]
  have hElementsField : lookup "elements" fields =
      some (form (.arr (e.elements.map Element.toJson))) :=
    hFields "elements" (some _) (by simp [Element.slots])
  refine readElement_obj_iff.2 ⟨hId, ⟨_, hKind, readVariant_elementKind e.kind⟩, ?_, hInner, ?_, ?_⟩
  · rw [part?, hWidget]
    cases e.widget with
    | none => rfl
    | some widget =>
      exact readOption_of_read (readVariant_widgetKind widget) fun _ hNull => by cases hNull
  · rw [part?, hSettingsField]
  · rw [part?, hElementsField]
    exact hElements

end Forms

/-- Elements are read back when each of them is. -/
theorem readElements_map {write : Element String → Json} {es : List (Element String)}
    (hRead : ∀ e ∈ es, readElement (write e) = .ok e) :
    readElements (.arr (es.map write)) = .ok es := by
  have hItems : (es.map write).mapM readElement = .ok (es.map id) := mapM_map_eq_ok hRead
  rw [readElements_arr, hItems, List.map_id]

theorem readElement_toJson (e : Element String) : readElement e.toJson = .ok e := by
  induction e using Element.induct with
  | step e ih =>
    rw [Element.toJson_eq]
    exact readElement_of_lookup plain_id (fun _ _ => lookup_written_id e.keys_slots) rfl
      (readElements_map ih)

/-- Whether the settings of all elements of a tree are in ascending key order, at any depth. -/
def Element.Ordered (e : Element String) : Prop :=
  ∀ x ∈ e.preorder, sortedFields x.settings = x.settings

theorem Element.Ordered.inside {e inside : Element String} (hOrdered : e.Ordered)
    (hMem : inside ∈ e.elements) : inside.Ordered :=
  fun x hX => hOrdered x (mem_preorder.2 (.inr ⟨inside, hMem, hX⟩))

/-- An element is also read from its form with ascending keys. -/
theorem readElement_sorted {e : Element String} (hOrdered : e.Ordered) :
    readElement e.toJson.sorted = .ok e := by
  induction e using Element.induct with
  | step e ih =>
    have hSettings : sortedFields e.settings = e.settings :=
      hOrdered e (Element.mem_preorder.2 (.inl rfl))
    rw [Element.toJson_eq, sorted]
    refine readElement_of_lookup plain_sorted (fun _ _ => lookup_sorted_written e.keys_slots)
      (by rw [sorted, hSettings]) ?_
    rw [sorted, sortedItems_eq, List.map_map]
    exact readElements_map fun inside hMem => ih inside hMem (hOrdered.inside hMem)

/-! ## Written pages -/

/-- The slots of a page. -/
def Document.slots (d : Document) : List (String × Option Json) :=
  [("title", some (.str d.title)), ("type", some (.str d.kind)),
    ("version", some (.str d.version)), ("page_settings", some (.obj d.pageSettings)),
    ("content", some (.arr (d.content.map Element.toJson)))]

theorem Document.toJson_eq (d : Document) : d.toJson = .obj (written d.slots) := by
  rw [Document.toJson, Element.listToJson_eq]
  rfl

theorem Document.keys_slots (d : Document) : (d.slots.map Prod.fst).Nodup := by
  show ["title", "type", "version", "page_settings", "content"].Nodup
  decide

/-- A page is read wherever its slots can be looked up, in a form of values that leaves its
settings alone and in which its content is read. -/
theorem readDocument_of_lookup {d : Document} {fields : Fields} {form : Json → Json}
    (hForm : Plain form)
    (hFields : ∀ key value, (key, value) ∈ d.slots → lookup key fields = value.map form)
    (hSettings : form (.obj d.pageSettings) = .obj d.pageSettings)
    (hContent : readElements (form (.arr (d.content.map Element.toJson))) = .ok d.content) :
    readDocument (.obj fields) = .ok d := by
  have hText (key text : String) (hSlot : (key, some (.str text)) ∈ d.slots) :
      presentField fields key readText = .ok (some text) :=
    presentField_eq_ok.2 ⟨_, lookup_text hForm hFields hSlot, rfl⟩
  have hSettingsField : field fields "page_settings" readMap [] = .ok d.pageSettings := by
    have hLookup := hFields "page_settings" (some (.obj d.pageSettings)) (by simp [Document.slots])
    rw [field_of_lookup hLookup, hSettings]
    rfl
  have hContentField : field fields "content" readElements [] = .ok d.content := by
    have hLookup := hFields "content" (some (.arr (d.content.map Element.toJson)))
      (by simp [Document.slots])
    rw [field_of_lookup hLookup, hContent]
  unfold readDocument readRecord Document.ofFields
  simp only [hText "title" d.title (by simp [Document.slots]),
    hText "type" d.kind (by simp [Document.slots]),
    hText "version" d.version (by simp [Document.slots]), hSettingsField, hContentField]
  rfl

theorem readDocument_toJson (d : Document) : readDocument d.toJson = .ok d := by
  rw [Document.toJson_eq]
  exact readDocument_of_lookup plain_id (fun _ _ => lookup_written_id d.keys_slots) rfl
    (readElements_map fun e _ => readElement_toJson e)

/-- Whether all settings of a page are in ascending key order, at any depth. -/
structure Document.Ordered (d : Document) : Prop where
  pageSettings : sortedFields d.pageSettings = d.pageSettings
  content : ∀ e ∈ d.content, e.Ordered

/-- A page is also read from its form with ascending keys. -/
theorem readDocument_sorted {d : Document} (hOrdered : d.Ordered) :
    readDocument d.toJson.sorted = .ok d := by
  rw [Document.toJson_eq, sorted]
  refine readDocument_of_lookup plain_sorted (fun _ _ => lookup_sorted_written d.keys_slots)
    (by rw [sorted, hOrdered.pageSettings]) ?_
  rw [sorted, sortedItems_eq, List.map_map]
  exact readElements_map fun e hMem => readElement_sorted (hOrdered.content e hMem)

/-! ## Values that are read -/

theorem sorted_of_part? {key : String} {index : Nat} {value given : Json}
    (hSorted : value.sorted = value) (hPart : part? key index value = some given) :
    given.sorted = given := by
  cases value with
  | obj fields =>
    rw [sorted] at hSorted
    exact sorted_of_lookup (Json.obj.inj hSorted) hPart
  | arr items =>
    rw [sorted] at hSorted
    exact sorted_of_mem (Json.arr.inj hSorted) given (List.mem_of_getElem? hPart)
  | null | bool | int | float | str => cases hPart

/-- The settings of an element that is read from a value in order are in order. -/
theorem ordered_of_readElement {value : Json} {e : Element String}
    (hSorted : value.sorted = value) (hRead : readElement value = .ok e) : e.Ordered := by
  induction e using Element.induct generalizing value with
  | step e ih =>
    have hParts := readFrom_of_readElement hRead
    intro x hX
    rcases Element.mem_preorder.1 hX with rfl | ⟨inside, hInside, hX⟩
    · have hSettings := hParts.settings
      split at hSettings
      · rename_i given hGiven
        have hGivenSorted := sorted_of_part? hSorted hGiven
        rw [hSettings, sorted] at hGivenSorted
        exact Json.obj.inj hGivenSorted
      · rw [hSettings]
        rfl
    · have hElements := hParts.elements
      split at hElements
      · rename_i given hGiven
        have hGivenSorted := sorted_of_part? hSorted hGiven
        cases given with
        | arr items =>
          rw [sorted] at hGivenSorted
          rw [readElements_arr] at hElements
          obtain ⟨item, hItem, hItemRead⟩ := mem_of_mapM_eq_ok hElements hInside
          exact ih inside hInside (sorted_of_mem (Json.arr.inj hGivenSorted) item hItem)
            hItemRead x hX
        | null | bool | int | float | str | obj =>
          rw [readElements] at hElements
          · cases hElements
          · intro items hSame
            cases hSame
      · rw [hElements] at hInside
        cases hInside

/-- A written element has a widget kind exactly where the element has one. -/
theorem widgetType_toJson (e : Element String) :
    part? "widgetType" 2 e.toJson = e.widget.map fun widget => .str widget.name := by
  rw [Element.toJson_eq]
  exact lookup_written e.keys_slots (by simp [Element.slots])

/-- Elements and pages are read back from what is written for them, with the keys in the order of
the record or in ascending order. So is an element that was read from any value; what the value
leaves out is empty, and stays out where it is the widget kind. -/
theorem element_json_round_trip :
    (∀ e : Element String, readElement e.toJson = .ok e ∧
      (e.Ordered → readElement e.toJson.sorted = .ok e)) ∧
    (∀ d : Document, readDocument d.toJson = .ok d ∧
      (d.Ordered → readDocument d.toJson.sorted = .ok d)) ∧
    ∀ (value : Json) (e : Element String), readElement value = .ok e →
      readElement e.toJson = .ok e ∧
      (value.sorted = value → readElement e.toJson.sorted = .ok e) ∧
      e.ReadFrom value ∧
      (part? "widgetType" 2 value = none → part? "widgetType" 2 e.toJson = none) := by
  refine ⟨fun e => ⟨readElement_toJson e, readElement_sorted⟩,
    fun d => ⟨readDocument_toJson d, readDocument_sorted⟩, fun value e hRead => ?_⟩
  have hParts := readFrom_of_readElement hRead
  refine ⟨readElement_toJson e,
    fun hSorted => readElement_sorted (ordered_of_readElement hSorted hRead), hParts,
    fun hAbsent => ?_⟩
  have hWidget := hParts.widget
  rw [hAbsent] at hWidget
  rw [widgetType_toJson, hWidget]
  rfl

/-- A wrapper around an image, without settings of its own. -/
def figure : Element String :=
  ⟨"f1", .container, none, true, [],
    [.ofWidget "f2" .image [("image", .obj [("id", .int 7), ("url", .str "a.png")])]]⟩

/-- The value of a figure that leaves the settings of the wrapper out, in ascending key order. -/
def figureValue : Json :=
  .obj [("elType", .str "container"),
    ("elements", .arr [
      .obj [("elType", .str "widget"), ("id", .str "f2"), ("isInner", .bool false),
        ("settings", .obj [("image", .obj [("id", .int 7), ("url", .str "a.png")])]),
        ("widgetType", .str "image")]]),
    ("id", .str "f1"), ("isInner", .bool true)]

theorem element_json_round_trip_figure :
    readElement figureValue = .ok figure ∧ figureValue.sorted = figureValue ∧
      readElement figure.toJson = .ok figure ∧ readElement figure.toJson.sorted = .ok figure ∧
      part? "widgetType" 2 figure.toJson = none := by
  have hRead : readElement figureValue = .ok figure := rfl
  have hSorted : figureValue.sorted = figureValue := rfl
  obtain ⟨hBack, hBackSorted, -, hAbsent⟩ := element_json_round_trip.2.2 figureValue figure hRead
  exact ⟨hRead, hSorted, hBack, hBackSorted hSorted, hAbsent rfl⟩

end Pagewright.Page
