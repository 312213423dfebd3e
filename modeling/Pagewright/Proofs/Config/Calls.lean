import Pagewright.Proofs.Config.Order

/-!
# Runs of loader calls

A loader is put together by calls, one after the other. The layers stand in the order of
their calls, whatever overrides are made between them. An override takes the place of an
earlier one of the same key; those that are left stand above all layers and have no order
among themselves, as the keys of one layer have none.

What the calls come to for a setting is the effect of the overrides that stand, or else the
last effect of a layer. Where it is settled the setting that is built has it, in whatever
order the keys and the overrides are applied.

## Main results

* `layers_of_run`, `overrides_of_run` — what a run of calls adds to a loader.
* `read_outcome` — a setting is read of what the calls come to.
* `outcome_override`, `outcome_layer`, `outcome_standard` — which call this is.
* `get_without` — which calls may be left out.
-/

namespace Pagewright.Config

open Json (bind_eq_ok)

/-! ## Calls -/

/-- A call on a loader. -/
inductive Call where
  | file (name : String) (found : Option (String × String))
  | optionalFile (found : Option (String × String))
  | environment (given : List (String × String))
  | override (key : String) (value : Value)

namespace Call

/-- The loader after a call. -/
def apply (loader : Loader) : Call → Except ConfigError Loader
  | file name found => .ok (loader.withFile name found)
  | optionalFile found => .ok (loader.withOptionalFile found)
  | environment given => .ok (loader.withEnvironment given)
  | override key value => loader.setOverride key value

/-- Whether a call is an override. -/
def isOverride : Call → Bool
  | override .. => true
  | _ => false

/-- The layer that a call adds. -/
def layer? : Call → Option (Except ConfigError (List Assignment))
  | file name none => some (.error (.missingFile name))
  | file _ (some (foundName, content)) => some (fileLayer foundName content)
  | optionalFile found => found.map fun (foundName, content) => fileLayer foundName content
  | environment given => some (.ok (environmentLayer given))
  | override .. => none

/-- The override that a call makes. -/
def assignment? : Call → Option Assignment
  | override key value => (Key.parse? key).map fun steps => ⟨steps, value⟩
  | _ => none

/-- Whether a call takes the place of an earlier one: both override the same key. -/
def Replaces (call earlier : Call) : Prop :=
  ∃ assignment other, call.assignment? = some assignment ∧ earlier.assignment? = some other ∧
    assignment.key = other.key

end Call

/-- The loader after a row of calls. -/
def runCalls (calls : List Call) : Except ConfigError Loader := calls.foldlM Call.apply .new

/-- The settings that are built after a row of calls. -/
def settle (calls : List Call) : Except ConfigError Settings := do (← runCalls calls).build

/-- Whether settings may be built after a row of calls, in some order of the keys of each
layer and of the overrides. -/
def Settles (calls : List Call) (settings : Settings) : Prop :=
  ∃ loader other, runCalls calls = .ok loader ∧ loader.Reordered other ∧
    other.build = .ok settings

/-- The order in which everything was given is one of them. -/
theorem settles_of_settle {calls : List Call} {settings : Settings}
    (hSettle : settle calls = .ok settings) : Settles calls settings := by
  obtain ⟨loader, hRun, hBuild⟩ := bind_eq_ok.1 hSettle
  exact ⟨loader, loader, hRun, .refl loader, hBuild⟩

/-! ## Effects of calls -/

/-- Whether a key is that of a setting, but for the case of its letters. -/
def Setting.isKey (s : Setting) : Key → Bool
  | [.child group, .child name] => Text.small group = s.group ∧ Text.small name = s.name
  | _ => false

/-- The value that a call gives to a setting: an override of its key the value it has, and
another call what its layer alone has there. -/
def Call.given? (s : Setting) : Call → Option Value
  | override key value => if (Key.parse? key).any s.isKey then some value else none
  | call => call.layer?.bind (layerValue? s)

/-- The effect of an override. A table for the whole group is taken to leave the settings
in it open, since it is no value for the key of any of them. -/
def Assignment.overrideEffect (s : Setting) (assignment : Assignment) : Effect :=
  match assignment.value, assignment.effect s with
  | .table .., .set _ => .unsettled
  | _, effect => effect

/-- The effect of the layer of a call on a setting. -/
def Call.effect (s : Setting) (call : Call) : Effect :=
  (call.layer?.map (layerEffect s)).getD .untouched

/-- The assignments behind which there is none of the same key. -/
def standing : List Assignment → List Assignment
  | [] => []
  | assignment :: rest =>
    if rest.any (·.key = assignment.key) then standing rest else assignment :: standing rest

/-- What the layers of a row of calls come to for a setting. -/
def layersEffect (s : Setting) (calls : List Call) : Effect :=
  lastEffect (calls.map (Call.effect s))

/-- What the overrides of a row of calls come to for a setting. -/
def overridesEffect (s : Setting) (calls : List Call) : Effect :=
  soleEffect ((standing (calls.filterMap Call.assignment?)).map (Assignment.overrideEffect s))

/-- What a row of calls comes to for a setting. -/
def outcome (s : Setting) (calls : List Call) : Effect :=
  (layersEffect s calls).andThen (overridesEffect s calls)

theorem valueEffect_eq_set {value other : Value} (h : valueEffect value = .set other) :
    value = other := by
  cases value with
  | table => cases h
  | scalar | list => exact Effect.set.inj h

theorem valueEffect_ne_untouched (value : Value) : valueEffect value ≠ .untouched := by
  cases value <;> nofun

theorem effect_of_isKey {s : Setting} {key : Key} (hKey : s.isKey key) (value : Value) :
    Assignment.effect s ⟨key, value⟩ = valueEffect value := by
  unfold Setting.isKey at hKey
  split at hKey
  · rename_i group name
    obtain ⟨hGroup, hName⟩ := of_decide_eq_true hKey
    simp only [Assignment.effect, innerEffect, entryEffect, if_pos hGroup, if_pos hName]
  · cases hKey

/-- A value in the group of a setting sets it under its name only. -/
theorem isKey_of_innerEffect {s : Setting} {group name : String} {more : Key} {given value : Value}
    (hGroup : Text.small group = s.group)
    (hEffect : innerEffect s.name given (.child name :: more) = .set value) :
    s.isKey (.child group :: .child name :: more) := by
  by_cases hName : Text.small name = s.name
  · cases more with
    | nil => exact decide_eq_true ⟨hGroup, hName⟩
    | cons step rest =>
      simp only [innerEffect, if_pos hName] at hEffect
      cases hEffect
  · cases more with
    | nil =>
      simp only [innerEffect, entryEffect, if_neg hName] at hEffect
      cases hEffect
    | cons step rest =>
      simp only [innerEffect, if_neg hName] at hEffect
      cases hEffect

/-- Only a value for the key of a setting sets it, or a table for the whole group. -/
theorem isKey_of_effect {s : Setting} {key : Key} {given value : Value}
    (hGiven : ∀ origin entries, given ≠ .table origin entries)
    (hEffect : Assignment.effect s ⟨key, given⟩ = .set value) : s.isKey key := by
  cases key with
  | nil => cases hEffect
  | cons first rest =>
    cases first with
    | item => cases hEffect
    | child group =>
      by_cases hGroup : Text.small group = s.group
      · simp only [Assignment.effect, if_pos hGroup] at hEffect
        cases rest with
        | nil =>
          cases given with
          | table origin entries => exact absurd rfl (hGiven origin entries)
          | scalar | list => cases hEffect
        | cons second more =>
          cases second with
          | item => cases hEffect
          | child name => exact isKey_of_innerEffect hGroup hEffect
      · simp only [Assignment.effect, if_neg hGroup] at hEffect
        cases hEffect

theorem overrideEffect_eq_set {s : Setting} {key : Key} {given value : Value}
    (h : Assignment.overrideEffect s ⟨key, given⟩ = .set value) :
    s.isKey key ∧ given = value ∧ valueEffect value = .set value := by
  have hGiven : (∀ origin entries, given ≠ .table origin entries) ∧
      Assignment.effect s ⟨key, given⟩ = .set value := by
    cases given with
    | table =>
      simp only [Assignment.overrideEffect] at h
      split at h
      · cases h
      · rename_i hOpen
        exact absurd h (hOpen _ _ _ rfl)
    | scalar | list => exact ⟨nofun, h⟩
  obtain ⟨hTable, hEffect⟩ := hGiven
  have hKey := isKey_of_effect hTable hEffect
  rw [effect_of_isKey hKey] at hEffect
  obtain rfl := valueEffect_eq_set hEffect
  exact ⟨hKey, rfl, hEffect⟩

/-- Where it leaves nothing open that is set, an override does what its assignment does. -/
theorem overrideEffect_eq {s : Setting} {assignment : Assignment}
    (hSettled : assignment.overrideEffect s ≠ .unsettled) :
    assignment.overrideEffect s = assignment.effect s := by
  unfold Assignment.overrideEffect at hSettled ⊢
  split
  · rename_i hValue hEffect
    simp only [hValue, hEffect] at hSettled
    exact absurd rfl hSettled
  · rfl

/-- An override for the key of a setting does what its value says. -/
theorem overrideEffect_of_isKey {s : Setting} {key : Key} (hKey : s.isKey key) (value : Value) :
    Assignment.overrideEffect s ⟨key, value⟩ = valueEffect value := by
  have hEffect := effect_of_isKey hKey value
  cases value with
  | table => simp only [Assignment.overrideEffect, hEffect, valueEffect]
  | scalar | list => exact hEffect

/-! ## What calls give -/

/-- An override gives a setting the value of its assignment, if this is for its key. -/
theorem given?_override {s : Setting} {call : Call} {value : Value} (hOverride : call.isOverride) :
    call.given? s = some value ↔
      ∃ key, call.assignment? = some ⟨key, value⟩ ∧ s.isKey key = true := by
  cases call with
  | file | optionalFile | environment => cases hOverride
  | override text given =>
    cases hSteps : Key.parse? text with
    | none => simp [Call.given?, Call.assignment?, hSteps]
    | some steps =>
      by_cases hKey : s.isKey steps = true
      · simp [Call.given?, Call.assignment?, hSteps, hKey]
      · simp [Call.given?, Call.assignment?, hSteps, hKey]

theorem isOverride_of_assignment? {call : Call} {assignment : Assignment}
    (hAssignment : call.assignment? = some assignment) : call.isOverride = true := by
  cases call with
  | override => rfl
  | file | optionalFile | environment => cases hAssignment

theorem effect_of_isOverride {call : Call} (hOverride : call.isOverride) (s : Setting) :
    call.effect s = .untouched := by
  cases call with
  | override => rfl
  | file | optionalFile | environment => cases hOverride

/-- The effect of a layer is what it does where there is nothing. -/
theorem effect_left_given? (s : Setting) {call : Call} (hLayer : call.isOverride = false) :
    (call.effect s).Left none (call.given? s) := by
  cases call with
  | override key value => cases hLayer
  | environment given => exact layerEffect_left s (.ok (environmentLayer given))
  | file name found =>
    cases found with
    | none => exact layerEffect_left s (.error (.missingFile name))
    | some found => exact layerEffect_left s (fileLayer found.1 found.2)
  | optionalFile found =>
    cases found with
    | none => rfl
    | some found => exact layerEffect_left s (fileLayer found.1 found.2)

/-- What a layer sets is what it gives. -/
theorem given?_of_effect {s : Setting} {call : Call} {value : Value}
    (hEffect : call.effect s = .set value) : call.given? s = some value := by
  cases hLayer : call.isOverride with
  | false =>
    have hLeft := effect_left_given? s hLayer
    rw [hEffect] at hLeft
    exact hLeft
  | true =>
    rw [effect_of_isOverride hLayer] at hEffect
    cases hEffect

/-- A layer that gives a value touches the setting. -/
theorem effect_ne_untouched {s : Setting} {call : Call} {value : Value}
    (hLayer : call.isOverride = false) (hGiven : call.given? s = some value) :
    call.effect s ≠ .untouched := by
  intro hEffect
  have hLeft := effect_left_given? s hLayer
  rw [hEffect, hGiven] at hLeft
  cases hLeft

theorem effect_ne_set {s : Setting} {call : Call} (hGiven : call.given? s = none) (value : Value) :
    call.effect s ≠ .set value := by
  intro hEffect
  rw [given?_of_effect hEffect] at hGiven
  cases hGiven

/-! ## Layers of a run -/

theorem layers_apply {loader next : Loader} {call : Call} (h : call.apply loader = .ok next) :
    next.layers = loader.layers ++ call.layer?.toList := by
  cases call with
  | file name found =>
    obtain rfl := Except.ok.inj h
    cases found <;> rfl
  | optionalFile found =>
    obtain rfl := Except.ok.inj h
    cases found with
    | none => exact (List.append_nil _).symm
    | some => rfl
  | environment given =>
    obtain rfl := Except.ok.inj h
    rfl
  | override key value =>
    simp only [Call.apply, Loader.setOverride] at h
    split at h
    · obtain rfl := Except.ok.inj h
      exact (List.append_nil _).symm
    · cases h

theorem layers_of_run {calls : List Call} {loader next : Loader}
    (hRun : calls.foldlM Call.apply loader = .ok next) :
    next.layers = loader.layers ++ calls.filterMap Call.layer? := by
  induction calls generalizing loader with
  | nil =>
    obtain rfl : loader = next := Except.ok.inj hRun
    rw [List.filterMap_nil, List.append_nil]
  | cons call rest ih =>
    rw [List.foldlM_cons] at hRun
    obtain ⟨middle, hCall, hRest⟩ := bind_eq_ok.1 hRun
    rw [ih hRest, layers_apply hCall, List.append_assoc]
    cases hLayer : call.layer? with
    | none => rw [List.filterMap_cons_none hLayer, Option.toList_none, List.nil_append]
    | some layer => rw [List.filterMap_cons_some hLayer, Option.toList_some, List.singleton_append]

/-- The layers of calls do what the calls say. -/
theorem lastEffect_layers (s : Setting) (calls : List Call) :
    lastEffect ((calls.filterMap Call.layer?).map (layerEffect s)) = layersEffect s calls := by
  induction calls with
  | nil => rfl
  | cons call rest ih =>
    rw [layersEffect, List.map_cons, lastEffect, ← layersEffect, ← ih, Call.effect]
    cases hLayer : call.layer? with
    | none =>
      rw [List.filterMap_cons_none hLayer, Option.map_none, Option.getD_none,
        Effect.untouched_andThen]
    | some layer =>
      rw [List.filterMap_cons_some hLayer, List.map_cons, lastEffect, Option.map_some,
        Option.getD_some]

/-! ## Overrides of a run -/

theorem mem_of_mem_standing {assignment : Assignment} {assignments : List Assignment}
    (hMem : assignment ∈ standing assignments) : assignment ∈ assignments := by
  induction assignments with
  | nil => cases hMem
  | cons first rest ih =>
    rw [standing] at hMem
    split at hMem
    · exact List.mem_cons_of_mem first (ih hMem)
    · rcases List.mem_cons.1 hMem with rfl | hMem
      · exact List.mem_cons_self
      · exact List.mem_cons_of_mem first (ih hMem)

/-- The last assignment of a key stands. -/
theorem mem_standing {assignment : Assignment} {before after : List Assignment}
    (hAfter : ∀ later ∈ after, later.key ≠ assignment.key) :
    assignment ∈ standing (before ++ assignment :: after) := by
  induction before with
  | nil =>
    rw [List.nil_append, standing, if_neg (by simpa using hAfter)]
    exact List.mem_cons_self
  | cons first rest ih =>
    rw [List.cons_append, standing]
    split
    · exact ih
    · exact List.mem_cons_of_mem first ih

/-- An assignment takes the place of one with its key and goes behind the others. -/
theorem standing_append_singleton (assignments : List Assignment) (assignment : Assignment) :
    standing (assignments ++ [assignment]) =
      Assignment.insert (standing assignments) assignment := by
  induction assignments with
  | nil => rfl
  | cons first rest ih =>
    rw [List.cons_append, standing, ih, standing]
    by_cases hLater : rest.any (·.key = first.key) = true
    · rw [if_pos hLater, if_pos (by rw [List.any_append, hLater, Bool.true_or])]
    · rw [if_neg hLater]
      by_cases hSame : assignment.key = first.key
      · rw [if_pos (by simp [hSame]), Assignment.insert, Assignment.insert,
          List.filter_cons_of_neg (by simp [hSame])]
      · rw [if_neg (by simpa [hSame] using hLater), Assignment.insert, Assignment.insert,
          List.filter_cons_of_pos (by simpa using Ne.symm hSame), List.cons_append]

/-- A run of calls leaves the overrides that stand. -/
theorem overrides_of_run {calls : List Call} {loader next : Loader} {done : List Assignment}
    (hRun : calls.foldlM Call.apply loader = .ok next) (hDone : loader.overrides = standing done) :
    next.overrides = standing (done ++ calls.filterMap Call.assignment?) := by
  induction calls generalizing loader done with
  | nil =>
    obtain rfl : loader = next := Except.ok.inj hRun
    rw [List.filterMap_nil, List.append_nil, hDone]
  | cons call rest ih =>
    rw [List.foldlM_cons] at hRun
    obtain ⟨middle, hCall, hRest⟩ := bind_eq_ok.1 hRun
    cases call with
    | override key value =>
      simp only [Call.apply, Loader.setOverride] at hCall
      split at hCall
      · rename_i steps hSteps
        obtain rfl := Except.ok.inj hCall
        have hAssignment : (Call.override key value).assignment? = some ⟨steps, value⟩ := by
          rw [Call.assignment?, hSteps, Option.map_some]
        have hMiddle := standing_append_singleton done ⟨steps, value⟩
        rw [← hDone] at hMiddle
        rw [List.filterMap_cons_some hAssignment, List.append_cons]
        exact ih hRest hMiddle.symm
      · cases hCall
    | file name found =>
      obtain rfl := Except.ok.inj hCall
      refine ih hRest (.trans ?_ hDone)
      cases found <;> rfl
    | optionalFile found =>
      obtain rfl := Except.ok.inj hCall
      refine ih hRest (.trans ?_ hDone)
      cases found <;> rfl
    | environment given =>
      obtain rfl := Except.ok.inj hCall
      exact ih hRest hDone

/-- The overrides leave behind what their effect says. -/
theorem Effect.Left.ofOverrides {s : Setting} {base found : Option Value} {first : Effect}
    {overrides : List Assignment}
    (hLeft : (first.andThen (soleEffect (overrides.map (Assignment.effect s)))).Left base found) :
    (first.andThen (soleEffect (overrides.map (Assignment.overrideEffect s)))).Left base
      found := by
  by_cases hSettled : soleEffect (overrides.map (Assignment.overrideEffect s)) = .unsettled
  · rw [hSettled]
    trivial
  · have hSame : overrides.map (Assignment.overrideEffect s) =
        overrides.map (Assignment.effect s) := by
      refine List.map_congr_left fun assignment hMem => overrideEffect_eq fun hOpen => ?_
      have hSole := soleEffect_eq_of_mem hSettled (List.mem_map_of_mem hMem) (by rw [hOpen]; nofun)
      exact hSettled (hSole.trans hOpen)
    rwa [hSame]

/-! ## Whole runs -/

theorem outcome_left {calls : List Call} {settings : Settings}
    (hSettles : Settles calls settings) (s : Setting) :
    ∃ root, readSettings root = .ok settings ∧
      (outcome s calls).Left (some s.standard) (slot s root) := by
  obtain ⟨loader, other, hRun, hOrder, hBuild⟩ := hSettles
  obtain ⟨root, hValues, hRead⟩ := bind_eq_ok.1 hBuild
  obtain ⟨layered, hLayers, hOverrides⟩ := bind_eq_ok.1 hValues
  obtain rfl := Except.ok.inj hOverrides
  refine ⟨_, hRead, ?_⟩
  have hBase : Effect.untouched.Left (some s.standard) (slot s defaults) := slot_defaults s
  have hGathered : loader.layers = calls.filterMap Call.layer? := layers_of_run hRun
  have hStanding : loader.overrides = standing (calls.filterMap Call.assignment?) :=
    overrides_of_run hRun (show Loader.new.overrides = standing [] from rfl)
  have hLayered := hBase.foldlM_applyLayer hLayers
  rw [Effect.untouched_andThen, ← hOrder.map_layerEffect, hGathered, lastEffect_layers] at hLayered
  have hAll : ((layersEffect s calls).andThen
      (soleEffect (other.overrides.map (Assignment.effect s)))).Left (some s.standard)
        (slot s (other.overrides.foldl Assignment.apply layered)) :=
    hLayered.foldl_apply.ofLast
  rw [← hOrder.overrides.soleEffect_eq, hStanding] at hAll
  exact hAll.ofOverrides

/-- A setting is read of the value that the calls come to. -/
theorem read_outcome {calls : List Call} {settings : Settings}
    (hSettles : Settles calls settings) {s : Setting} :
    (∀ value, outcome s calls = .set value → s.read value = .ok (s.get settings)) ∧
    (outcome s calls = .untouched → s.read s.standard = .ok (s.get settings)) := by
  obtain ⟨root, hRead, hLeft⟩ := outcome_left hSettles s
  constructor
  · intro value hOutcome
    rw [hOutcome] at hLeft
    exact read_slot hRead hLeft
  · intro hOutcome
    rw [hOutcome] at hLeft
    exact read_slot hRead hLeft

/-! ## The deciding call -/

section

variable {s : Setting} {calls before after : List Call} {call : Call} {value : Value}

theorem overridesEffect_ne_unsettled (hSettled : outcome s calls ≠ .unsettled) :
    overridesEffect s calls ≠ .unsettled := by
  intro hOpen
  rw [outcome, hOpen] at hSettled
  exact hSettled rfl

/-- Overrides that give a setting nothing leave it as it is, where all is settled. -/
theorem overridesEffect_of_none (hSettled : outcome s calls ≠ .unsettled)
    (hOverrides : ∀ other ∈ calls, other.isOverride → other.given? s = none) :
    overridesEffect s calls = .untouched := by
  cases hEffect : overridesEffect s calls with
  | untouched => rfl
  | unsettled => exact absurd hEffect (overridesEffect_ne_unsettled hSettled)
  | set value =>
    obtain ⟨⟨key, given⟩, hStands, hSet⟩ := List.mem_map.1 (mem_of_soleEffect_eq_set hEffect)
    obtain ⟨other, hMem, hAssignment⟩ := List.mem_filterMap.1 (mem_of_mem_standing hStands)
    obtain ⟨hKey, -, -⟩ := overrideEffect_eq_set hSet
    have hOverride := isOverride_of_assignment? hAssignment
    have hGiven := (given?_override hOverride).2 ⟨key, hAssignment, hKey⟩
    rw [hOverrides other hMem hOverride] at hGiven
    cases hGiven

/-- The last override of the key of a setting decides, wherever it is called. -/
theorem outcome_override (hSettled : outcome s (before ++ call :: after) ≠ .unsettled)
    (hOverride : call.isOverride) (hCall : call.given? s = some value)
    (hAfter : ∀ later ∈ after, later.isOverride → later.given? s = none) :
    outcome s (before ++ call :: after) = .set value := by
  obtain ⟨key, hAssignment, hKey⟩ := (given?_override hOverride).1 hCall
  have hStands : (⟨key, value⟩ : Assignment) ∈
      standing ((before ++ call :: after).filterMap Call.assignment?) := by
    rw [List.filterMap_append, List.filterMap_cons_some hAssignment]
    refine mem_standing fun ⟨laterKey, given⟩ hMem hSame => ?_
    obtain ⟨later, hLater, hOther⟩ := List.mem_filterMap.1 hMem
    obtain rfl : laterKey = key := hSame
    have hLaterOverride := isOverride_of_assignment? hOther
    have hGiven := (given?_override hLaterOverride).2 ⟨laterKey, hOther, hKey⟩
    rw [hAfter later hLater hLaterOverride] at hGiven
    cases hGiven
  have hEffect := overrideEffect_of_isKey hKey value
  have hOverrides := overridesEffect_ne_unsettled hSettled
  have hSole : overridesEffect s (before ++ call :: after) = valueEffect value := by
    rw [← hEffect]
    refine soleEffect_eq_of_mem hOverrides (List.mem_map_of_mem hStands) ?_
    rw [hEffect]
    exact valueEffect_ne_untouched value
  rw [hSole] at hOverrides
  have hValue : valueEffect value = .set value := by
    cases value with
    | table => exact absurd rfl hOverrides
    | scalar | list => rfl
  rw [outcome, hSole, hValue]
  rfl

/-- Without an override of the key, the last layer decides that has it. -/
theorem outcome_layer (hSettled : outcome s (before ++ call :: after) ≠ .unsettled)
    (hOverrides : ∀ other ∈ before ++ call :: after, other.isOverride → other.given? s = none)
    (hCall : call.given? s = some value) (hAfter : ∀ later ∈ after, later.given? s = none) :
    outcome s (before ++ call :: after) = .set value := by
  have hLayer : call.isOverride = false := by
    rw [← Bool.not_eq_true]
    intro hOverride
    have hNone := hOverrides call (by simp) hOverride
    rw [hCall] at hNone
    cases hNone
  have hNone := overridesEffect_of_none hSettled hOverrides
  rw [outcome, hNone, Effect.andThen_untouched, layersEffect, List.map_append,
    List.map_cons] at hSettled ⊢
  have hLast := lastEffect_of_last hSettled (effect_ne_untouched hLayer hCall)
    (List.forall_mem_map.2 fun later hMem => effect_ne_set (hAfter later hMem))
  rw [hLast] at hSettled ⊢
  cases hEffect : call.effect s with
  | untouched => exact absurd hEffect (effect_ne_untouched hLayer hCall)
  | unsettled => exact absurd hEffect hSettled
  | set other => rw [Option.some.inj ((given?_of_effect hEffect).symm.trans hCall)]

/-- Where no call gives a setting anything, it is left as it is. -/
theorem outcome_standard (hSettled : outcome s calls ≠ .unsettled)
    (hCalls : ∀ call ∈ calls, call.given? s = none) : outcome s calls = .untouched := by
  have hNone := overridesEffect_of_none hSettled fun other hMem _ => hCalls other hMem
  rw [outcome, hNone, Effect.andThen_untouched] at hSettled ⊢
  cases hLayers : layersEffect s calls with
  | untouched => rfl
  | unsettled => exact absurd hLayers hSettled
  | set v =>
    refine absurd hLayers (lastEffect_ne_set (List.forall_mem_map.2 fun call hMem => ?_) v)
    exact effect_ne_set (hCalls call hMem)

/-! ## Calls that may be left out -/

/-- An assignment of a new key that leaves a setting as it is counts for nothing. -/
theorem soleEffect_standing_without {f : Assignment → Effect} {assignment : Assignment}
    {earlier later : List Assignment} (hNew : ∀ other ∈ earlier, other.key ≠ assignment.key)
    (hEffect : assignment ∈ standing (earlier ++ assignment :: later) →
      f assignment = .untouched) :
    soleEffect ((standing (earlier ++ later)).map f) =
      soleEffect ((standing (earlier ++ assignment :: later)).map f) := by
  induction earlier with
  | nil =>
    rw [List.nil_append, standing] at hEffect
    rw [List.nil_append, List.nil_append, standing]
    split
    · rfl
    · rename_i hLast
      rw [if_neg hLast] at hEffect
      rw [List.map_cons, soleEffect, hEffect List.mem_cons_self, Effect.untouched_beside]
  | cons first rest ih =>
    obtain ⟨hFirst, hNew⟩ := List.forall_mem_cons.1 hNew
    have hSame : (rest ++ assignment :: later).any (·.key = first.key) =
        (rest ++ later).any (·.key = first.key) := by
      simp [List.any_append, Ne.symm hFirst]
    rw [List.cons_append, standing, hSame] at hEffect
    rw [List.cons_append, List.cons_append, standing, standing, hSame]
    split
    · rename_i hLater
      rw [if_pos hLater] at hEffect
      exact ih hNew hEffect
    · rename_i hLater
      rw [if_neg hLater] at hEffect
      exact congrArg (Effect.beside (f first))
        (ih hNew fun hMem => hEffect (List.mem_cons_of_mem first hMem))

/-- An override that gives a setting nothing and takes no other's place. -/
theorem overridesEffect_without (hSettled : outcome s (before ++ call :: after) ≠ .unsettled)
    (hCall : call.given? s = none) (hNew : ∀ earlier ∈ before, ¬ call.Replaces earlier) :
    overridesEffect s (before ++ after) = overridesEffect s (before ++ call :: after) := by
  have hOverrides := overridesEffect_ne_unsettled hSettled
  rw [overridesEffect, List.filterMap_append] at hOverrides ⊢
  rw [overridesEffect, List.filterMap_append]
  cases hAssignment : call.assignment? with
  | none => rw [List.filterMap_cons_none hAssignment]
  | some assignment =>
    rw [List.filterMap_cons_some hAssignment] at hOverrides ⊢
    apply soleEffect_standing_without
    · intro other hMem hSame
      obtain ⟨earlier, hEarlier, hOther⟩ := List.mem_filterMap.1 hMem
      exact hNew earlier hEarlier ⟨assignment, other, hAssignment, hOther, hSame.symm⟩
    · intro hStands
      by_contra hTouched
      have hSole := soleEffect_eq_of_mem hOverrides (List.mem_map_of_mem hStands) hTouched
      rw [hSole] at hOverrides
      cases hEffect : assignment.overrideEffect s with
      | untouched => exact hTouched hEffect
      | unsettled => exact hOverrides hEffect
      | set given =>
        obtain ⟨hKey, -, -⟩ := overrideEffect_eq_set hEffect
        have hGiven := (given?_override (isOverride_of_assignment? hAssignment)).2
          ⟨_, hAssignment, hKey⟩
        rw [hCall] at hGiven
        cases hGiven

/-- A call that gives a setting nothing may be left out. -/
theorem outcome_without (hSettled : outcome s (before ++ call :: after) ≠ .unsettled)
    (hCall : call.given? s = none) (hNew : ∀ earlier ∈ before, ¬ call.Replaces earlier) :
    outcome s (before ++ after) = outcome s (before ++ call :: after) := by
  rw [outcome, outcome, overridesEffect_without hSettled hCall hNew]
  cases hOverrides : overridesEffect s (before ++ call :: after) with
  | unsettled => rfl
  | set v => rfl
  | untouched =>
    rw [outcome, hOverrides, Effect.andThen_untouched, layersEffect, List.map_append,
      List.map_cons] at hSettled
    rw [Effect.andThen_untouched, Effect.andThen_untouched, layersEffect, layersEffect,
      List.map_append, List.map_append, List.map_cons]
    exact lastEffect_without hSettled (effect_ne_set hCall)

/-- Without a call that gives a setting nothing, the setting is the same. -/
theorem get_without {settings others : Settings}
    (hSettles : Settles (before ++ call :: after) settings)
    (hSettled : outcome s (before ++ call :: after) ≠ .unsettled)
    (hCall : call.given? s = none) (hNew : ∀ earlier ∈ before, ¬ call.Replaces earlier)
    (hOthers : Settles (before ++ after) others) : s.get others = s.get settings := by
  have hSame := outcome_without hSettled hCall hNew
  cases hOutcome : outcome s (before ++ call :: after) with
  | unsettled => exact absurd hOutcome hSettled
  | untouched =>
    have hRead := (read_outcome hSettles).2 hOutcome
    have hOther := (read_outcome hOthers).2 (hSame.trans hOutcome)
    exact Except.ok.inj (hOther.symm.trans hRead)
  | set value =>
    have hRead := (read_outcome hSettles).1 value hOutcome
    have hOther := (read_outcome hOthers).1 value (hSame.trans hOutcome)
    exact Except.ok.inj (hOther.symm.trans hRead)

end

/-- An optional file that is not there changes nothing. -/
theorem runCalls_absent (before after : List Call) :
    runCalls (before ++ .optionalFile none :: after) = runCalls (before ++ after) := by
  have hAbsent (loader : Loader) :
      (Call.optionalFile none :: after).foldlM Call.apply loader =
        after.foldlM Call.apply loader := rfl
  simp only [runCalls, List.foldlM_append, hAbsent]

end Pagewright.Config
