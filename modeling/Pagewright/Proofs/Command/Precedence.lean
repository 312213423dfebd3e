import Pagewright.Command.Run
import Pagewright.Proofs.Config.Calls

/-!
# Precedence of settings

A run puts its loader together by calls: the local file, the file of the options, the
environment, and the options that override settings. The settings of a run are what these
calls come to, and each of them takes precedence over those before it. The order of the
keys in a layer and that of the overrides is not part of a call, and nothing depends on it.

## Main results

* `loadSettings_eq` — a run settles the calls of its command line.
* `settings_last_write` — a setting is read of the last value given to it.
-/

namespace Pagewright.Command

open Config

variable {m : Type → Type} [Monad m]

/-! ## The calls of a run -/

/-- The settings file of the options by its name, with what is found under it. -/
def namedConfig (access : Access m) (invocation : Invocation) :
    m (Option (String × Option (String × String))) :=
  match invocation.value? .config with
  | some name => do pure (some (name, ← findConfig access name))
  | none => pure none

/-- The call for an option that overrides a setting, if it is given. -/
def overrideCall? (environment : Environment) (invocation : Invocation)
    (entry : Switch × String) : Option Call :=
  (optionValue? environment invocation entry.1).map fun value =>
    .override entry.2 (.scalar none (.text value))

/-- The calls of a run below its overrides. -/
def layerCalls (localFile : Option (String × String))
    (named : Option (String × Option (String × String))) (environment : Environment) : List Call :=
  .optionalFile localFile :: (named.map fun (name, found) => Call.file name found).toList ++
    [.environment environment]

/-- The calls of a run. -/
def settingsCalls (localFile : Option (String × String))
    (named : Option (String × Option (String × String))) (environment : Environment)
    (invocation : Invocation) : List Call :=
  layerCalls localFile named environment ++
    overridingSwitches.filterMap (overrideCall? environment invocation)

/-- The options are overrides, made one after the other. -/
theorem foldlM_overrideWith (environment : Environment) (invocation : Invocation)
    (entries : List (Switch × String)) (loader : Loader) :
    entries.foldlM (overrideWith environment invocation) loader =
      (entries.filterMap (overrideCall? environment invocation)).foldlM Call.apply loader := by
  induction entries generalizing loader with
  | nil => rfl
  | cons entry rest ih =>
    rw [List.foldlM_cons, overrideWith]
    cases hValue : optionValue? environment invocation entry.1 with
    | none =>
      have hCall : overrideCall? environment invocation entry = none := by
        rw [overrideCall?, hValue, Option.map_none]
      rw [List.filterMap_cons_none hCall]
      exact ih loader
    | some value =>
      have hCall : overrideCall? environment invocation entry =
          some (.override entry.2 (.scalar none (.text value))) := by
        rw [overrideCall?, hValue, Option.map_some]
      rw [List.filterMap_cons_some hCall, List.foldlM_cons]
      exact congrArg _ (funext ih)

theorem settle_settingsCalls (localFile : Option (String × String))
    (named : Option (String × Option (String × String))) (environment : Environment)
    (invocation : Invocation) (loader : Loader)
    (hLayers : (layerCalls localFile named environment).foldlM Call.apply .new = .ok loader) :
    settle (settingsCalls localFile named environment invocation) =
      overridingSwitches.foldlM (overrideWith environment invocation) loader >>= Loader.build := by
  rw [settle, runCalls, settingsCalls, List.foldlM_append, hLayers, foldlM_overrideWith]
  rfl

/-- A run settles the calls of its command line. -/
theorem loadSettings_eq [LawfulMonad m] (access : Access m) (environment : Environment)
    (invocation : Invocation) :
    loadSettings access environment invocation = (do
      let localFile ← findConfig access localConfig
      let named ← namedConfig access invocation
      pure (settle (settingsCalls localFile named environment invocation))) := by
  simp only [loadSettings, layeredLoader, namedConfig, bind_assoc]
  congr 1
  funext localFile
  cases invocation.value? .config with
  | none =>
    simp only [pure_bind]
    rw [settle_settingsCalls localFile none environment invocation _ rfl]
  | some name =>
    simp only [bind_assoc, pure_bind]
    congr 1
    funext found
    rw [settle_settingsCalls localFile (some (name, found)) environment invocation _ rfl]

/-- The layers of a run come before its overrides. -/
theorem pairwise_settingsCalls (localFile : Option (String × String))
    (named : Option (String × Option (String × String))) (environment : Environment)
    (invocation : Invocation) :
    (settingsCalls localFile named environment invocation).Pairwise
      fun earlier later => earlier.isOverride → later.isOverride := by
  have hLayers : ∀ call ∈ layerCalls localFile named environment, call.isOverride = false := by
    intro call hMem
    rcases List.mem_append.1 hMem with hMem | hMem
    · rcases List.mem_cons.1 hMem with rfl | hMem
      · rfl
      · obtain ⟨⟨name, found⟩, -, rfl⟩ := Option.map_eq_some_iff.1 (Option.mem_toList.1 hMem)
        rfl
    · rw [List.mem_singleton.1 hMem]
      rfl
  have hOverrides : ∀ call ∈ overridingSwitches.filterMap (overrideCall? environment invocation),
      call.isOverride := by
    intro call hMem
    obtain ⟨entry, -, hCall⟩ := List.mem_filterMap.1 hMem
    obtain ⟨value, -, rfl⟩ := Option.map_eq_some_iff.1 hCall
    rfl
  have hNever {call : Call} (hMem : call ∈ layerCalls localFile named environment)
      (hOverride : call.isOverride) : False := by
    rw [hLayers call hMem] at hOverride
    cases hOverride
  refine List.pairwise_append.2 ⟨?_, ?_, ?_⟩
  · exact List.pairwise_iff_forall_sublist.2 fun hSublist hOverride =>
      (hNever (hSublist.subset List.mem_cons_self) hOverride).elim
  · exact List.pairwise_iff_forall_sublist.2 fun hSublist _ =>
      hOverrides _ (hSublist.subset (List.mem_cons_of_mem _ List.mem_cons_self))
  · exact fun earlier hMem later _ hOverride => (hNever hMem hOverride).elim

/-- Of the calls of a run, the last that gives a setting a value decides. -/
theorem outcome_settingsCalls {s : Setting} {localFile : Option (String × String)}
    {named : Option (String × Option (String × String))} {environment : Environment}
    {invocation : Invocation} {before after : List Call} {call : Call} {value : Value}
    (hCalls : settingsCalls localFile named environment invocation = before ++ call :: after)
    (hSettled : outcome s (before ++ call :: after) ≠ .unsettled)
    (hCall : call.given? s = some value) (hAfter : ∀ later ∈ after, later.given? s = none) :
    outcome s (before ++ call :: after) = .set value := by
  cases hOverride : call.isOverride with
  | true => exact outcome_override hSettled hOverride hCall fun later hMem _ => hAfter later hMem
  | false =>
    have hOrder := pairwise_settingsCalls localFile named environment invocation
    rw [hCalls] at hOrder
    refine outcome_layer hSettled (fun other hMem hOther => ?_) hCall hAfter
    rcases List.mem_append.1 hMem with hMem | hMem
    · have hLater := (List.pairwise_append.1 hOrder).2.2 other hMem call List.mem_cons_self hOther
      rw [hOverride] at hLater
      cases hLater
    · rcases List.mem_cons.1 hMem with rfl | hMem
      · rw [hOverride] at hOther
        cases hOther
      · exact hAfter other hMem

/-! ## Last writes -/

/-- Settings that are there, for what is in them. -/
theorem exists_settled {α : Type} {calls : List Call} {f : Settings → α} {x : α}
    (h : (settle calls).toOption.map f = some x) :
    ∃ settings, settle calls = .ok settings ∧ f settings = x := by
  cases hSettle : settle calls with
  | error cause => rw [hSettle] at h; cases h
  | ok settings =>
    rw [hSettle] at h
    exact ⟨settings, rfl, Option.some.inj h⟩

/-- Of calls whose settings are built, a setting is read of the value of the last override
of its key, wherever this is called. Without one it is read of what the last layer gives it
that has the key, or else of its default. A call that gives it nothing does not change it,
unless it is an override that takes the place of an earlier one. This is so where what
touches the setting last is one value for its key, and not another thing in the place of its
group, a part of its value, or one of two keys of a layer or of two overrides that touch it.
The order in which the keys of each layer and the overrides are applied does not matter.

An optional file that is not there changes nothing. The calls of a run are those for the
local file, the file of the options, the environment, and the options that are overrides;
of these the last that gives the setting a value counts. -/
theorem settings_last_write {calls : List Call} {settings : Settings}
    (hSettles : Settles calls settings) (s : Setting) [LawfulMonad m] (access : Access m)
    (environment : Environment) (invocation : Invocation) :
    (outcome s calls ≠ .unsettled →
      (∀ before call after value, calls = before ++ call :: after →
        call.isOverride → call.given? s = some value →
        (∀ later ∈ after, later.isOverride → later.given? s = none) →
        s.read value = .ok (s.get settings)) ∧
      ((∀ call ∈ calls, call.isOverride → call.given? s = none) →
        ∀ before call after value, calls = before ++ call :: after →
        call.given? s = some value → (∀ later ∈ after, later.given? s = none) →
        s.read value = .ok (s.get settings)) ∧
      ((∀ call ∈ calls, call.given? s = none) → s.read s.standard = .ok (s.get settings)) ∧
      (∀ before call after others, calls = before ++ call :: after → call.given? s = none →
        (∀ earlier ∈ before, ¬ call.Replaces earlier) → Settles (before ++ after) others →
        s.get others = s.get settings)) ∧
    (∀ before after, calls = before ++ .optionalFile none :: after →
      Settles (before ++ after) settings) ∧
    loadSettings access environment invocation = (do
      let localFile ← findConfig access localConfig
      let named ← namedConfig access invocation
      pure (settle (settingsCalls localFile named environment invocation))) ∧
    (∀ localFile named, calls = settingsCalls localFile named environment invocation →
      outcome s calls ≠ .unsettled →
      ∀ before call after value, calls = before ++ call :: after →
      call.given? s = some value → (∀ later ∈ after, later.given? s = none) →
      s.read value = .ok (s.get settings)) := by
  refine ⟨fun hSettled => ⟨?_, ?_, ?_, ?_⟩, ?_, loadSettings_eq access environment invocation, ?_⟩
  · rintro before call after value rfl hOverride hCall hAfter
    exact (read_outcome hSettles).1 value (outcome_override hSettled hOverride hCall hAfter)
  · rintro hOverrides before call after value rfl hCall hAfter
    exact (read_outcome hSettles).1 value (outcome_layer hSettled hOverrides hCall hAfter)
  · intro hCalls
    exact (read_outcome hSettles).2 (outcome_standard hSettled hCalls)
  · rintro before call after others rfl hCall hNew hOthers
    exact get_without hSettles hSettled hCall hNew hOthers
  · rintro before after rfl
    obtain ⟨loader, other, hRun, hBuild⟩ := hSettles
    exact ⟨loader, other, (runCalls_absent before after).symm.trans hRun, hBuild⟩
  · rintro localFile named hCalls hSettled before call after value rfl hCall hAfter
    exact (read_outcome hSettles).1 value
      (outcome_settingsCalls hCalls.symm hSettled hCall hAfter)

/-- Nothing is found, and nothing can be written. -/
def noAccess : Access Id where
  read _ := .error "none"
  input := .error "none"
  write _ _ := .error "none"
  fetch _ := .error .missingToken

/-- An override of the title, called before a file with another one, and a depth. -/
def titleCalls : List Call :=
  [.override "export.title" (.scalar none (.text "flag")),
    .file "site.toml" (some ("site.toml", "[export]\ntitle = \"file\"\n")),
    .optionalFile none,
    .environment [("BLUEPRINT__FIGMA__DEPTH", "4")]]

theorem settings_last_write_titleCalls :
    ∃ settings, Settles titleCalls settings ∧ settings.page.title = "flag" ∧
      settings.service.depth = 4 := by
  obtain ⟨settings, hSettle, -⟩ : ∃ settings, settle titleCalls = .ok settings ∧ () = () :=
    exists_settled (by decide +kernel)
  have hSettles := settles_of_settle hSettle
  have hLast (s : Setting) := (settings_last_write hSettles s noAccess [] ⟨.formats, "", []⟩).1
  obtain ⟨hOverride, -⟩ := hLast .title (by decide +kernel)
  obtain ⟨-, hLayer, -⟩ := hLast .depth (by decide +kernel)
  obtain ⟨depth, hDepth, hReadDepth⟩ : ∃ value,
      Call.given? .depth (.environment [("BLUEPRINT__FIGMA__DEPTH", "4")]) = some value ∧
        (Setting.depth.read value).toOption = some (.nat32 4) :=
    Option.map_eq_some_iff.1 (by decide +kernel)
  refine ⟨settings, hSettles, ?_, ?_⟩
  · have hRead := hOverride [] _ _ _ rfl rfl rfl (by decide +kernel)
    exact (Reading.text.inj (Except.ok.inj hRead)).symm
  · have hRead := hLayer (by decide +kernel) (titleCalls.take 3) _ [] depth rfl hDepth nofun
    rw [hRead] at hReadDepth
    exact Reading.nat32.inj (Option.some.inj hReadDepth)

/-- A size in a file, a number in the place of its group, and the group with another size. -/
def replacedGroup : List Call :=
  [.file "a.toml" (some ("a.toml", "[classifier]\nimage_min = 100")),
    .file "b.toml" (some ("b.toml", "classifier = 5")),
    .file "c.toml" (some ("c.toml", "[classifier]\nimage_max = 900"))]

/-- Where the group of a setting is replaced, the last layer does not decide that gives it
a value. -/
theorem last_layer_replaced :
    ¬ ∀ (calls : List Call) (settings : Settings) (s : Setting), Settles calls settings →
      (∀ call ∈ calls, call.isOverride → call.given? s = none) →
      ∀ before call after value, calls = before ++ call :: after →
      call.given? s = some value → (∀ later ∈ after, later.given? s = none) →
      s.read value = .ok (s.get settings) := by
  intro hAll
  obtain ⟨settings, hSettle, hGet⟩ : ∃ settings, settle replacedGroup = .ok settings ∧
      Setting.get settings .imageMin = .nat32 80 := exists_settled (by decide +kernel)
  obtain ⟨size, hSize, hReadSize⟩ : ∃ value,
      Call.given? .imageMin (.file "a.toml" (some ("a.toml", "[classifier]\nimage_min = 100"))) =
        some value ∧ (Setting.imageMin.read value).toOption = some (.nat32 100) :=
    Option.map_eq_some_iff.1 (by decide +kernel)
  have hRead := hAll replacedGroup settings .imageMin (settles_of_settle hSettle)
    (by decide +kernel) [] _ _ size rfl hSize (by decide +kernel)
  rw [hRead, hGet] at hReadSize
  cases hReadSize

end Pagewright.Command
