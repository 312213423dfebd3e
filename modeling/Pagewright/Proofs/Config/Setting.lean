import Pagewright.Config.Loader
import Pagewright.Proofs.Json.Fields

/-!
# Settings by their keys

A setting has a key: the name of a group and a name in this group. What a loader
has put together is one table of groups, and `slot` is the value of a setting there.
Where the group of a setting is a table and the setting is in it, the settings that
are read off have what is read of that value.

## Main results

* `Group.field?_bind_eq_ok` — a field that is there is read.
* `read_slot` — a setting is read of its own value and of nothing else.
-/

namespace Pagewright.Config

open Json (bind_eq_ok)

/-- A setting, by what it is for. -/
inductive Setting where
  | baseUrl
  | token
  | timeoutSeconds
  | depth
  | backgroundCoverage
  | backgroundOffset
  | centeredLabelTolerance
  | rowThresholdMin
  | rowThresholdFactor
  | headingSizes
  | imageMin
  | imageMax
  | placeholderBase
  | title
  | dialect
  deriving DecidableEq, Repr, Inhabited

/-- What a setting is read as. -/
inductive Reading where
  | text (s : String)
  | float (x : Float)
  | nat64 (n : Nat)
  | nat32 (n : UInt32)
  | sizes (sizes : Design.HeadingSizes)
  | dialect (d : Page.Dialect)
  deriving DecidableEq, Repr, Inhabited

namespace Setting

/-- The name of the group of a setting. -/
def group : Setting → String
  | baseUrl | token | timeoutSeconds | depth => "figma"
  | title | dialect => "export"
  | _ => "classifier"

/-- The name of a setting in its group. -/
def name : Setting → String
  | baseUrl => "base_url"
  | token => "token"
  | timeoutSeconds => "timeout_secs"
  | depth => "depth"
  | backgroundCoverage => "background_coverage"
  | backgroundOffset => "background_offset"
  | centeredLabelTolerance => "centered_label_tolerance"
  | rowThresholdMin => "row_threshold_min"
  | rowThresholdFactor => "row_threshold_factor"
  | headingSizes => "heading_sizes"
  | imageMin => "image_min"
  | imageMax => "image_max"
  | placeholderBase => "placeholder_base"
  | title => "title"
  | dialect => "dialect"

/-- The key of a setting. -/
def key (s : Setting) : String := s.group ++ "." ++ s.name

/-- How the value of a setting is read. -/
def read (s : Setting) (value : Value) : Except ConfigError Reading :=
  match s with
  | baseUrl | token | placeholderBase | title => (readText s.key value).map .text
  | timeoutSeconds => (readNat64 s.key value).map .nat64
  | depth | imageMin | imageMax => (readNat32 s.key value).map .nat32
  | headingSizes => (readHeadingSizes s.key value).map .sizes
  | dialect => (readDialect s.key value).map .dialect
  | _ => (readFloat s.key value).map .float

/-- A setting among all settings. -/
def get (settings : Settings) : Setting → Reading
  | baseUrl => .text settings.service.baseUrl
  | token => .text settings.service.token
  | timeoutSeconds => .nat64 settings.service.timeoutSeconds
  | depth => .nat32 settings.service.depth
  | backgroundCoverage => .float settings.thresholds.backgroundCoverage
  | backgroundOffset => .float settings.thresholds.backgroundOffset
  | centeredLabelTolerance => .float settings.thresholds.centeredLabelTolerance
  | rowThresholdMin => .float settings.thresholds.rowThresholdMin
  | rowThresholdFactor => .float settings.thresholds.rowThresholdFactor
  | headingSizes => .sizes settings.thresholds.headingSizes
  | imageMin => .nat32 settings.thresholds.imageMin
  | imageMax => .nat32 settings.thresholds.imageMax
  | placeholderBase => .text settings.thresholds.placeholderBase
  | title => .text settings.page.title
  | dialect => .dialect settings.page.dialect

end Setting

/-! ## Values of settings -/

/-- The value at a name of a table; nothing else has any. -/
def inside (name : String) : Value → Option Value
  | .table _ entries => entryAt name entries
  | _ => none

/-- The value of a setting, if its group is a table that has it. -/
def slot (s : Setting) (root : Value) : Option Value :=
  (entryAt s.group root.entries).bind (inside s.name)

/-- The value that a setting has without any layer. -/
def Setting.standard (s : Setting) : Value := (slot s defaults).getD .missing

/-- Every setting has a value without any layer. -/
theorem slot_defaults (s : Setting) : slot s defaults = some s.standard := by
  cases s <;> rfl

theorem inside_eq_some {name : String} {group value : Value} (h : inside name group = some value) :
    ∃ origin entries, group = .table origin entries ∧ entryAt name entries = some value := by
  cases group with
  | scalar => cases h
  | list => cases h
  | table origin entries => exact ⟨origin, entries, rfl, h⟩

/-! ## Reading settings -/

section

variable {α : Type} {key shape name : String} {entries : Entries} {place : Nat} {read : Reader α}
  {value : Value} {absent result : α}

/-- A field that is there is read, whatever is done where it is not. -/
theorem Group.field?_bind_eq_ok {next : Option α → Except ConfigError α}
    (hRead : (Group.named key entries).field? place name read >>= next = .ok result)
    (hNext : ∀ x, next (some x) = .ok x) (hEntry : entryAt name entries = some value) :
    read (key ++ "." ++ name) value = .ok result := by
  simp only [Group.field?, hEntry] at hRead
  cases hValue : read (key ++ "." ++ name) value with
  | error cause =>
    rw [hValue] at hRead
    cases hRead
  | ok x =>
    rw [hValue] at hRead
    exact (hNext x).symm.trans hRead

theorem Group.required_eq_ok
    (hRead : (Group.named key entries).required shape place name read = .ok result)
    (hEntry : entryAt name entries = some value) :
    read (key ++ "." ++ name) value = .ok result :=
  Group.field?_bind_eq_ok hRead (fun _ => rfl) hEntry

theorem Group.optional_eq_ok
    (hRead : (Group.named key entries).optional place name read absent = .ok result)
    (hEntry : entryAt name entries = some value) :
    read (key ++ "." ++ name) value = .ok result :=
  Group.field?_bind_eq_ok hRead (fun _ => rfl) hEntry

end

/-! The groups are read field by field. -/

theorem readService_eq_ok {key : String} {origin : Origin} {entries : Entries} {service : Service}
    (hRead : readService key (.table origin entries) = .ok service) :
    ∃ shape, let group := Group.named key entries
      group.required shape 0 "base_url" readText = .ok service.baseUrl ∧
      group.required shape 1 "token" readText = .ok service.token ∧
      group.required shape 2 "timeout_secs" readNat64 = .ok service.timeoutSeconds ∧
      group.required shape 3 "depth" readNat32 = .ok service.depth := by
  obtain ⟨group, hGroup, hRead⟩ := bind_eq_ok.1 hRead
  obtain rfl : Group.named key entries = group := Except.ok.inj hGroup
  obtain ⟨baseUrl, hBaseUrl, hRead⟩ := bind_eq_ok.1 hRead
  obtain ⟨token, hToken, hRead⟩ := bind_eq_ok.1 hRead
  obtain ⟨timeoutSeconds, hTimeout, hRead⟩ := bind_eq_ok.1 hRead
  obtain ⟨depth, hDepth, hRead⟩ := bind_eq_ok.1 hRead
  obtain rfl := Except.ok.inj hRead
  exact ⟨_, hBaseUrl, hToken, hTimeout, hDepth⟩

theorem readThresholds_eq_ok {key : String} {origin : Origin} {entries : Entries}
    {thresholds : Design.Thresholds}
    (hRead : readThresholds key (.table origin entries) = .ok thresholds) :
    ∃ base : Design.Thresholds, let group := Group.named key entries
      group.optional 0 "background_coverage" readFloat base.backgroundCoverage =
        .ok thresholds.backgroundCoverage ∧
      group.optional 1 "background_offset" readFloat base.backgroundOffset =
        .ok thresholds.backgroundOffset ∧
      group.optional 2 "centered_label_tolerance" readFloat base.centeredLabelTolerance =
        .ok thresholds.centeredLabelTolerance ∧
      group.optional 3 "row_threshold_min" readFloat base.rowThresholdMin =
        .ok thresholds.rowThresholdMin ∧
      group.optional 4 "row_threshold_factor" readFloat base.rowThresholdFactor =
        .ok thresholds.rowThresholdFactor ∧
      group.optional 5 "heading_sizes" readHeadingSizes base.headingSizes =
        .ok thresholds.headingSizes ∧
      group.optional 6 "image_min" readNat32 base.imageMin = .ok thresholds.imageMin ∧
      group.optional 7 "image_max" readNat32 base.imageMax = .ok thresholds.imageMax ∧
      group.optional 8 "placeholder_base" readText base.placeholderBase =
        .ok thresholds.placeholderBase := by
  obtain ⟨group, hGroup, hRead⟩ := bind_eq_ok.1 hRead
  obtain rfl : Group.named key entries = group := Except.ok.inj hGroup
  obtain ⟨_, hCoverage, hRead⟩ := bind_eq_ok.1 hRead
  obtain ⟨_, hOffset, hRead⟩ := bind_eq_ok.1 hRead
  obtain ⟨_, hTolerance, hRead⟩ := bind_eq_ok.1 hRead
  obtain ⟨_, hMin, hRead⟩ := bind_eq_ok.1 hRead
  obtain ⟨_, hFactor, hRead⟩ := bind_eq_ok.1 hRead
  obtain ⟨_, hSizes, hRead⟩ := bind_eq_ok.1 hRead
  obtain ⟨_, hImageMin, hRead⟩ := bind_eq_ok.1 hRead
  obtain ⟨_, hImageMax, hRead⟩ := bind_eq_ok.1 hRead
  obtain ⟨_, hBase, hRead⟩ := bind_eq_ok.1 hRead
  obtain rfl := Except.ok.inj hRead
  exact ⟨_, hCoverage, hOffset, hTolerance, hMin, hFactor, hSizes, hImageMin, hImageMax, hBase⟩

theorem readPageDefaults_eq_ok {key : String} {origin : Origin} {entries : Entries}
    {page : PageDefaults} (hRead : readPageDefaults key (.table origin entries) = .ok page) :
    ∃ shape, let group := Group.named key entries
      group.required shape 0 "title" readText = .ok page.title ∧
      group.required shape 1 "dialect" readDialect = .ok page.dialect := by
  obtain ⟨group, hGroup, hRead⟩ := bind_eq_ok.1 hRead
  obtain rfl : Group.named key entries = group := Except.ok.inj hGroup
  obtain ⟨title, hTitle, hRead⟩ := bind_eq_ok.1 hRead
  obtain ⟨dialect, hDialect, hRead⟩ := bind_eq_ok.1 hRead
  obtain rfl := Except.ok.inj hRead
  exact ⟨_, hTitle, hDialect⟩

theorem rootGroup_eq_ok {root group : Value} {name : String}
    (hGroup : rootGroup root name = .ok group) : entryAt name root.entries = some group := by
  unfold rootGroup at hGroup
  split at hGroup
  · rename_i value hEntry
    exact hEntry.trans (congrArg some (Except.ok.inj hGroup))
  · cases hGroup

theorem readSettings_eq_ok {root : Value} {settings : Settings}
    (hRead : readSettings root = .ok settings) :
    ∃ service thresholds page,
      entryAt "figma" root.entries = some service ∧
        readService "figma" service = .ok settings.service ∧
      entryAt "classifier" root.entries = some thresholds ∧
        readThresholds "classifier" thresholds = .ok settings.thresholds ∧
      entryAt "export" root.entries = some page ∧
        readPageDefaults "export" page = .ok settings.page := by
  obtain ⟨service, hService, hRead⟩ := bind_eq_ok.1 hRead
  obtain ⟨_, hReadService, hRead⟩ := bind_eq_ok.1 hRead
  obtain ⟨thresholds, hThresholds, hRead⟩ := bind_eq_ok.1 hRead
  obtain ⟨_, hReadThresholds, hRead⟩ := bind_eq_ok.1 hRead
  obtain ⟨page, hPage, hRead⟩ := bind_eq_ok.1 hRead
  obtain ⟨_, hReadPage, hRead⟩ := bind_eq_ok.1 hRead
  obtain rfl := Except.ok.inj hRead
  exact ⟨service, thresholds, page, rootGroup_eq_ok hService, hReadService,
    rootGroup_eq_ok hThresholds, hReadThresholds, rootGroup_eq_ok hPage, hReadPage⟩

theorem map_eq_ok {α β : Type} {f : α → β} {reading : Except ConfigError α} {x : α}
    (h : reading = .ok x) : reading.map f = .ok (f x) := by
  rw [h]
  rfl

/-- A setting is read of its own value. -/
theorem read_slot {root : Value} {settings : Settings} (hRead : readSettings root = .ok settings)
    {s : Setting} {value : Value} (hSlot : slot s root = some value) :
    s.read value = .ok (s.get settings) := by
  obtain ⟨service, thresholds, page, hServiceAt, hService, hThresholdsAt, hThresholds, hPageAt,
    hPage⟩ := readSettings_eq_ok hRead
  obtain ⟨group, hGroup, hInside⟩ := Option.bind_eq_some_iff.1 hSlot
  obtain ⟨origin, entries, rfl, hEntry⟩ := inside_eq_some hInside
  cases s with
  | baseUrl | token | timeoutSeconds | depth =>
    obtain rfl : service = .table origin entries :=
      Option.some.inj (hServiceAt.symm.trans hGroup)
    obtain ⟨shape, hBaseUrl, hToken, hTimeout, hDepth⟩ := readService_eq_ok hService
    first
      | exact map_eq_ok (Group.required_eq_ok hBaseUrl hEntry)
      | exact map_eq_ok (Group.required_eq_ok hToken hEntry)
      | exact map_eq_ok (Group.required_eq_ok hTimeout hEntry)
      | exact map_eq_ok (Group.required_eq_ok hDepth hEntry)
  | title | dialect =>
    obtain rfl : page = .table origin entries := Option.some.inj (hPageAt.symm.trans hGroup)
    obtain ⟨shape, hTitle, hDialect⟩ := readPageDefaults_eq_ok hPage
    first
      | exact map_eq_ok (Group.required_eq_ok hTitle hEntry)
      | exact map_eq_ok (Group.required_eq_ok hDialect hEntry)
  | backgroundCoverage | backgroundOffset | centeredLabelTolerance | rowThresholdMin
  | rowThresholdFactor | headingSizes | imageMin | imageMax | placeholderBase =>
    obtain rfl : thresholds = .table origin entries :=
      Option.some.inj (hThresholdsAt.symm.trans hGroup)
    obtain ⟨base, hCoverage, hOffset, hTolerance, hMin, hFactor, hSizes, hImageMin, hImageMax,
      hBase⟩ := readThresholds_eq_ok hThresholds
    first
      | exact map_eq_ok (Group.optional_eq_ok hCoverage hEntry)
      | exact map_eq_ok (Group.optional_eq_ok hOffset hEntry)
      | exact map_eq_ok (Group.optional_eq_ok hTolerance hEntry)
      | exact map_eq_ok (Group.optional_eq_ok hMin hEntry)
      | exact map_eq_ok (Group.optional_eq_ok hFactor hEntry)
      | exact map_eq_ok (Group.optional_eq_ok hSizes hEntry)
      | exact map_eq_ok (Group.optional_eq_ok hImageMin hEntry)
      | exact map_eq_ok (Group.optional_eq_ok hImageMax hEntry)
      | exact map_eq_ok (Group.optional_eq_ok hBase hEntry)

end Pagewright.Config
