import Pagewright.Command.Arguments
import Pagewright.Config.Loader
import Pagewright.Format.Registry
import Pagewright.Import.Endpoint
import Pagewright.Import.Frame
import Pagewright.Import.Response
import Pagewright.Layout.Census

/-!
# Running commands

A run settles the configuration, does what the action asks, and puts the
answer where the options say. Settings come from the defaults, the local file,
the file of the options, the environment and the options themselves, the later
over the earlier.

A run reads and writes files, reads the standard input and asks the design
service. All of it goes through an `Access`, so that a run is a function of
what its accesses answer; a failed one answers with the reason.
-/

namespace Pagewright.Command

open Config (Settings)

/-! ## Accesses -/

/-- A question to the design service. -/
structure Request where
  url : String
  nodeId : String
  depth : Nat
  token : String
  timeoutSeconds : Nat
  deriving DecidableEq, Repr

/-- The ways in and out of a run. -/
structure Access (m : Type → Type) where
  read : String → m (Except String String)
  input : m (Except String String)
  write : String → String → m (Except String Unit)
  fetch : Request → m (Except Import.ImportError Json)

/-! ## Outcomes -/

/-- The variables of the environment by name. -/
abbrev Environment := List (String × String)

/-- How a run ends: its exit code, its standard output, and what went wrong. -/
structure Outcome where
  code : UInt32
  output : String
  error : Option String
  deriving DecidableEq, Repr, Inhabited

/-- A run that may fail with a message. -/
abbrev Attempt (m : Type → Type) := ExceptT String m

variable {m : Type → Type} [Monad m]

/-! ## Configuration -/

/-- The settings file that is read where it is found. -/
def localConfig : String := "blueprint.toml"

/-- A settings file by its name, which may leave the ending out. -/
def findConfig (access : Access m) (name : String) : m (Option (String × String)) := do
  match ← access.read name with
  | .ok content => pure (some (name, content))
  | .error _ =>
    match ← access.read (name ++ ".toml") with
    | .ok content => pure (some (name ++ ".toml", content))
    | .error _ => pure none

/-- The options that override settings, with the keys of those. -/
def overridingSwitches : List (Switch × String) :=
  [(.token, "figma.token"), (.dialect, "export.dialect"), (.title, "export.title")]

/-- The value of a variable. -/
def settingOf? (environment : Environment) (name : String) : Option String :=
  (environment.find? (·.1 = name)).map (·.2)

/-- The value of an option; the token may come from the environment. -/
def optionValue? (environment : Environment) (invocation : Invocation) (switch : Switch) :
    Option String :=
  invocation.value? switch <|>
    if switch = .token ∧ invocation.action = .import_ then settingOf? environment "FIGMA_TOKEN"
    else none

/-- The loader with the option of an invocation as an override, if it is given. -/
def overrideWith (environment : Environment) (invocation : Invocation) (loader : Config.Loader)
    (entry : Switch × String) : Except Config.ConfigError Config.Loader :=
  match optionValue? environment invocation entry.1 with
  | some value => loader.setOverride entry.2 (.scalar none (.text value))
  | none => .ok loader

/-- The loader of the local file, the file of the options, and the environment. -/
def layeredLoader (access : Access m) (environment : Environment) (invocation : Invocation) :
    m Config.Loader := do
  let loader := Config.Loader.new.withOptionalFile (← findConfig access localConfig)
  let loader ← match invocation.value? .config with
    | some name => do pure (loader.withFile name (← findConfig access name))
    | none => pure loader
  pure (loader.withEnvironment environment)

/-- The settings of a run. -/
def loadSettings (access : Access m) (environment : Environment) (invocation : Invocation) :
    m (Except Config.ConfigError Settings) := do
  let loader ← layeredLoader access environment invocation
  pure do
    let loader ← overridingSwitches.foldlM (overrideWith environment invocation) loader
    loader.build

/-! ## Layouts -/

/-- Turns an access that answers with a reason into an attempt. -/
def attempt {α ε : Type} (describe : ε → String) (action : m (Except ε α)) : Attempt m α :=
  ExceptT.mk do pure ((← action).mapError describe)

/-- The text that holds the layout. -/
def layoutText (access : Access m) (path : String) : Attempt m String :=
  if path = "-" then attempt ("Failed to read stdin: " ++ ·) access.input
  else attempt (fun reason => "Failed to read " ++ path ++ ": " ++ reason) (access.read path)

/-- What is wrong with a text that is no layout. -/
def layoutComplaint : Layout.ReadError → String
  | .shape cause => cause.message
  | .text cause => Import.textReason cause

/-- The layout of a text; a blank text and `null` mean that there is none. -/
def layoutOf (path source : String) : Except String (Option Layout.Node) :=
  let text := Text.trimmed source
  if text = "" ∨ text = "null" then .ok none
  else match Layout.parse text with
    | .ok layout => .ok (some layout)
    | .error cause =>
      .error ("Invalid layout JSON in " ++ path ++ ": " ++ layoutComplaint cause)

/-- The layout that an action works on. -/
def readLayout (access : Access m) (path : String) : Attempt m (Option Layout.Node) := do
  let source ← layoutText access path
  attempt id (pure (layoutOf path source))

/-! ## Actions -/

/-- A failed classification. -/
def classifyFailed (cause : Import.ImportError) : String :=
  "Classification failed: " ++ cause.message

/-- A failed import. -/
def importFailed (cause : Import.ImportError) : String := "Import failed: " ++ cause.message

/-- The layout of a saved design. -/
def runClassify (access : Access m) (settings : Settings) (path nodeId : String) :
    Attempt m String := do
  let text ← attempt (fun reason => classifyFailed (.unreadable path reason))
    (access.read path)
  let nodeId := String.ofList (Text.replaceChar '-' ':' nodeId.toList)
  attempt classifyFailed do
    pure do
      let document ← Import.documentOfFile nodeId text
      let layout ← Import.importFrame settings.thresholds document
      pure (Layout.render layout)

/-- The request for the node of a design URL. -/
def requestOf (settings : Settings) (endpoint : Import.Endpoint)
    (reference : Import.Reference) : Request where
  url := String.ofList (endpoint.nodesUrl reference.fileKey).text
  nodeId := reference.nodeId
  depth := settings.service.depth.toNat
  token := settings.service.token
  timeoutSeconds := settings.service.timeoutSeconds

/-- The layout of a design that the service holds. -/
def runImport (access : Access m) (settings : Settings) (url : String) : Attempt m String := do
  let endpoint ← attempt Import.ImportError.message
    (pure (Import.Endpoint.ofSettings settings.service.baseUrl settings.service.token))
  let reference ← attempt importFailed (pure (Import.Reference.parse url))
  let payload ← attempt importFailed (access.fetch (requestOf settings endpoint reference))
  attempt importFailed do
    pure do
      let document ← Import.document payload reference.nodeId
      let layout ← Import.importFrame settings.thresholds document
      pure (Layout.render layout)

/-- The preview of a layout; where there is none, of an empty section. -/
def runHtml (access : Access m) (path : String) : Attempt m String := do
  let layout ← readLayout access path
  attempt (fun cause : FormatError => "HTML rendering failed: " ++ cause.message)
    (pure (Registry.defaults.serialize (layout.getD (.section none [])) "html"))

/-- The page-builder document of a layout. -/
def runExport (access : Access m) (settings : Settings) (path : String) : Attempt m String := do
  let layout ← readLayout access path
  let document := Page.exportLayout layout settings.page.title settings.page.dialect
  pure (Json.pretty document.toJson)

/-- The report on a layout. -/
def runDiagnose (access : Access m) (path : String) : Attempt m String := do
  let layout ← readLayout access path
  pure (Json.pretty (Layout.report layout).toJson)

/-- What a format can do. -/
def formatModes (format : Format) : List String :=
  (if format.reads?.isSome then ["parse"] else []) ++
    (if format.writes?.isSome then ["serialize"] else [])

/-- The entry of a format in the list of formats. -/
def formatEntry (format : Format) : String :=
  "\n  " ++ format.name ++ " [" ++ String.intercalate ", " (formatModes format) ++ "]\n    "
    ++ format.description ++ "\n"

/-- The list of formats. -/
def formatList (registry : Registry) : String :=
  "Available formats:\n" ++ String.join (registry.formats.map formatEntry)

/-- The answer of an action. -/
def perform (access : Access m) (settings : Settings) (invocation : Invocation) :
    Attempt m String :=
  match invocation.action with
  | .import_ => runImport access settings invocation.subject
  | .classify =>
    runClassify access settings invocation.subject ((invocation.value? .nodeId).getD "")
  | .html => runHtml access invocation.subject
  | .export_ => runExport access settings invocation.subject
  | .diagnose => runDiagnose access invocation.subject
  | .formats => pure (formatList Registry.defaults)

/-! ## Whole runs -/

/-- Puts an answer into a file, or on the standard output with a line end behind it. -/
def deliver (access : Access m) (target : Option String) (answer : String) :
    Attempt m String :=
  match target with
  | some path => do
    attempt (fun reason => "failed to write " ++ path ++ ": " ++ reason)
      (access.write path answer)
    pure ""
  | none => pure (answer ++ "\n")

/-- Carries out an invocation and gives what appears on the standard output. -/
def execute (access : Access m) (environment : Environment) (invocation : Invocation) :
    Attempt m String := do
  let settings ← attempt (fun cause : Config.ConfigError =>
      "Configuration error: " ++ cause.message)
    (loadSettings access environment invocation)
  let answer ← perform access settings invocation
  deliver access (invocation.value? .output) answer

/-- What the program calls itself. -/
def versionText : String := "blueprint 0.1.0"

/-- How to use the program. -/
def usageText : String :=
  "Usage: blueprint [OPTIONS] <COMMAND>\n\nCommands:\n"
    ++ String.join (Action.all.map fun action => "  " ++ action.name ++ "\n")

/-- Runs the program on the words of a command line. -/
def run (access : Access m) (environment : Environment) (words : List String) : m Outcome := do
  match parseArguments words with
  | .error .version => pure ⟨0, versionText ++ "\n", none⟩
  | .error .help => pure ⟨0, usageText, none⟩
  | .error .wrong => pure ⟨2, "", none⟩
  | .ok invocation =>
    match ← (execute access environment invocation).run with
    | .ok output => pure ⟨0, output, none⟩
    | .error message => pure ⟨1, "", some ("Error: " ++ message ++ "\n")⟩

end Pagewright.Command
