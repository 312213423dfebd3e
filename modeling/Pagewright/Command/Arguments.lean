import Pagewright.Text.Search

/-!
# Command-line arguments

A command line names an action, its argument and options. Options come in a
long and perhaps a short spelling; their values stand in the next word or
behind the spelling. Words are read from left to right, and the first one that
does not fit decides.

Options for all actions may stand on both sides of the action. The same option
must not be given twice on one side, and the value behind the action counts.
-/

namespace Pagewright.Command

/-! ## Actions and options -/

/-- What the program can be asked to do. -/
inductive Action where
  | import_
  | classify
  | html
  | export_
  | diagnose
  | formats
  deriving DecidableEq, Repr

/-- An option of the command line. -/
inductive Switch where
  | config
  | output
  | verbose
  | token
  | nodeId
  | dialect
  | title
  deriving DecidableEq, Repr

namespace Switch

/-- The long spelling. -/
def long : Switch → String
  | config => "config"
  | output => "output"
  | verbose => "verbose"
  | token => "token"
  | nodeId => "node-id"
  | dialect => "dialect"
  | title => "title"

/-- The short spelling, where there is one. -/
def short? : Switch → Option Char
  | config => some 'c'
  | output => some 'o'
  | verbose => some 'v'
  | dialect => some 'd'
  | title => some 't'
  | _ => none

/-- Whether an option has a value. -/
def hasValue : Switch → Bool
  | verbose => false
  | _ => true

/-- The options that every action has. -/
def shared : List Switch := [config, output, verbose]

end Switch

namespace Action

/-- The name of an action. -/
def name : Action → String
  | import_ => "import"
  | classify => "classify"
  | html => "html"
  | export_ => "export"
  | diagnose => "diagnose"
  | formats => "formats"

/-- All actions. -/
def all : List Action := [import_, classify, html, export_, diagnose, formats]

/-- The action of a name. -/
def ofName? (name : String) : Option Action := all.find? (·.name = name)

/-- The options that an action has. -/
def switches : Action → List Switch
  | import_ => .token :: Switch.shared
  | classify => .nodeId :: Switch.shared
  | export_ => .dialect :: .title :: Switch.shared
  | _ => Switch.shared

/-- Whether an action works on something that has to be named. -/
def needsSubject : Action → Bool
  | formats => false
  | _ => true

end Action

/-! ## Reading words -/

/-- Options with their values. -/
abbrev Given := List (Switch × String)

/-- A complete command line. -/
structure Invocation where
  action : Action
  /-- What the action works on, empty where it needs nothing. -/
  subject : String
  given : Given
  deriving DecidableEq, Repr

/-- The value of an option. -/
def Invocation.value? (invocation : Invocation) (switch : Switch) : Option String :=
  (invocation.given.find? (·.1 = switch)).map (·.2)

/-- Why reading stops before the end. -/
inductive Stop where
  | version
  | help
  | wrong
  deriving DecidableEq, Repr

/-- What has been read so far. -/
structure Progress where
  /-- Options in front of the action. -/
  before : Given := []
  action : Option Action := none
  /-- Options on the side of the action that is being read. -/
  here : Given := []
  subject : Option String := none
  /-- An option that waits for its value in the next word. -/
  pending : Option Switch := none
  /-- Whether a lone `--` has ended the options. -/
  ended : Bool := false
  /-- How many actions help has been asked about with the word `help`, once it was. -/
  helping : Option Nat := none

namespace Progress

/-- The options that may be given now. -/
def known (progress : Progress) : List Switch :=
  match progress.action with
  | some action => action.switches
  | none => Switch.shared

/-- Gives an option its value, once. -/
def give (progress : Progress) (switch : Switch) (value : String) : Except Stop Progress :=
  if progress.here.any (·.1 = switch) then .error .wrong
  else .ok { progress with here := (switch, value) :: progress.here, pending := none }

/-- Reads an option in its long spelling, with the value behind `=` if there is one. -/
def readLong (progress : Progress) (name : String) (value : Option String) :
    Except Stop Progress :=
  match progress.known.find? (·.long = name), value with
  | some switch, some value =>
    if switch.hasValue then progress.give switch value else .error .wrong
  | some switch, none =>
    if switch.hasValue then .ok { progress with pending := some switch }
    else progress.give switch ""
  | none, some _ => .error .wrong
  | none, none =>
    if name = "help" then .error .help
    else if name = "version" ∧ progress.action = none then .error .version
    else .error .wrong

/-- The text without one `=` in front. -/
def withoutEquals : List Char → List Char
  | '=' :: rest => rest
  | text => text

/-- Reads options in their short spelling, one after the other in one word. -/
def readShort (progress : Progress) : List Char → Except Stop Progress
  | [] => .ok progress
  | c :: rest =>
    match progress.known.find? (·.short? = some c) with
    | some switch =>
      if switch.hasValue then
        match rest with
        | [] => .ok { progress with pending := some switch }
        | value => progress.give switch (String.ofList (withoutEquals value))
      else do
        readShort (← progress.give switch "") rest
    | none =>
      if c = 'h' then .error .help
      else if c = 'V' ∧ progress.action = none then .error .version
      else .error .wrong

/-- The word in the place of an action that asks for help. -/
def helpWord : String := "help"

/-- Reads a word behind `help`: at most one, and it names what help is wanted on. -/
def readTopic (progress : Progress) (topics : Nat) (word : String) : Except Stop Progress :=
  if topics = 0 ∧ ((Action.ofName? word).isSome ∨ word = helpWord) then
    .ok { progress with helping := some 1 }
  else .error .wrong

/-- Reads a word that is no option: the action first, then what it works on. -/
def readPlain (progress : Progress) (word : String) : Except Stop Progress :=
  match progress.action with
  | none =>
    match Action.ofName? word with
    | some action =>
      if progress.ended then .error .wrong
      else .ok { progress with before := progress.here, action := some action, here := [] }
    | none =>
      if word = helpWord ∧ !progress.ended then .ok { progress with helping := some 0 }
      else .error .wrong
  | some action =>
    if action.needsSubject ∧ progress.subject = none then
      .ok { progress with subject := some word }
    else .error .wrong

/-- Whether a word reads as an option; a lone dash does not. -/
def looksLikeSwitch : List Char → Bool
  | '-' :: _ :: _ => true
  | _ => false

/-- Reads one word. -/
def read (progress : Progress) (word : String) : Except Stop Progress :=
  let text := word.toList
  match progress.helping, progress.pending with
  | some topics, _ => progress.readTopic topics word
  | none, some switch =>
    if looksLikeSwitch text then .error .wrong else progress.give switch word
  | none, none =>
    if progress.ended then progress.readPlain word
    else match text with
      | ['-', '-'] => .ok { progress with ended := true }
      | '-' :: '-' :: rest =>
        let (name, value) := Text.splitFirst '=' rest
        progress.readLong (String.ofList name) (value.map String.ofList)
      | '-' :: c :: rest => progress.readShort (c :: rest)
      | _ => progress.readPlain word

/-- The command line that has been read, if nothing is missing. -/
def finish (progress : Progress) : Except Stop Invocation :=
  if progress.helping.isSome then .error .help
  else match progress.action, progress.pending with
  | some action, none =>
    if action.needsSubject && progress.subject.isNone then .error .wrong
    else .ok ⟨action, progress.subject.getD "", progress.here ++ progress.before⟩
  | _, _ => .error .wrong

end Progress

/-- The command line of words. -/
def parseArguments (words : List String) : Except Stop Invocation := do
  (← words.foldlM Progress.read {}).finish

end Pagewright.Command
