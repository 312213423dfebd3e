import Pagewright.Command.Run

/-!
# The program

The command line of the system is run with the files, the environment and the
standard streams of the system.
-/

namespace Pagewright.Command

/-- The wording of a failed file access. -/
def systemReason : IO.Error → String
  | .noFileOrDirectory .. => "No such file or directory (os error 2)"
  | .inappropriateType .. => "Is a directory (os error 21)"
  | .permissionDenied .. => "Permission denied (os error 13)"
  | other => other.toString

/-- Runs a file access. -/
def guarded {α : Type} (action : IO α) : IO (Except String α) := do
  match ← action.toBaseIO with
  | .ok value => return .ok value
  | .error cause => return .error (systemReason cause)

/-- The standard input to its end; `fuel` bounds the number of reads. -/
def readInput (stream : IO.FS.Stream) : Nat → ByteArray → IO ByteArray
  | 0, done => return done
  | fuel + 1, done => do
    let bytes ← stream.read 65536
    if bytes.isEmpty then return done else readInput stream fuel (done ++ bytes)

/-- The text of the standard input. -/
def inputText : IO String := do
  let bytes ← readInput (← IO.getStdin) 0x100000000 .empty
  match String.fromUTF8? bytes with
  | some text => return text
  | none => throw (IO.userError "stream did not contain valid UTF-8")

/-- Access to the system; there is no connection to the design service. -/
def systemAccess : Access IO where
  read path := guarded (IO.FS.readFile path)
  input := guarded inputText
  write path content := guarded (IO.FS.writeFile path content)
  fetch _ := return .error (.unreachable "no connection")

/-- The variables among `KEY=value` lines. -/
def variablesOf (text : String) : Environment :=
  (Text.splitOn '\x00' text.toList).filterMap fun line =>
    match Text.splitFirst '=' line with
    | (name, some value) => some (String.ofList name, String.ofList value)
    | (_, none) => none

/-- The variables of the environment of this process. -/
def systemEnvironment : IO Environment := do
  match ← guarded (IO.FS.readFile "/proc/self/environ") with
  | .ok text => return variablesOf text
  | .error _ => return []

/-- Runs the command line on this system and gives its exit code. -/
def runOnSystem (words : List String) : IO UInt32 := do
  let environment ← systemEnvironment
  let outcome ← run systemAccess environment words
  IO.print outcome.output
  match outcome.error with
  | some message => IO.eprint message
  | none => if outcome.code = 2 then IO.eprint usageText
  return outcome.code

end Pagewright.Command

/-- The program. -/
def main (words : List String) : IO UInt32 := Pagewright.Command.runOnSystem words
