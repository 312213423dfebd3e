import Pagewright.Command.Run

/-!
# Runs inside a folder in memory

A folder holds files by path. Reading and writing fail for the reasons that a
file system gives: there is no such file or folder, the path leads to a
folder, or it goes on behind a file.
-/

namespace Pagewright.Command

/-- Why a path cannot be used. -/
inductive PathError where
  | notFound
  | notAFolder
  | isAFolder
  deriving DecidableEq, Repr

/-- The wording of a path error. -/
def PathError.message : PathError → String
  | .notFound => "No such file or directory (os error 2)"
  | .notAFolder => "Not a directory (os error 20)"
  | .isAFolder => "Is a directory (os error 21)"

/-- The names on a path within a folder; steps that lead nowhere are left out. -/
def namesOf (path : String) : List (List Char) :=
  (Text.splitOn '/' path.toList).filter fun name => !name.isEmpty && name != ['.']

/-- Files with their contents. -/
structure Folder where
  files : List (String × String)
  /-- Files that were not there before. -/
  written : List (String × String) := []

namespace Folder

/-- All files as they are now. -/
def contents (folder : Folder) : List (String × String) := folder.written ++ folder.files

/-- The content of the file with these names. -/
def find? (folder : Folder) (names : List (List Char)) : Option String :=
  (folder.contents.find? fun file => namesOf file.1 == names).map (·.2)

/-- Whether these names lead to a folder: one with a file in it, or the folder itself. -/
def hasFolder (folder : Folder) (names : List (List Char)) : Bool :=
  names.isEmpty || folder.contents.any fun file =>
    names.isPrefixOf (namesOf file.1) && names.length < (namesOf file.1).length

/-- Whether some beginning of these names leads to a file. -/
def goesBehindFile (folder : Folder) (names : List (List Char)) : Bool :=
  (List.range names.length).any fun count => (folder.find? (names.take count)).isSome

/-- Whether a path leads out of the folder. -/
def isOutside (path : String) : Bool :=
  path == "" || path.toList.head? == some '/' || (namesOf path).contains ['.', '.']

/-- Whether a path ends like that of a folder. -/
def endsAsFolder (path : String) : Bool := path.toList.getLast? == some '/'

/-- The content of a file. -/
def read (folder : Folder) (path : String) : Except PathError String :=
  let names := namesOf path
  if isOutside path then .error .notFound
  else if folder.hasFolder names then .error .isAFolder
  else match folder.find? names with
    | some content => if endsAsFolder path then .error .notAFolder else .ok content
    | none => .error (if folder.goesBehindFile names then .notAFolder else .notFound)

/-- The folder with a file written. -/
def write (folder : Folder) (path content : String) : Except PathError Folder :=
  let names := namesOf path
  if isOutside path then .error .notFound
  else if folder.hasFolder names then .error .isAFolder
  else if folder.goesBehindFile names then .error .notAFolder
  else if !folder.hasFolder names.dropLast then .error .notFound
  else if endsAsFolder path then
    .error (if (folder.find? names).isSome then .notAFolder else .isAFolder)
  else
    let isNamed (file : String × String) : Bool := namesOf file.1 == names
    if folder.files.any isNamed then
      .ok { folder with
        files := folder.files.map fun file => if isNamed file then (file.1, content) else file }
    else
      let name := String.ofList (Text.joinWith ['/'] names)
      .ok { folder with
        written := folder.written.filter (!isNamed ·) ++ [(name, content)] }

end Folder

/-- Access to a folder in memory and a given standard input, without a design service. -/
def Access.inFolder (input : String) : Access (StateM Folder) where
  read path := do return ((← get).read path).mapError PathError.message
  input := pure (.ok input)
  write path content := do
    match (← get).write path content with
    | .ok folder => set folder; return .ok ()
    | .error cause => return .error cause.message
  fetch _ := pure (.error (.unreachable "no connection"))

end Pagewright.Command
