import Pagewright.Import.Error
import Pagewright.Text.Blank
import Pagewright.Text.Characters
import Pagewright.Url.Form
import Pagewright.Url.Parser

/-!
# References to design frames

The URL of a frame names a file, by the key after a segment `design` or
`file`, and a node in it, by the parameter `node-id`. A node id is two runs of
digits; URLs put a dash between them and the service a colon.
-/

namespace Pagewright.Import

/-- A node in a file. -/
structure Reference where
  fileKey : String
  nodeId : String
  deriving DecidableEq, Repr, Inhabited

/-- Whether a segment announces the key of a file. -/
def announcesKey (segment : List Char) : Bool :=
  segment == "design".toList || segment == "file".toList

/-- The first segment that is not empty and comes after one that announces a key. -/
def keyAmong? : List (List Char) → Option (List Char)
  | [] => none
  | [_] => none
  | segment :: next :: rest =>
    if announcesKey segment && !next.isEmpty then some next else keyAmong? (next :: rest)

/-- The key of the file in the text of a path: only what follows a slash is a segment. -/
def fileKey? (path : List Char) : Option (List Char) :=
  keyAmong? ((Text.splitOn '/' path).drop 1)

/-- Whether a text is one or more digits. -/
def isDigits (text : List Char) : Bool := !text.isEmpty && text.all Text.isDecimalDigit

/-- Whether a text is two runs of digits with a colon between them. -/
def isNodeId (text : List Char) : Bool :=
  match Text.splitOn ':' text with
  | [first, second] => isDigits first && isDigits second
  | _ => false

/-- The reference of a design URL. -/
def Reference.parse (given : String) (library : Url.Library := .standard) :
    Except ImportError Reference :=
  match library.parse? (Text.trim given.toList) with
  | none => .error (.invalidReference given)
  | some url =>
    match fileKey? url.path.text,
        (Url.parameter? "node-id".toList (url.query.getD [])).filter (!·.isEmpty) with
    | some key, some raw =>
      let nodeId := Text.replaceChar '-' ':' raw
      if isNodeId nodeId then .ok ⟨String.ofList key, String.ofList nodeId⟩
      else .error (.invalidNodeId (String.ofList raw))
    | _, _ => .error (.invalidReference given)

end Pagewright.Import
