import Pagewright.Import.Error
import Pagewright.Json.Printer
import Pagewright.Text.Blank

/-!
# Answers of the service

An answer holds one document per requested node. A saved answer may be opened
without naming the node if there is only one, and a file may also hold the
document alone. An answer that refuses says why in its body.
-/

namespace Pagewright.Import

open Json

/-- The document of a node in an answer. -/
def document (payload : Json) (nodeId : String) : Except ImportError Json :=
  let found := do
    let nodes ← payload.get? "nodes"
    let node ← nodes.get? nodeId
    node.get? "document"
  match found with
  | some (.obj fields) => .ok (.obj fields)
  | _ => .error (.noDocument nodeId)

/-- The id of the only node of an answer. -/
def soleNodeId? (payload : Json) : Option String :=
  match payload.get? "nodes" with
  | some (.obj [(nodeId, _)]) => some nodeId
  | _ => none

/-- The document that a saved file stands for; the empty id asks for the only node. -/
def documentOfFile (nodeId : String) (text : String) : Except ImportError Json :=
  match Json.parse text with
  | .error cause => .error (.malformed cause)
  | .ok payload =>
    match payload.get? "nodes", soleNodeId? payload with
    | none, _ => .ok payload
    | some _, some sole => document payload (if nodeId = "" then sole else nodeId)
    | some _, none => document payload nodeId

/-! ## Refusals -/

/-- How many characters of a body an error message quotes. -/
def quotedLimit : Nat := 300

/-- The message in a field of a body, if it is a text or a number. -/
def messageIn (fields : Fields) (key : String) : Option String :=
  match lookup key fields with
  | some (.str s) => if s = "" then none else some s
  | some (.int n) => some (compact (.int n))
  | some (.float x) => some (compact (.float x))
  | _ => none

/-- The beginning of a body, marked where it is cut. -/
def excerpt (body : String) : String :=
  let text := body.toList
  if quotedLimit < text.length then
    String.ofList (Text.trimEnd (text.take quotedLimit)) ++ "..."
  else body

/-- Why the service refuses, as its answer says. -/
def refusalMessage (body : String) : String :=
  let stated := match Json.parse body with
    | .ok (.obj fields) => messageIn fields "err" <|> messageIn fields "message"
    | _ => none
  stated.getD (excerpt body)

end Pagewright.Import
