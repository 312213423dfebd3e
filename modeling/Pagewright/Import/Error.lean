import Pagewright.Json.Parser

/-!
# Why an import fails

An import fails before anything is classified: the design is not addressed
properly, the answer cannot be had or read, or it holds no frame.
-/

namespace Pagewright.Import

/-- The cause of a failed import. -/
inductive ImportError where
  | missingToken
  | invalidBaseUrl (given : String)
  | invalidReference (given : String)
  | invalidNodeId (given : String)
  /-- The service refused with a status and perhaps a message. -/
  | refused (status : Nat) (message : String)
  /-- The service does not answer. -/
  | unreachable (reason : String)
  | noDocument (nodeId : String)
  | notAnObject
  | notAFrame (type : String)
  | malformed (cause : Json.TextError)
  | unreadable (path reason : String)
  deriving Repr, Inhabited

/-- What is wrong with a text that is no JSON. -/
def textReason : Json.TextError → String
  | .ended => "unexpected end of input"
  | .malformed => "unexpected character"

/-- The message of a refusal, set off from what stands before it. -/
def refusalSuffix (message : String) : String := if message = "" then "" else ": " ++ message

/-- The wording of an import error. -/
def ImportError.message : ImportError → String
  | .missingToken => "Figma token is not configured"
  | .invalidBaseUrl given => "invalid API base URL: " ++ given
  | .invalidReference given => "invalid design URL: " ++ given
  | .invalidNodeId given => "invalid node-id in design URL: " ++ given
  | .refused status message =>
    "failed to fetch design node (HTTP " ++ toString status ++ ")" ++ refusalSuffix message
  | .unreachable reason => "failed to reach the design API: " ++ reason
  | .noDocument nodeId =>
    "unexpected design API response: no document for node " ++ nodeId
  | .notAnObject => "unexpected design API response: frame document is not an object"
  | .notAFrame type => "design node is not a frame (got " ++ type ++ ")"
  | .malformed cause => "invalid JSON: " ++ textReason cause
  | .unreadable path reason => "failed to read " ++ path ++ ": " ++ reason

end Pagewright.Import
