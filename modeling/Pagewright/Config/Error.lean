import Pagewright.Config.Value
import Pagewright.Number.Form
import Pagewright.Text.Quoted

/-!
# Why settings cannot be had

A layer cannot be read, a key is malformed, or a value does not fit the
setting that it is given for.
-/

namespace Pagewright.Config

/-- What a value is, as far as complaints say. -/
inductive Found where
  | scalar (s : Scalar)
  | unsigned (n : Nat)
  | list
  | table
  deriving DecidableEq, Repr, Inhabited

/-- What a value is. -/
def Value.found : Value → Found
  | .scalar _ s => .scalar s
  | .list .. => .list
  | .table .. => .table

/-- Where a value was given. -/
def Value.origin : Value → Origin
  | .scalar origin _ => origin
  | .list origin _ => origin
  | .table origin _ => origin

/-- The cause of missing settings. -/
inductive ConfigError where
  /-- A scalar that cannot be converted. -/
  | wrongType (found : Found) (expected key : String) (origin : Origin)
  /-- A value where a group or list of settings is needed. -/
  | wrongShape (found : Found) (expected : String)
  | tooShort (length : Nat) (expected : String)
  | missingKey (key : String)
  | badKey (given : String)
  | malformedFile (name : String)
  | missingFile (name : String)
  deriving Repr, Inhabited

/-- A text between backquotes. -/
def ticked (text : String) : String := "`" ++ text ++ "`"

/-- The wording of what was found where a scalar was needed. -/
def Found.asScalar : Found → String
  | .scalar .nothing => "unit value"
  | .scalar (.bool b) => "boolean " ++ ticked (if b then "true" else "false")
  | .scalar (.int n) => "64-bit integer " ++ ticked (toString n)
  | .scalar (.float x) => "floating point " ++ ticked (Number.plainText x)
  | .scalar (.text s) => "string " ++ Text.quoted s
  | .unsigned n => "64-bit unsigned integer " ++ ticked (toString n)
  | .list => "sequence"
  | .table => "map"

/-- The wording of what was found where a group was needed. -/
def Found.asGroup : Found → String
  | .scalar .nothing => "unit value"
  | .scalar (.bool b) => "boolean " ++ ticked (if b then "true" else "false")
  | .scalar (.int n) => "integer " ++ ticked (toString n)
  | .scalar (.float x) => "floating point " ++ ticked (Number.jsonText x)
  | .scalar (.text s) => "string " ++ Text.quoted s
  | .unsigned n => "integer " ++ ticked (toString n)
  | .list => "sequence"
  | .table => "map"

/-- Where a value was given, behind a complaint about it. -/
def originSuffix : Origin → String
  | some origin => " in " ++ origin
  | none => ""

/-- The wording of a configuration error. -/
def ConfigError.message : ConfigError → String
  | .wrongType found expected key origin =>
    "invalid type: " ++ found.asScalar ++ ", expected " ++ expected ++ " for key " ++ ticked key
      ++ originSuffix origin
  | .wrongShape found expected =>
    "invalid type: " ++ found.asGroup ++ ", expected " ++ expected
  | .tooShort length expected =>
    "invalid length " ++ toString length ++ ", expected " ++ expected
  | .missingKey key => "missing field " ++ ticked key
  | .badKey given => "malformed key " ++ given
  | .malformedFile name => "malformed document in " ++ name
  | .missingFile name => "configuration file \"" ++ name ++ "\" not found"

end Pagewright.Config
