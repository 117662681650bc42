import DocumentQuery.Binary64.Text
import DocumentQuery.Json
import DocumentQuery.Text.Quoted

/-!
# Faults of a JSON text

A text can fail to be JSON, or be JSON of another shape than was asked for. Each constructor is a
cause; `message?` is the wording of a wrong shape.
-/

namespace DocumentQuery.Json
set_option autoImplicit false

/-- What stood where something else was expected. -/
inductive Unexpected where
  | null
  | bool (b : Bool)
  | number (n : Number)
  | text (s : String)
  | sequence
  | map
  deriving DecidableEq, Inhabited

def Unexpected.described : Unexpected → String
  | .null => "null"
  | .bool b => "boolean `" ++ (if b then "true" else "false") ++ "`"
  | .number (.integer n) => "integer `" ++ toString n ++ "`"
  | .number (.float x) => "floating point `" ++ x.toPointedText ++ "`"
  | .text s => "string " ++ Text.quoted s
  | .sequence => "sequence"
  | .map => "map"

/-- What stands in a JSON document, in the words of a fault. -/
def unexpected : Json → Unexpected
  | .null => .null
  | .bool b => .bool b
  | .number n => .number n
  | .text s => .text s
  | .array _ => .sequence
  | .object _ => .map

/-- Why a JSON text cannot be used. -/
inductive Fault where
  /-- The text is not JSON. -/
  | malformed
  | unknownField (name : String) (known : List String)
  | missingField (name : String)
  | duplicateField (name : String)
  | unknownVariant (name : String) (known : List String)
  | wrongType (received : Unexpected) (expected : String)
  | wrongLength (length : Nat) (expected : String)
  deriving DecidableEq, Inhabited

namespace Fault

def ticked (name : String) : String := "`" ++ name ++ "`"

/-- The names that could have stood there. -/
def choice : List String → String
  | [] => "nothing"
  | [a] => ticked a
  | [a, b] => ticked a ++ " or " ++ ticked b
  | names => "one of " ++ String.intercalate ", " (names.map ticked)

/-- The wording of a wrong shape; there is none for a text that is not JSON. -/
def message? : Fault → Option String
  | .malformed => none
  | .unknownField name known =>
    some ("unknown field " ++ ticked name ++ ", expected " ++ choice known)
  | .missingField name => some ("missing field " ++ ticked name)
  | .duplicateField name => some ("duplicate field " ++ ticked name)
  | .unknownVariant name known =>
    some ("unknown variant " ++ ticked name ++ ", expected " ++ choice known)
  | .wrongType received expected =>
    some ("invalid type: " ++ received.described ++ ", expected " ++ expected)
  | .wrongLength length expected =>
    some ("invalid length " ++ toString length ++ ", expected " ++ expected)

end Fault

end DocumentQuery.Json
