import DocumentQuery.Binary64.Text
import DocumentQuery.Text.Quoted
import DocumentQuery.Value

/-!
# Statement parameters

Every literal of a query reaches a statement as a bound parameter and never as part of its text.
Arrays and objects cannot be bound.
-/

namespace DocumentQuery
set_option autoImplicit false

/-- A value bound to a placeholder. -/
inductive Parameter where
  | null
  | bool (b : Bool)
  | int (n : Int64)
  | float (x : Binary64)
  | text (s : String)
  | timestamp (t : Instant)
  | blob (bytes : List UInt8)
  deriving DecidableEq, Inhabited

namespace Parameter

def isNull : Parameter → Bool
  | .null => true
  | _ => false

/-- The text of a parameter in the tagged notation. -/
def tagged : Parameter → String
  | .null => "null"
  | .bool b => if b then "true" else "false"
  | .int n => toString n.toInt
  | .float x => x.toText
  | .text s => Text.quoted s
  | .timestamp t => "\"" ++ t.toText ++ "\""
  | .blob bytes => "\"0x" ++ Text.hexBytes bytes ++ "\""

end Parameter

/-- The parameter that carries a scalar or null. -/
def Value.parameter? : Value → Option Parameter
  | .null => some .null
  | .bool b => some (.bool b)
  | .int n => some (.int n)
  | .float x => some (.float x)
  | .text s => some (.text s)
  | .date t => some (.timestamp t)
  | .binary bytes => some (.blob bytes)
  | .array _ | .object _ => none

end DocumentQuery
