import DocumentQuery.Binary64.Text
import DocumentQuery.Value

/-!
# Faults of a query document

What can be wrong with a document that is read as a part of a query. Each constructor is a
cause; `message` is its wording.
-/

namespace DocumentQuery
set_option autoImplicit false

/-- How a message describes a value: a number by its text, anything else by its kind. -/
def Value.described : Value → String
  | .int n => toString n.toInt
  | .float x => x.toText
  | v => v.kind.name

/-- What is wrong with an element of an ordering. -/
inductive SortFault where
  | columnName (name : String)
  /-- An object that does not have exactly one key. -/
  | keyCount (found : Nat)
  | direction (received : String)
  | kind (received : Kind)
  deriving DecidableEq, Inhabited

def SortFault.message : SortFault → String
  | .columnName name => "invalid column name '" ++ name ++ "'"
  | .keyCount found => "expected exactly one key, found " ++ toString found
  | .direction received => "direction must be 1 or -1, received " ++ received
  | .kind received => "expected string or object, received " ++ received.name

/-- Why a document is not a part of a query. Operators are given by their names. -/
inductive DocumentError where
  /-- The whole argument is of the wrong kind. -/
  | argument (expected : String) (received : Kind)
  /-- An operator's operand is of the wrong kind. -/
  | operand (operator expected : String) (received : Kind)
  /-- An operator that needs elements got an empty array. -/
  | emptyArray (operator : String)
  /-- A reserved name that is no operator. -/
  | unknownOperator (name : String)
  /-- A comparison operator outside every field. -/
  | missingField (operator : String)
  /-- A projection flag other than 1, 0 and -1. -/
  | projection (name received : String)
  /-- A malformed element of an ordering. -/
  | ordering (index : Nat) (fault : SortFault)
  | limit (received : String)
  | offset (received : String)
  /-- A value that cannot be assigned to a column. -/
  | assigned (column : String) (received : Kind)
  | columnName (name : String)
  deriving DecidableEq, Inhabited

namespace DocumentError

def message : DocumentError → String
  | .argument expected received =>
    "invalid argument: expected " ++ expected ++ ", received " ++ received.name
  | .operand operator expected received =>
    "invalid " ++ operator ++ " operand: expected " ++ expected ++ ", received " ++ received.name
  | .emptyArray operator => "invalid " ++ operator ++ " operand: array cannot be empty"
  | .unknownOperator name => "unknown operator '" ++ name ++ "'"
  | .missingField operator => "operator " ++ operator ++ " must be nested under a field"
  | .projection name received =>
    "invalid projection for '" ++ name ++ "': expected 1, 0 or -1, received " ++ received
  | .ordering index fault =>
    "invalid order by element at index " ++ toString index ++ ": " ++ fault.message
  | .limit received => "invalid limit: expected a positive integer, received " ++ received
  | .offset received => "invalid offset: expected a non-negative integer, received " ++ received
  | .assigned column received =>
    "invalid value for column '" ++ column
      ++ "': expected number, string, boolean, date, buffer or null, received " ++ received.name
  | .columnName name => "invalid column name '" ++ name ++ "'"

end DocumentError

end DocumentQuery
