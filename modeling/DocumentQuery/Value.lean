import DocumentQuery.Binary64
import DocumentQuery.Entries
import DocumentQuery.Instant

/-!
# Values of a query document

A query is described by a nested document of scalars, arrays and objects. The order of an
object's entries is part of it: it decides the order of conjunctions and of inserted columns.
-/

namespace DocumentQuery
set_option autoImplicit false

/-- A value in a query document. -/
inductive Value where
  | null
  | bool (b : Bool)
  | int (n : Int64)
  | float (x : Binary64)
  | text (s : String)
  | date (t : Instant)
  | binary (bytes : List UInt8)
  | array (items : List Value)
  | object (entries : List (String × Value))
  deriving Inhabited

/-- An object's entries. -/
abbrev Document := Entries Value

/-- What sort of value was given, as messages name it. -/
inductive Kind where
  | null
  | boolean
  | number
  | string
  | date
  | buffer
  | array
  | object
  deriving DecidableEq, Inhabited

def Kind.name : Kind → String
  | .null => "null"
  | .boolean => "boolean"
  | .number => "number"
  | .string => "string"
  | .date => "date"
  | .buffer => "buffer"
  | .array => "array"
  | .object => "object"

namespace Value

def kind : Value → Kind
  | .null => .null
  | .bool _ => .boolean
  | .int _ => .number
  | .float _ => .number
  | .text _ => .string
  | .date _ => .date
  | .binary _ => .buffer
  | .array _ => .array
  | .object _ => .object

def isNull : Value → Bool
  | .null => true
  | _ => false

/-- Numbers, texts, booleans, dates and buffers; null is none of them. -/
def isScalar : Value → Bool
  | .null | .array _ | .object _ => false
  | _ => true

def text? : Value → Option String
  | .text s => some s
  | _ => none

def document? : Value → Option Document
  | .object entries => some entries
  | _ => none

/-- The integer that a number denotes. A float counts when it is integral and of a magnitude up
to `2 ^ 63`; that magnitude itself, one past the largest integer, stands for the largest one. -/
def integer? : Value → Option Int
  | .int n => some n.toInt
  | .float x =>
    x.toInt?.bind fun n =>
      if n.natAbs ≤ Nat.pow 2 63 then some (min n Int64.maxValue.toInt) else none
  | _ => none

mutual

/-- Equality as query documents: floats compare as numbers, an integer never equals a float, and
objects must agree in the order of their entries. -/
def equal : Value → Value → Bool
  | .null, .null => true
  | .bool a, .bool b => a == b
  | .int a, .int b => a == b
  | .float a, .float b => a.numEq b
  | .text a, .text b => a == b
  | .date a, .date b => a == b
  | .binary a, .binary b => a == b
  | .array a, .array b => equalItems a b
  | .object a, .object b => equalEntries a b
  | _, _ => false

def equalItems : List Value → List Value → Bool
  | [], [] => true
  | a :: as, b :: bs => equal a b && equalItems as bs
  | _, _ => false

def equalEntries : List (String × Value) → List (String × Value) → Bool
  | [], [] => true
  | (k, a) :: as, (l, b) :: bs => k == l && equal a b && equalEntries as bs
  | _, _ => false

end

end Value

end DocumentQuery
