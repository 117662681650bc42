import DocumentQuery.Binary64.Nearest
import DocumentQuery.Value

/-!
# JSON documents

A JSON document with the order of its objects, and the query document that it stands for. JSON
has no dates and no buffers; its integers that fit 64 bits with a sign stay integers, and all
other numbers are floats.
-/

namespace DocumentQuery
set_option autoImplicit false

/-- A number of a JSON text: an integer that fits 64 bits with or without a sign, or a float. -/
inductive Json.Number where
  | integer (n : Int)
  | float (x : Binary64)
  deriving DecidableEq, Inhabited

/-- A JSON document. -/
inductive Json where
  | null
  | bool (b : Bool)
  | number (n : Json.Number)
  | text (s : String)
  | array (items : List Json)
  | object (entries : List (String × Json))
  deriving Inhabited

/-- An integer within the range of signed 64 bits, as a value; one beyond as a float. -/
def Json.Number.value : Json.Number → Value
  | .integer n =>
    if Int64.minValue.toInt ≤ n ∧ n ≤ Int64.maxValue.toInt then .int (Int64.ofInt n)
    else .float (Binary64.ofInt n)
  | .float x => .float x

namespace Value

mutual

/-- The query document that a JSON document stands for. -/
def ofJson : Json → Value
  | .null => .null
  | .bool b => .bool b
  | .number n => n.value
  | .text s => .text s
  | .array items => .array (ofJsonItems items)
  | .object entries => .object (Entries.ofList (ofJsonEntries entries))

def ofJsonItems : List Json → List Value
  | [] => []
  | item :: rest => ofJson item :: ofJsonItems rest

def ofJsonEntries : List (String × Json) → List (String × Value)
  | [] => []
  | (name, value) :: rest => (name, ofJson value) :: ofJsonEntries rest

end

end Value

end DocumentQuery
