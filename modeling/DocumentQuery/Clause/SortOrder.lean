import DocumentQuery.DocumentError
import DocumentQuery.Key

/-!
# Sort orders

The order in which rows are taken. A document gives one element or an array of them: a name,
which sorts ascending, or an object that gives one name its direction.
-/

namespace DocumentQuery
set_option autoImplicit false

inductive Direction where
  | ascending
  | descending
  deriving DecidableEq, Inhabited

namespace Direction

def sql : Direction → String
  | .ascending => "ASC"
  | .descending => "DESC"

def ofValue? (v : Value) : Option Direction :=
  match v.integer? with
  | some 1 => some .ascending
  | some (-1) => some .descending
  | _ => none

end Direction

structure SortTerm where
  key : Key
  direction : Direction
  deriving DecidableEq, Inhabited

/-- The order of rows; one built by hand may list no terms. -/
inductive SortOrder where
  | unspecified
  | terms (ts : List SortTerm)
  deriving DecidableEq, Inhabited

namespace SortTerm

def ofName (name : String) (direction : Direction) : Except SortFault SortTerm :=
  if Key.isClauseName name then .ok ⟨Key.ofName name, direction⟩ else .error (.columnName name)

/-- The term of an element. The direction is judged before the name. -/
def ofValue : Value → Except SortFault SortTerm
  | .text name => ofName name .ascending
  | .object [(name, flag)] =>
    match Direction.ofValue? flag with
    | some direction => ofName name direction
    | none => .error (.direction flag.described)
  | .object entries => .error (.keyCount entries.length)
  | other => .error (.kind other.kind)

/-- The term of the element at a position, which its fault names. -/
def ofIndexed : Value × Nat → Except DocumentError SortTerm
  | (element, index) => (ofValue element).mapError (.ordering index)

end SortTerm

namespace SortOrder

/-- The order that a list of elements describes. -/
def ofElements : List Value → Except DocumentError SortOrder
  | [] => .ok .unspecified
  | elements => (elements.zipIdx.mapM SortTerm.ofIndexed).map .terms

/-- The order that a document describes. -/
def ofValue : Value → Except DocumentError SortOrder
  | .null => .ok .unspecified
  | .array elements => ofElements elements
  | .text name => ofElements [.text name]
  | .object entries => ofElements [.object entries]
  | other => .error (.argument "string, object, array or null" other.kind)

end SortOrder

end DocumentQuery
