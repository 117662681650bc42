/-!
# Keys

A key names what a comparison, a projection or an ordering is about: a column, or the primary key
of whatever table the query runs against.
-/

namespace DocumentQuery
set_option autoImplicit false

/-- The primary key of the table, or a column by its name. -/
inductive Key where
  | id
  | column (name : String)
  deriving DecidableEq, Inhabited

namespace Key

/-- The name that stands for the primary key. -/
def idName : String := "$id"

/-- The key that a name in a document refers to. -/
def ofName (name : String) : Key := if name = idName then .id else .column name

/-- Names with a leading dollar sign are kept for operators and the primary key. -/
def isReserved (name : String) : Bool := name.toList.head? == some '$'

/-- A column that values can be assigned to has a name, and not a reserved one. -/
def isColumnName (name : String) : Bool := !name.isEmpty && !isReserved name

/-- Clauses other than the selector know columns and the primary key. -/
def isClauseName (name : String) : Bool := name == idName || isColumnName name

end Key

end DocumentQuery
