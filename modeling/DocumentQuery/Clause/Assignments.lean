import DocumentQuery.DocumentError
import DocumentQuery.Key
import DocumentQuery.Parameter

/-!
# Assigned values and column lists

The values a statement writes, column by column in the order of the document, and the columns
that an update is restricted to.
-/

namespace DocumentQuery
set_option autoImplicit false

/-- Columns with the values to write. -/
abbrev Assignments := List (String × Parameter)

/-- A name that values can be assigned to. -/
def checkColumn (name : String) : Except DocumentError String :=
  if Key.isColumnName name then .ok name else .error (.columnName name)

namespace Assignments

/-- One assignment. The name is judged before its value. -/
def ofEntry : String × Value → Except DocumentError (String × Parameter)
  | (name, value) => do
    let column ← checkColumn name
    match value.parameter? with
    | some p => .ok (column, p)
    | none => .error (.assigned column value.kind)

/-- The assignments that a document describes. -/
def ofValue : Value → Except DocumentError Assignments
  | .object entries => entries.mapM ofEntry
  | other => .error (.argument "object" other.kind)

end Assignments

/-- A restriction to some columns, by name. -/
abbrev ColumnList := Option (List String)

namespace ColumnList

def textOfItem : Value → Except DocumentError String
  | .text name => .ok name
  | other => .error (.argument "array of strings" other.kind)

/-- The column list that a document gives. All items must be texts before any name is judged. -/
def ofValue : Value → Except DocumentError ColumnList
  | .null => .ok none
  | .text name => ([name].mapM checkColumn).map some
  | .array items => do
    let names ← items.mapM textOfItem
    (names.mapM checkColumn).map some
  | other => .error (.argument "string, array of strings or null" other.kind)

end ColumnList

end DocumentQuery
