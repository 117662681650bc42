import DocumentQuery.Dialect

/-!
# Faults of a statement

Why a statement cannot be put into SQL for its table. Each constructor is a cause; `message` is
its wording.
-/

namespace DocumentQuery
set_option autoImplicit false

/-- Why a statement on `table` has no SQL. -/
inductive StatementError where
  | missingValues (table : String)
  /-- The dialect cannot find the row to update without a selector. -/
  | missingUpdateSelector (dialect : Dialect) (table : String)
  /-- An update selector that selects every row. -/
  | missingTarget (table : String)
  | missingUpdateColumns (table : String)
  /-- A column to update for which no value is inserted. -/
  | unknownUpdateColumn (column table : String)
  /-- The primary key as a single operand, where it has several columns. -/
  | compositeKey (table : String)
  | missingKey (table : String)
  /-- Columns are excluded from a list that is not known. -/
  | unknownColumns (table : String)
  | emptyProjection (table : String)
  deriving DecidableEq, Inhabited

namespace StatementError

def message : StatementError → String
  | .missingValues table => "upsert on '" ++ table ++ "' requires at least one value"
  | .missingUpdateSelector dialect table =>
    dialect.title ++ " upsert on '" ++ table ++ "' requires an update selector"
  | .missingTarget table => "upsert on '" ++ table ++ "' requires a non-empty selection"
  | .missingUpdateColumns table => "upsert on '" ++ table ++ "' requires at least one update column"
  | .unknownUpdateColumn column table =>
    "update column '" ++ column ++ "' is not among the values inserted into '" ++ table ++ "'"
  | .compositeKey table =>
    "table '" ++ table
      ++ "' has a composite primary key; $id cannot be compared to a single value"
  | .missingKey table => "table '" ++ table ++ "' has no primary key"
  | .unknownColumns table => "excluding columns from '" ++ table ++ "' requires its column list"
  | .emptyProjection table => "projection on '" ++ table ++ "' excludes every column"

end StatementError

end DocumentQuery
