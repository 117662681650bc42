import DocumentQuery.Table

/-!
# Configurations

The dialect to write and the tables that are known. A configuration is consistent when every
table has a name, no two have the same, and the primary key of a table with a column list is made
of columns on it.
-/

namespace DocumentQuery
set_option autoImplicit false

structure Configuration where
  dialect : Dialect
  tables : List Table := []
  deriving DecidableEq, Inhabited

/-- Why a configuration is not consistent. -/
inductive ConfigurationError where
  | emptyTableName
  | duplicateTable (name : String)
  | undeclaredKey (column table : String)
  deriving DecidableEq, Inhabited

namespace ConfigurationError

def message : ConfigurationError → String
  | .emptyTableName => "table name cannot be empty"
  | .duplicateTable name => "duplicate table '" ++ name ++ "'"
  | .undeclaredKey column table =>
    "primary key column '" ++ column ++ "' is not a column of '" ++ table ++ "'"

end ConfigurationError

/-- The first column of the primary key that a declared column list lacks. -/
def Table.undeclaredKey? (t : Table) : Option String :=
  t.columns.bind fun columns => t.primaryKey.find? (!columns.contains ·)

namespace Configuration

/-- Checks tables behind others with the names `seen`; the first fault counts. -/
def checkTables (seen : List String) : List Table → Except ConfigurationError Unit
  | [] => .ok ()
  | t :: rest =>
    if t.name.isEmpty then .error .emptyTableName
    else if seen.contains t.name then .error (.duplicateTable t.name)
    else
      match t.undeclaredKey? with
      | some column => .error (.undeclaredKey column t.name)
      | none => checkTables (t.name :: seen) rest

/-- Checks the tables in their order. -/
def check (c : Configuration) : Except ConfigurationError Unit := checkTables [] c.tables

/-- The configuration itself, if it is consistent. -/
def checked (c : Configuration) : Except ConfigurationError Configuration :=
  c.check.map fun _ => c

end Configuration

end DocumentQuery
