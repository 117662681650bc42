import DocumentQuery.Failure
import DocumentQuery.Options
import DocumentQuery.Statement.Sql

/-!
# Catalogs

A catalog turns calls into statements: it has the dialect to write and the tables of a consistent
configuration. A table it does not list is one with the usual primary key and unknown columns.
-/

namespace DocumentQuery
set_option autoImplicit false

/-- A dialect and the tables that are known. -/
structure Catalog where
  dialect : Dialect
  tables : List Table := []
  deriving DecidableEq, Inhabited

namespace Catalog

/-- The catalog of a configuration, if it is consistent. -/
def ofConfiguration (c : Configuration) : Except ConfigurationError Catalog :=
  c.check.map fun _ => { dialect := c.dialect, tables := c.tables }

/-- The table of a name. -/
def table (catalog : Catalog) (name : String) : Table :=
  (catalog.tables.find? (·.name == name)).getD { name }

/-- The statement of a call on a table, as SQL text with its parameters. -/
def query (catalog : Catalog) (m : Method) (table : String) (options : Document) :
    Except Failure Query := do
  let s ← (Statement.ofOptions m options).mapError .document
  (s.compile catalog.dialect (catalog.table table)).mapError .statement

end Catalog

end DocumentQuery
