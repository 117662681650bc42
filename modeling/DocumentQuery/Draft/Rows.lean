import DocumentQuery.Clause.Paging
import DocumentQuery.Clause.SortOrder
import DocumentQuery.Draft.Condition

/-!
# Rows of a table

A table's name with the clauses that pick rows of it: restriction, order and paging. Every
statement that reads or deletes rows contains them in this form.
-/

namespace DocumentQuery
set_option autoImplicit false

/-- The largest row count of MySQL, which has no offset without a limit. -/
def Dialect.maxRows : Nat := 18446744073709551615

/-- The paging clause, if there is anything to page. -/
def Dialect.paging? (d : Dialect) (limit : Limit) (offset : Offset) : Option String :=
  match limit.rows, offset.rows, d with
  | none, none, _ => none
  | some n, none, _ => some ("LIMIT " ++ toString n)
  | some n, some m, _ => some ("LIMIT " ++ toString n ++ " OFFSET " ++ toString m)
  | none, some m, .mysql =>
    some ("LIMIT " ++ toString Dialect.maxRows ++ " OFFSET " ++ toString m)
  | none, some m, .postgres => some ("OFFSET " ++ toString m)

namespace Draft

/-- Columns with a common direction. -/
def directed (direction : Direction) (columns : List String) : Draft Unit :=
  separated ", " (columns.map fun column => do
    name column
    raw " "
    raw direction.sql)

/-- The terms of an ordering; `more` tells whether some stand before. A term on the primary key
sorts by its columns in turn. -/
def sortTerms (t : Table) (more : Bool) : List SortTerm → Draft Unit
  | [] => pure ()
  | term :: rest => do
    let columns ← lift (t.columnsOf term.key)
    if more then raw ", "
    directed term.direction columns
    sortTerms t true rest

/-- The ordering clause, absent without terms. -/
def ordering (t : Table) : SortOrder → Draft Unit
  | .unspecified | .terms [] => pure ()
  | .terms ts => do
    raw " ORDER BY "
    sortTerms t false ts

/-- The paging clause behind other clauses. -/
def paging (d : Dialect) (limit : Limit) (offset : Offset) : Draft Unit :=
  match d.paging? limit offset with
  | none => pure ()
  | some clause => raw (" " ++ clause)

/-- The table's name and the clauses that pick its rows. -/
def rows (d : Dialect) (t : Table) (selection : Selection) (order : SortOrder) (limit : Limit)
    (offset : Offset) : Draft Unit := do
  name t.name
  restriction t selection
  ordering t order
  paging d limit offset

end Draft

end DocumentQuery
