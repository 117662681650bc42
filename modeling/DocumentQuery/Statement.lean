import DocumentQuery.Clause.Assignments
import DocumentQuery.Clause.Paging
import DocumentQuery.Clause.Projection
import DocumentQuery.Clause.SortOrder
import DocumentQuery.Selection

/-!
# Statements

The five kinds of statement on a table, each with the clauses it has. A clause that is left out
has its empty form.
-/

namespace DocumentQuery
set_option autoImplicit false

structure Select where
  projection : Projection := .everything
  selection : Selection := .everything
  order : SortOrder := .unspecified
  limit : Limit := ⟨none⟩
  offset : Offset := ⟨none⟩

/-- The number of the rows that a selection and paging leave. -/
structure Count where
  selection : Selection := .everything
  limit : Limit := ⟨none⟩
  offset : Offset := ⟨none⟩

structure Delete where
  selection : Selection := .everything
  order : SortOrder := .unspecified
  limit : Limit := ⟨none⟩

/-- A new row with the given values and defaults elsewhere. -/
structure Insert where
  values : Assignments := []

/-- A new row, or an update of the row that is there. -/
structure Upsert where
  values : Assignments := []
  /-- The columns that an update writes; all inserted ones when not restricted. -/
  updateColumns : ColumnList := none
  /-- Where the row to update is found, for a dialect that must be told. -/
  updateSelection : Option Selection := none

inductive Statement where
  | select (s : Select)
  | count (s : Count)
  | delete (s : Delete)
  | insert (s : Insert)
  | upsert (s : Upsert)

end DocumentQuery
