import DocumentQuery.Draft.Rows
import DocumentQuery.Statement

/-!
# SQL of statements

Each statement as a draft on its table. The dialects share everything but paging, the row of
defaults, bounded deletion and the upsert.
-/

namespace DocumentQuery
set_option autoImplicit false

/-- The columns of a projection, or the star for all of them. -/
def Draft.projected (t : Table) (projection : Projection) : Draft Unit := do
  match ← Draft.lift (projection.columns t) with
  | some columns => Draft.names columns
  | none => Draft.raw "*"

namespace Select

def draft (d : Dialect) (t : Table) (s : Select) : Draft Unit := do
  .raw "SELECT "
  .projected t s.projection
  .raw " FROM "
  .rows d t s.selection s.order s.limit s.offset

end Select

namespace Count

/-- With paging, the rows are bounded in a table of their own before they are counted; paging
behind the count would apply to its single row. -/
def draft (d : Dialect) (t : Table) (s : Count) : Draft Unit := do
  .raw "SELECT COUNT(*) AS "
  .name "count"
  .raw " FROM "
  if s.limit.rows.isNone && s.offset.rows.isNone then
    .rows d t s.selection .unspecified s.limit s.offset
  else
    .raw "(SELECT 1 FROM "
    .rows d t s.selection .unspecified s.limit s.offset
    .raw ") AS "
    .name "bounded"

end Count

namespace Delete

/-- A selection of `columns` of the rows to delete. -/
def subselect (d : Dialect) (t : Table) (columns : String) (s : Delete) : Draft Unit := do
  .raw "SELECT "
  .raw columns
  .raw " FROM "
  .rows d t s.selection s.order s.limit ⟨none⟩

/-- Deletion with its clauses behind it. -/
def plainDraft (d : Dialect) (t : Table) (s : Delete) : Draft Unit := do
  .raw "DELETE FROM "
  .rows d t s.selection s.order s.limit ⟨none⟩

/-- PostgreSQL deletes without order and limit, so there a limit goes into a selection of row
identifiers; without a limit the order cannot matter. -/
def draft (d : Dialect) (t : Table) (s : Delete) : Draft Unit :=
  match d with
  | .mysql => s.plainDraft d t
  | .postgres =>
    if s.limit.rows.isNone then
      plainDraft d t { s with order := .unspecified }
    else do
      .raw "DELETE FROM "
      .name t.name
      .raw " WHERE ctid IN ("
      s.subselect d t "ctid"
      .raw ")"

end Delete

namespace Insert

/-- A row made of defaults only. -/
def defaultsDraft (d : Dialect) (t : Table) : Draft Unit := do
  .raw "INSERT INTO "
  .name t.name
  .raw (match d with
    | .mysql => " () VALUES ()"
    | .postgres => " DEFAULT VALUES")

/-- A row of values in the order of their columns. -/
def valuesDraft (t : Table) (values : Assignments) : Draft Unit := do
  .raw "INSERT INTO "
  .name t.name
  .raw " ("
  .names (values.map (·.1))
  .raw ") VALUES ("
  .placeholders (values.map (·.2))
  .raw ")"

def draft (d : Dialect) (t : Table) (s : Insert) : Draft Unit :=
  if s.values.isEmpty then defaultsDraft d t else valuesDraft t s.values

end Insert

namespace Upsert

/-- The inserted value of a column to update. -/
def updateOf (t : Table) (s : Upsert) (column : String) :
    Except StatementError (String × Parameter) :=
  match Entries.get? column s.values with
  | some p => .ok (column, p)
  | none => .error (.unknownUpdateColumn column t.name)

/-- What an update of an existing row writes. -/
def updates (t : Table) (s : Upsert) : Except StatementError Assignments :=
  match s.updateColumns with
  | none => .ok s.values
  | some [] => .error (.missingUpdateColumns t.name)
  | some columns => columns.mapM (s.updateOf t)

/-- The selection of the row to update, where the dialect must be told it. -/
def target (d : Dialect) (t : Table) (s : Upsert) : Except StatementError Selection :=
  match s.updateSelection with
  | none => .error (.missingUpdateSelector d t.name)
  | some .everything => .error (.missingTarget t.name)
  | some selection => .ok selection

/-- MySQL names the inserted value of each column in the update. -/
def duplicateKeyDraft (t : Table) (s : Upsert) : Draft Unit := do
  let updates ← .lift (s.updates t)
  Insert.valuesDraft t s.values
  .raw " ON DUPLICATE KEY UPDATE "
  .separated ", " (updates.map fun (column, _) => do
    .name column
    .raw " = VALUES("
    .name column
    .raw ")")

/-- PostgreSQL updates first and inserts only where the update found no row. -/
def updateOrInsertDraft (t : Table) (s : Upsert) : Draft Unit := do
  let selection ← .lift (s.target .postgres t)
  let updates ← .lift (s.updates t)
  .raw "WITH "
  .name "updated"
  .raw " AS (UPDATE "
  .name t.name
  .raw " SET "
  .separated ", " (updates.map fun (column, p) => do
    .name column
    .raw " = "
    .placeholder p)
  .restriction t selection
  .raw " RETURNING *), "
  .name "inserted"
  .raw " AS (INSERT INTO "
  .name t.name
  .raw " ("
  .names (s.values.map (·.1))
  .raw ") SELECT "
  .placeholders (s.values.map (·.2))
  .raw " WHERE NOT EXISTS (SELECT * FROM "
  .name "updated"
  .raw ") RETURNING *) SELECT * FROM "
  .name "updated"
  .raw " UNION ALL SELECT * FROM "
  .name "inserted"

/-- The dialect's own upsert, for at least one value. -/
def dialectDraft (d : Dialect) (t : Table) (s : Upsert) : Draft Unit :=
  match d with
  | .mysql => s.duplicateKeyDraft t
  | .postgres => s.updateOrInsertDraft t

/-- The upsert in any dialect: it must insert something, and its update is checked before what
the dialect asks beyond that. -/
def draft (d : Dialect) (t : Table) (s : Upsert) : Draft Unit :=
  if s.values.isEmpty then
    .lift (.error (.missingValues t.name))
  else do
    let _ ← .lift (s.updates t)
    s.dialectDraft d t

end Upsert

namespace Statement

def draft (d : Dialect) (t : Table) : Statement → Draft Unit
  | .select s => s.draft d t
  | .count s => s.draft d t
  | .delete s => s.draft d t
  | .insert s => s.draft d t
  | .upsert s => s.draft d t

/-- The statement as SQL text with its parameters. -/
def compile (d : Dialect) (t : Table) (s : Statement) : Except StatementError Query :=
  (s.draft d t).query d

end Statement

end DocumentQuery
