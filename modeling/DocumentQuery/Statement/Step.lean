import DocumentQuery.Statement.Sql

/-!
# Writing step by step

A statement can also be written by hand, step by step. Each step is one of the drafts that whole
statements are made of; it is put behind what is written already, up to its fault if it has one,
and the next step goes on from there.
-/

namespace DocumentQuery
set_option autoImplicit false

/-- A step of writing a statement on a table. -/
inductive Step where
  | raw (sql : String)
  /-- The name of the table. -/
  | table
  | name (identifier : String)
  | names (identifiers : List String)
  | placeholder (p : Parameter)
  | placeholders (ps : List Parameter)
  /-- The insertion of a row of values. -/
  | row (values : Assignments)
  | paging (limit : Limit) (offset : Offset)
  | restriction (selection : Selection)
  | condition (node : Node) (nested : Bool)
  | ordering (order : SortOrder)
  /-- A selection of the rows that a deletion is about. -/
  | subselect (columns : String) (s : Delete)
  /-- Asks for the column of a key and writes nothing. -/
  | column (key : Key)
  /-- Asks for the columns of a key and writes nothing. -/
  | columns (key : Key)

/-- What a step answers. -/
inductive Reply where
  | written
  | column (name : String)
  | columns (names : List String)
  deriving DecidableEq, Inhabited

namespace Step

/-- The draft of a step without an answer of its own. -/
def written (draft : Draft Unit) : Draft Reply := do
  draft
  pure .written

def draft (d : Dialect) (t : Table) : Step → Draft Reply
  | .raw sql => written (.raw sql)
  | .table => written (.name t.name)
  | .name identifier => written (.name identifier)
  | .names identifiers => written (.names identifiers)
  | .placeholder p => written (.placeholder p)
  | .placeholders ps => written (.placeholders ps)
  | .row values => written (Insert.valuesDraft t values)
  | .paging limit offset => written (.paging d limit offset)
  | .restriction selection => written (.restriction t selection)
  | .condition node nested => written (.condition t nested node)
  | .ordering order => written (.ordering t order)
  | .subselect list s => written (s.subselect d t list)
  | .column key => .lift ((t.column key).map .column)
  | .columns key => .lift ((t.columnsOf key).map .columns)

/-- A step behind what is written already: what is written then, and the step's answer. -/
def run (d : Dialect) (t : Table) (before : Query) (step : Step) :
    Query × Except StatementError Reply :=
  let draft := step.draft d t
  (before ++ Query.ofPieces d draft.pieces, draft.outcome)

/-- Steps one behind the other: what is written after each of them, and its answer. -/
def runAll (d : Dialect) (t : Table) (before : Query) :
    List Step → List (Query × Except StatementError Reply)
  | [] => []
  | step :: rest =>
    let after := step.run d t before
    after :: runAll d t after.1 rest

end Step

end DocumentQuery
