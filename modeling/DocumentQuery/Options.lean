import DocumentQuery.Clause.Assignments
import DocumentQuery.Selection.Selector
import DocumentQuery.Statement

/-!
# Options of a call

A call gives the parts of its statement as one document. Each kind of statement has its fields,
and a field that is not given counts as null.
-/

namespace DocumentQuery
set_option autoImplicit false

/-- The kinds of call. -/
inductive Method where
  | select
  | count
  | delete
  | insert
  | upsert
  deriving DecidableEq, Inhabited

/-- The fields of a call's options, in order. -/
def Method.fields : Method → List String
  | .select => ["columns", "selector", "order", "limit", "offset"]
  | .count => ["selector", "limit", "offset"]
  | .delete => ["selector", "order", "limit"]
  | .insert => ["values"]
  | .upsert => ["values", "updateColumns", "updateSelector"]

/-- What an options document gives for a field. -/
def Document.field (options : Document) (name : String) : Value :=
  (Entries.get? name options).getD .null

def Select.ofOptions (options : Document) : Except DocumentError Select := do
  let projection ← Projection.ofValue (options.field "columns")
  let selection ← Selection.ofValue (options.field "selector")
  let order ← SortOrder.ofValue (options.field "order")
  let limit ← Limit.ofValue (options.field "limit")
  let offset ← Offset.ofValue (options.field "offset")
  .ok { projection, selection, order, limit, offset }

def Count.ofOptions (options : Document) : Except DocumentError Count := do
  let selection ← Selection.ofValue (options.field "selector")
  let limit ← Limit.ofValue (options.field "limit")
  let offset ← Offset.ofValue (options.field "offset")
  .ok { selection, limit, offset }

def Delete.ofOptions (options : Document) : Except DocumentError Delete := do
  let selection ← Selection.ofValue (options.field "selector")
  let order ← SortOrder.ofValue (options.field "order")
  let limit ← Limit.ofValue (options.field "limit")
  .ok { selection, order, limit }

def Insert.ofOptions (options : Document) : Except DocumentError Insert := do
  let values ← Assignments.ofValue (options.field "values")
  .ok { values }

/-- The selector of an upsert, where one is given. -/
def Upsert.selectionOfValue (v : Value) : Except DocumentError (Option Selection) :=
  if v.isNull then .ok none else (Selection.ofValue v).map some

def Upsert.ofOptions (options : Document) : Except DocumentError Upsert := do
  let updateSelection ← Upsert.selectionOfValue (options.field "updateSelector")
  let values ← Assignments.ofValue (options.field "values")
  let updateColumns ← ColumnList.ofValue (options.field "updateColumns")
  .ok { values, updateColumns, updateSelection }

/-- The statement that a call's options describe. -/
def Statement.ofOptions (m : Method) (options : Document) : Except DocumentError Statement :=
  match m with
  | .select => (Select.ofOptions options).map .select
  | .count => (Count.ofOptions options).map .count
  | .delete => (Delete.ofOptions options).map .delete
  | .insert => (Insert.ofOptions options).map .insert
  | .upsert => (Upsert.ofOptions options).map .upsert

end DocumentQuery
