import DocumentQuery.Clause.Projection
import DocumentQuery.StatementError

/-!
# Tables

What is known of a table: the columns of its primary key, which resolve `$id`, and perhaps its
full column list, which an excluding projection needs.
-/

namespace DocumentQuery
set_option autoImplicit false

/-- A table; unless declared otherwise its primary key is `id` and its columns are unknown. -/
structure Table where
  name : String
  primaryKey : List String := ["id"]
  columns : Option (List String) := none
  deriving DecidableEq, Inhabited

namespace Table

/-- The one column that a key stands for as an operand. -/
def column (t : Table) : Key → Except StatementError String
  | .column name => .ok name
  | .id =>
    match t.primaryKey with
    | [only] => .ok only
    | [] => .error (.missingKey t.name)
    | _ => .error (.compositeKey t.name)

/-- The columns that a key stands for in a list: for the primary key, all of its columns. -/
def columnsOf (t : Table) : Key → Except StatementError (List String)
  | .column name => .ok [name]
  | .id => if t.primaryKey.isEmpty then .error (.missingKey t.name) else .ok t.primaryKey

/-- The columns that keys stand for, key by key. -/
def columnsOfAll (t : Table) (keys : List Key) : Except StatementError (List String) :=
  (keys.mapM t.columnsOf).map List.flatten

end Table

/-- The columns that a projection leaves of a table, none for all of them unnamed. Included
columns stand at their first mention; excluding needs the table's columns and must leave one. -/
def Projection.columns (t : Table) : Projection → Except StatementError (Option (List String))
  | .everything => .ok none
  | .including keys => (t.columnsOfAll keys).map fun names => some names.eraseDups
  | .excluding keys =>
    match t.columns with
    | none => .error (.unknownColumns t.name)
    | some known => do
      let excluded ← t.columnsOfAll keys
      match known.filter (!excluded.contains ·) with
      | [] => .error (.emptyProjection t.name)
      | left => .ok (some left)

end DocumentQuery
