import DocumentQuery.DocumentError
import DocumentQuery.Key

/-!
# Projections

Which columns a query returns. A document flags names with 1 to include them and with 0 or -1 to
exclude them; where any name is included, the excluded ones say nothing more.
-/

namespace DocumentQuery
set_option autoImplicit false

/-- The columns a query returns. -/
inductive Projection where
  | everything
  | including (keys : List Key)
  | excluding (keys : List Key)
  deriving DecidableEq, Inhabited

namespace Projection

/-- A name and whether it is included. The name is judged before its flag. -/
def flagOfEntry : String × Value → Except DocumentError (Key × Bool)
  | (name, flag) =>
    if Key.isClauseName name then
      match flag.integer? with
      | some 1 => .ok (Key.ofName name, true)
      | some 0 | some (-1) => .ok (Key.ofName name, false)
      | _ => .error (.projection name flag.described)
    else
      .error (.columnName name)

/-- The projection of flagged keys. -/
def ofFlags (flags : List (Key × Bool)) : Projection :=
  match (flags.filter (·.2)).map (·.1), flags.map (·.1) with
  | [], [] => .everything
  | [], keys => .excluding keys
  | keys, _ => .including keys

/-- The projection that a document describes. -/
def ofValue : Value → Except DocumentError Projection
  | .null => .ok .everything
  | .object entries => (entries.mapM flagOfEntry).map ofFlags
  | other => .error (.argument "object or null" other.kind)

end Projection

end DocumentQuery
