import DocumentQuery.Draft
import DocumentQuery.Selection
import DocumentQuery.Table

/-!
# Conditions

The SQL condition of a selection. Conjunctions and disjunctions inside another are put in
parentheses when they join at least two conditions; an empty conjunction is a true comparison and
an empty disjunction a false one. The comparison with a set is a membership test of its literals,
joined with the comparisons among its members.
-/

namespace DocumentQuery
set_option autoImplicit false

namespace Element

def literal? : Element → Option Parameter
  | .literal p => some p
  | .predicate .. => none

def predicate? : Element → Option (Operator × Parameter)
  | .literal _ => none
  | .predicate op p => some (op, p)

end Element

namespace Draft

/-- A column compared with one value. Equality with null is a test of its own and binds nothing. -/
def compared (column : String) (op : Operator) (p : Parameter) : Draft Unit := do
  name column
  match op, p with
  | .eq, .null => raw " IS NULL"
  | .ne, .null => raw " IS NOT NULL"
  | _, _ => do
    raw " "
    raw op.sql
    raw " "
    placeholder p

/-- A column tested for membership in a list of values. -/
def listed (column test : String) (ps : List Parameter) : Draft Unit := do
  name column
  raw test
  placeholders ps
  raw ")"

/-- A column compared with the members of a set. The negation of a set with comparisons among
its members is written in front of the whole. -/
def inSet (column : String) (negated : Bool) (elements : List Element) : Draft Unit :=
  let literals := elements.filterMap Element.literal?
  match elements.filterMap Element.predicate? with
  | [] => listed column (if negated then " NOT IN (" else " IN (") literals
  | predicates => do
    let tests :=
      (if literals.isEmpty then [] else [listed column " IN (" literals])
        ++ predicates.map fun (op, p) => compared column op p
    if negated then raw "NOT "
    parenthesized (negated || 1 < tests.length) (separated " OR " tests)

/-- The condition of a comparison. A membership operator with a single value tests for the set of
that value; any other operator with a set tests for membership. -/
def comparison (t : Table) (c : Comparison) : Draft Unit := do
  let column ← lift (t.column c.key)
  match c.operand with
  | .value p =>
    if c.op.isMembership then inSet column (c.op == .noneOf) [.literal p]
    else compared column c.op p
  | .values elements => inSet column (c.op == .noneOf) elements

mutual

/-- The condition of a tree; `nested` tells whether it stands inside another condition. -/
def condition (t : Table) (nested : Bool) : Node → Draft Unit
  | .comparison c => comparison t c
  | .and [] => raw "1 = 1"
  | .or [] => raw "1 = 0"
  | .and children =>
    parenthesized (nested && 1 < children.length) (separated " AND " (conditions t children))
  | .or children =>
    parenthesized (nested && 1 < children.length) (separated " OR " (conditions t children))

/-- The conditions of the trees inside another condition. -/
def conditions (t : Table) : List Node → List (Draft Unit)
  | [] => []
  | child :: rest => condition t true child :: conditions t rest

end

/-- The clause that restricts a statement to a selection, absent when it selects every row. -/
def restriction (t : Table) : Selection → Draft Unit
  | .everything => pure ()
  | .matching node => do
    raw " WHERE "
    condition t false node

end Draft

end DocumentQuery
