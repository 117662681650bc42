import DocumentQuery.Key
import DocumentQuery.Operator
import DocumentQuery.Parameter

/-!
# Selections

Which rows a statement is about: all of them, or those that satisfy a tree of comparisons. The
tree may be built by hand, so groups and sets may be empty and any operator may carry either form
of operand.
-/

namespace DocumentQuery
set_option autoImplicit false

/-- A member of a set operand: a literal, or a comparison of its own with the same column. -/
inductive Element where
  | literal (p : Parameter)
  | predicate (op : Operator) (p : Parameter)
  deriving DecidableEq, Inhabited

/-- What a column is compared with. -/
inductive Operand where
  | value (p : Parameter)
  | values (elements : List Element)
  deriving DecidableEq, Inhabited

structure Comparison where
  op : Operator
  key : Key
  operand : Operand
  deriving DecidableEq, Inhabited

/-- A tree of comparisons. -/
inductive Node where
  | comparison (c : Comparison)
  | and (children : List Node)
  | or (children : List Node)
  deriving Inhabited

/-- The rows a statement is about. -/
inductive Selection where
  | everything
  | matching (node : Node)
  deriving Inhabited

namespace Selection

def isEverything : Selection → Bool
  | .everything => true
  | .matching _ => false

def node? : Selection → Option Node
  | .everything => none
  | .matching node => some node

def comparing (c : Comparison) : Selection := .matching (.comparison c)

/-- The rows in all of the selections: one that selects everything adds nothing. -/
def conjunction (parts : List Selection) : Selection :=
  match parts.filterMap node? with
  | [] => .everything
  | nodes => .matching (.and nodes)

/-- The rows in any of the selections: one that selects everything leaves no choice. -/
def disjunction (parts : List Selection) : Selection :=
  if parts.any isEverything then .everything else .matching (.or (parts.filterMap node?))

end Selection

end DocumentQuery
