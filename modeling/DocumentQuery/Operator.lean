/-!
# Comparison operators

The ten operators of a selector, with their names in documents, in the tagged notation and in
SQL.
-/

namespace DocumentQuery
set_option autoImplicit false

/-- What a comparison asks of a column. -/
inductive Operator where
  | eq
  | ne
  | gt
  | ge
  | lt
  | le
  | like
  | notLike
  | oneOf
  | noneOf
  deriving DecidableEq, Inhabited

namespace Operator

def all : List Operator := [.eq, .ne, .gt, .ge, .lt, .le, .like, .notLike, .oneOf, .noneOf]

/-- The name in a selector. -/
def name : Operator → String
  | .eq => "$eq"
  | .ne => "$ne"
  | .gt => "$gt"
  | .ge => "$gte"
  | .lt => "$lt"
  | .le => "$lte"
  | .like => "$like"
  | .notLike => "$nlike"
  | .oneOf => "$in"
  | .noneOf => "$nin"

/-- The tag in the tagged notation. -/
def tag : Operator → String
  | .eq => "EQ"
  | .ne => "NE"
  | .gt => "GT"
  | .ge => "GTE"
  | .lt => "LT"
  | .le => "LTE"
  | .like => "LIKE"
  | .notLike => "NLIKE"
  | .oneOf => "IN"
  | .noneOf => "NIN"

def sql : Operator → String
  | .eq => "="
  | .ne => "!="
  | .gt => ">"
  | .ge => ">="
  | .lt => "<"
  | .le => "<="
  | .like => "LIKE"
  | .notLike => "NOT LIKE"
  | .oneOf => "IN"
  | .noneOf => "NOT IN"

/-- Membership operators take a set, all others a single value. -/
def isMembership : Operator → Bool
  | .oneOf | .noneOf => true
  | _ => false

/-- The operator of a name. -/
def ofName? (s : String) : Option Operator := all.find? fun op => op.name == s

theorem mem_all (op : Operator) : op ∈ all := by cases op <;> decide

@[simp] theorem ofName?_name (op : Operator) : ofName? op.name = some op := by
  cases op <;> decide

end Operator

end DocumentQuery
