import DocumentQuery.DocumentError
import DocumentQuery.Selection

/-!
# Operands of comparisons

Reading what stands behind an operator. Comparisons of order take any scalar, equality takes null
too, patterns take text, and membership takes a non-empty array whose members are scalars or
single comparisons.
-/

namespace DocumentQuery
set_option autoImplicit false

namespace Operator

/-- Whether a value can stand behind an operator that takes a single value. -/
def takes (op : Operator) (v : Value) : Bool :=
  match op with
  | .eq | .ne => v.isNull || v.isScalar
  | .like | .notLike => v.kind = .string
  | _ => v.isScalar

/-- What an operator takes, in words. -/
def expects : Operator → String
  | .eq | .ne => "number, string, boolean, date, buffer or null"
  | .like | .notLike => "string"
  | _ => "number, string, boolean, date or buffer"

/-- The parameter for an operator that takes a single value. -/
def parameter (op : Operator) (v : Value) : Except DocumentError Parameter :=
  match if op.takes v then v.parameter? else none with
  | some p => .ok p
  | none => .error (.operand op.name op.expects v.kind)

end Operator

namespace Element

/-- A member of the set behind `op`: a scalar, or an object with one comparison operator. A null
cannot be a member, and neither can another set. -/
def ofValue (op : Operator) (item : Value) : Except DocumentError Element :=
  let misplaced : DocumentError :=
    .operand op.name "number, string, boolean, date, buffer or operator object" item.kind
  match item with
  | .object [(name, operand)] =>
    match Operator.ofName? name with
    | some inner =>
      if inner.isMembership then .error misplaced
      else (inner.parameter operand).map (.predicate inner)
    | none => .error (.unknownOperator name)
  | .null | .object _ => .error misplaced
  | scalar =>
    match scalar.parameter? with
    | some p => .ok (.literal p)
    | none => .error misplaced

end Element

namespace Operand

/-- The operand of a comparison with `op`. -/
def ofValue (op : Operator) (v : Value) : Except DocumentError Operand :=
  if op.isMembership then
    match v with
    | .array [] => .error (.emptyArray op.name)
    | .array items => (items.mapM (Element.ofValue op)).map .values
    | _ => .error (.operand op.name "non-empty array" v.kind)
  else
    (op.parameter v).map .value

end Operand

/-- The comparison of `key` by `op` with what a document gives. -/
def Comparison.ofValue (op : Operator) (key : Key) (v : Value) : Except DocumentError Comparison :=
  (Operand.ofValue op v).map fun operand => { op, key, operand }

end DocumentQuery
