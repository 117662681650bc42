import DocumentQuery.Draft
import DocumentQuery.Proofs.Selection.Meaning
import DocumentQuery.Proofs.Sql.Token

/-!
# Conditions of SQL

How a database reads the text of a condition, and what the condition says of a row. The reader
takes the tokens one by one and the parameters in the order of their placeholders. NOT binds
tighter than AND and AND tighter than OR: of each pair of parentheses that is still open, the
reader keeps what OR joins so far, what AND joins behind the last OR, and how often the operand to
come is negated.
-/

namespace DocumentQuery
set_option autoImplicit false

namespace Sql

/-! ## Conditions -/

/-- A condition, its parameters bound. -/
inductive Condition where
  /-- The equality of two numbers in the text. -/
  | numbers (n m : Nat)
  | related (column : String) (r : Relation) (p : Parameter)
  | isNull (column : String)
  | within (column : String) (ps : List Parameter)
  | not (c : Condition)
  | and (left right : Condition)
  | or (left right : Condition)
  deriving DecidableEq, Inhabited

namespace Condition

/-- What a condition says of a row: membership is the disjunction of equality with each value. -/
def holds (cmp : Comparer) (row : Row String) : Condition → Truth
  | .numbers n m => .ofBool (n == m)
  | .related column r p => cmp.truth r (row column) p
  | .isNull column => .ofBool (row column).isNull
  | .within column ps => Truth.any (ps.map (cmp.truth .equal (row column)))
  | .not c => (c.holds cmp row).not
  | .and left right => (left.holds cmp row).and (right.holds cmp row)
  | .or left right => (left.holds cmp row).or (right.holds cmp row)

/-- A test, or its negation. -/
def test (negated : Bool) (c : Condition) : Condition := if negated then .not c else c

/-- What an operator asks of a column and a value, in the relations of SQL. -/
def compared (column : String) (p : Parameter) : Operator → Condition
  | .eq | .oneOf => .related column .equal p
  | .ne | .noneOf => .not (.related column .equal p)
  | .gt => .related column .greater p
  | .ge => .related column .atLeast p
  | .lt => .related column .less p
  | .le => .related column .atMost p
  | .like => .related column .like p
  | .notLike => .not (.related column .like p)

/-- Comparisons of SQL mean what the operators do, equality with null apart. -/
theorem holds_compared (cmp : Comparer) (row : Row String) (column : String) {op : Operator}
    {p : Parameter} (heq : op = .eq → p ≠ .null) (hne : op = .ne → p ≠ .null) :
    (compared column p op).holds cmp row = op.holds cmp (row column) p := by
  have hvalue : p ≠ .null → p.isNull = false := by
    intro h
    cases p with
    | null => exact absurd rfl h
    | _ => rfl
  cases op with
  | eq => simp [compared, holds, Operator.holds, hvalue (heq rfl)]
  | ne => simp [compared, holds, Operator.holds, hvalue (hne rfl)]
  | _ => rfl

theorem holds_test (cmp : Comparer) (row : Row String) (negated : Bool) (c : Condition) :
    (test negated c).holds cmp row
      = if negated then (c.holds cmp row).not else c.holds cmp row := by
  cases negated <;> rfl

def negated : Nat → Condition → Condition
  | 0, c => c
  | n + 1, c => negated n (.not c)

end Condition

/-- The relation that a sign asks for, and whether it negates it. -/
def relation? (sign : String) : Option (Relation × Bool) :=
  match sign with
  | "=" => some (.equal, false)
  | "!=" => some (.equal, true)
  | "<" => some (.less, false)
  | "<=" => some (.atMost, false)
  | ">" => some (.greater, false)
  | ">=" => some (.atLeast, false)
  | _ => none

/-! ## The reader -/

/-- What has been read between two parentheses, in front of the next operand. -/
structure Level where
  /-- What OR joins so far. -/
  alternatives : Option Condition := none
  /-- What AND joins behind the last OR. -/
  factors : Option Condition := none
  /-- How many NOTs stand in front of the operand. -/
  negations : Nat := 0
  deriving DecidableEq, Inhabited

namespace Level

/-- The conjunction that an operand completes. -/
def conjoin (level : Level) (c : Condition) : Condition :=
  match level.factors with
  | none => c.negated level.negations
  | some left => .and left (c.negated level.negations)

/-- The disjunction that a conjunction completes. -/
def disjoin (level : Level) (c : Condition) : Condition :=
  match level.alternatives with
  | none => c
  | some left => .or left c

end Level

/-- What the reader stands behind. -/
inductive Mode where
  /-- An operand comes next. -/
  | operand
  /-- A conjunction that ends here, unless AND goes on with it. -/
  | operator (c : Condition)
  | number (n : Nat)
  | equation (n : Nat)
  | column (name : String) (negated : Bool)
  | nullity (name : String) (negated : Bool)
  | relation (name : String) (r : Relation) (negated : Bool)
  | membership (name : String) (negated : Bool)
  /-- The opening parenthesis or a comma of a list; its values so far. -/
  | member (name : String) (negated : Bool) (read : List Parameter)
  | listed (name : String) (negated : Bool) (read : List Parameter)
  deriving DecidableEq, Inhabited

/-- A reader: what it stands behind, what it read between the innermost parentheses and between
those around them, and the parameters that are not bound yet. -/
structure Reader where
  mode : Mode := .operand
  level : Level := {}
  outer : List Level := []
  parameters : List Parameter
  deriving DecidableEq, Inhabited

namespace Reader

/-- An operand is complete. -/
def complete (s : Reader) (c : Condition) : Reader :=
  { s with
    mode := .operator (s.level.conjoin c), level := { alternatives := s.level.alternatives } }

/-- The next parameter, and the reader without it. -/
def bind? (s : Reader) : Option (Parameter × Reader) :=
  match s.parameters with
  | [] => none
  | p :: rest => some (p, { s with parameters := rest })

/-- A token in front of an operand. -/
def atOperand (s : Reader) : Token → Option Reader
  | .keyword .not =>
    some { s with level := { s.level with negations := s.level.negations + 1 } }
  | .opening => some { s with level := {}, outer := s.level :: s.outer }
  | .number n => some { s with mode := .number n }
  | .name column => some { s with mode := .column column false }
  | _ => none

/-- A token behind a conjunction. -/
def atOperator (s : Reader) (c : Condition) : Token → Option Reader
  | .keyword .and => some { s with mode := .operand, level := { s.level with factors := some c } }
  | .keyword .or =>
    some { s with mode := .operand, level := { alternatives := some (s.level.disjoin c) } }
  | .closing =>
    match s.outer with
    | [] => none
    | level :: outer =>
      some (complete { s with level := level, outer := outer } (s.level.disjoin c))
  | _ => none

/-- A token behind a column. -/
def atColumn (s : Reader) (name : String) (negated : Bool) : Token → Option Reader
  | .keyword .not => if negated then none else some { s with mode := .column name true }
  | .keyword .is => if negated then none else some { s with mode := .nullity name false }
  | .keyword .like => some { s with mode := .relation name .like negated }
  | .keyword .oneOf => some { s with mode := .membership name negated }
  | .sign sign =>
    if negated then none
    else (relation? sign).map fun (r, unequal) => { s with mode := .relation name r unequal }
  | _ => none

def step (s : Reader) (token : Token) : Option Reader :=
  match s.mode, token with
  | .operand, token => s.atOperand token
  | .operator c, token => s.atOperator c token
  | .number n, .sign "=" => some { s with mode := .equation n }
  | .equation n, .number m => some (s.complete (.numbers n m))
  | .column name negated, token => s.atColumn name negated token
  | .nullity name false, .keyword .not => some { s with mode := .nullity name true }
  | .nullity name negated, .keyword .null => some (s.complete (.test negated (.isNull name)))
  | .relation name r negated, .placeholder =>
    s.bind?.map fun (p, s) => s.complete (.test negated (.related name r p))
  | .membership name negated, .opening => some { s with mode := .member name negated [] }
  | .member name negated read, .placeholder =>
    s.bind?.map fun (p, s) => { s with mode := .listed name negated (read ++ [p]) }
  | .listed name negated read, .comma => some { s with mode := .member name negated read }
  | .listed name negated read, .closing => some (s.complete (.test negated (.within name read)))
  | _, _ => none

/-- The reader behind a list of tokens, if they go on with what it read. -/
def run (s : Reader) : List Token → Option Reader
  | [] => some s
  | token :: rest => (s.step token).bind fun s => s.run rest

/-- The reader behind some text that begins with a token. -/
def reads (d : Dialect) (s : Reader) (cs : List Char) : Option Reader := s.run (lexFrom d .blank cs)

/-- The condition that is read where every parenthesis is closed and every parameter bound. -/
def condition? (s : Reader) : Option Condition :=
  match s.mode, s.outer, s.parameters with
  | .operator c, [], [] => some (s.level.disjoin c)
  | _, _, _ => none

end Reader

/-- The condition that a text is, its i-th placeholder bound to the i-th parameter. -/
def read? (d : Dialect) (q : Query) : Option Condition :=
  (Reader.run { parameters := q.parameters } (lex d q.sql)).bind Reader.condition?

/-- AND binds tighter than OR, and NOT tighter than AND. -/
example :
    read? .postgres ⟨"1 = 0 OR NOT \"a\" = ? AND \"b\" IS NULL", [.int 5]⟩ =
      some (.or (.numbers 1 0) (.and (.not (.related "a" .equal (.int 5))) (.isNull "b"))) := by
  decide

/-! ## Reading texts

Each text of a condition moves the reader from one state to the next, whatever the state holds and
whatever text follows.
-/

namespace Reader

variable {d : Dialect} (level : Level) (outer : List Level) (ps : List Parameter)
  (rest : List Char)

/-- Behind a conjunction's word the operand in front is one of the factors. -/
theorem reads_and (c : Condition) :
    reads d ⟨.operator c, level, outer, ps⟩ (" AND ".toList ++ rest)
      = reads d ⟨.operand, { level with factors := some c }, outer, ps⟩ rest := by
  cases d <;> rfl

/-- Behind a choice's word the factors in front are one of the alternatives. -/
theorem reads_or (c : Condition) :
    reads d ⟨.operator c, level, outer, ps⟩ (" OR ".toList ++ rest)
      = reads d ⟨.operand, { alternatives := some (level.disjoin c) }, outer, ps⟩ rest := by
  cases d <;> rfl

/-- A negation waits for the operand behind it. -/
theorem reads_not :
    reads d ⟨.operand, level, outer, ps⟩ ("NOT ".toList ++ rest)
      = reads d ⟨.operand, { level with negations := level.negations + 1 }, outer, ps⟩ rest := by
  cases d <;> rfl

/-- A parenthesis opens a level of its own. -/
theorem reads_opening :
    reads d ⟨.operand, level, outer, ps⟩ ("(".toList ++ rest)
      = reads d ⟨.operand, {}, level :: outer, ps⟩ rest := by
  cases d <;> rfl

/-- A closing parenthesis makes its level an operand of the level around it. -/
theorem reads_closing (inner : Level) (c : Condition) :
    reads d ⟨.operator c, inner, level :: outer, ps⟩ (")".toList ++ rest)
      = reads d (complete ⟨.operand, level, outer, ps⟩ (inner.disjoin c)) rest := by
  cases d <;> rfl

theorem reads_true (h : EndsWord rest) :
    reads d ⟨.operand, level, outer, ps⟩ ("1 = 1".toList ++ rest)
      = reads d (complete ⟨.operand, level, outer, ps⟩ (.numbers 1 1)) rest := by
  have hlex : lexFrom d .blank ("1 = 1".toList ++ rest)
      = .number 1 :: .sign "=" :: lexFrom d (.word ['1']) rest := by cases d <;> rfl
  rw [reads, hlex, lexFrom_word _ h]
  rfl

theorem reads_false (h : EndsWord rest) :
    reads d ⟨.operand, level, outer, ps⟩ ("1 = 0".toList ++ rest)
      = reads d (complete ⟨.operand, level, outer, ps⟩ (.numbers 1 0)) rest := by
  have hlex : lexFrom d .blank ("1 = 0".toList ++ rest)
      = .number 1 :: .sign "=" :: lexFrom d (.word ['0']) rest := by cases d <;> rfl
  rw [reads, hlex, lexFrom_word _ h]
  rfl

/-- A column in front of a blank. -/
theorem reads_column {column : String} (h : d.quote ∉ column.toList)
    (hrest : rest.head? = some ' ') :
    reads d ⟨.operand, level, outer, ps⟩ ((d.quoted column).toList ++ rest)
      = reads d ⟨.column column false, level, outer, ps⟩ rest := by
  have hquote : rest.head? ≠ some d.quote := by
    rw [hrest]
    cases d <;> decide
  rw [reads, lexFrom_quoted h hquote]
  rfl

variable (column : String)

/-- A column with the words of the test is a test for null. -/
theorem reads_isNull (h : EndsWord rest) :
    reads d ⟨.column column false, level, outer, ps⟩ (" IS NULL".toList ++ rest)
      = reads d (complete ⟨.operand, level, outer, ps⟩ (.isNull column)) rest := by
  have hlex : lexFrom d .blank (" IS NULL".toList ++ rest)
      = .keyword .is :: lexFrom d (.word "NULL".toList.reverse) rest := by cases d <;> rfl
  rw [reads, hlex, lexFrom_word _ h]
  rfl

/-- A column with the negated words is the negation of that test. -/
theorem reads_isNotNull (h : EndsWord rest) :
    reads d ⟨.column column false, level, outer, ps⟩ (" IS NOT NULL".toList ++ rest)
      = reads d (complete ⟨.operand, level, outer, ps⟩ (.not (.isNull column))) rest := by
  have hlex : lexFrom d .blank (" IS NOT NULL".toList ++ rest)
      = .keyword .is :: .keyword .not :: lexFrom d (.word "NULL".toList.reverse) rest := by
    cases d <;> rfl
  rw [reads, hlex, lexFrom_word _ h]
  rfl

/-- An operator and its placeholder. -/
theorem reads_compared {op : Operator} (h : op.isMembership = false) (p : Parameter) :
    reads d ⟨.column column false, level, outer, p :: ps⟩
        (" ".toList ++ (op.sql.toList ++ (" ".toList ++ '?' :: rest)))
      = reads d (complete ⟨.operand, level, outer, ps⟩ (.compared column p op)) rest := by
  cases op with
  | oneOf => cases h
  | noneOf => cases h
  | _ => cases d <;> rfl

/-- The opening of a list. -/
theorem reads_membership (negated : Bool) :
    reads d ⟨.column column false, level, outer, ps⟩
        ((if negated then " NOT IN (" else " IN (").toList ++ rest)
      = reads d ⟨.member column negated [], level, outer, ps⟩ rest := by
  cases d <;> cases negated <;> rfl

/-- A value of a list behind others. -/
theorem reads_member (negated : Bool) (read : List Parameter) (p : Parameter) :
    reads d ⟨.member column negated read, level, outer, p :: ps⟩ ('?' :: rest)
      = reads d ⟨.listed column negated (read ++ [p]), level, outer, ps⟩ rest := by
  cases d <;> rfl

theorem reads_comma (negated : Bool) (read : List Parameter) :
    reads d ⟨.listed column negated read, level, outer, ps⟩ (", ".toList ++ rest)
      = reads d ⟨.member column negated read, level, outer, ps⟩ rest := by
  cases d <;> rfl

theorem reads_listed (negated : Bool) (read : List Parameter) :
    reads d ⟨.listed column negated read, level, outer, ps⟩ (")".toList ++ rest)
      = reads d
          (complete ⟨.operand, level, outer, ps⟩ (.test negated (.within column read))) rest := by
  cases d <;> rfl

end Reader

end Sql

end DocumentQuery
