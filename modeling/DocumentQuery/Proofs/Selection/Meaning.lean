import DocumentQuery.Proofs.Truth
import DocumentQuery.Selection

/-!
# Meaning of selections

What a tree of comparisons says of a row. A row gives every key its value, perhaps null; how two
values that are not null compare is left to the database. The selections that join others mean
the conjunction and the disjunction of what they join, although they drop or absorb some parts.
-/

namespace DocumentQuery
set_option autoImplicit false

/-- The tests that a database has for two values. -/
inductive Relation where
  | equal
  | less
  | atMost
  | greater
  | atLeast
  | like
  deriving DecidableEq, Inhabited

/-- Which values, none of them null, stand in which relation. Nothing is assumed of it: what is
equal, in what order and matched by which pattern is the matter of the database. -/
abbrev Comparer := Relation → Parameter → Parameter → Bool

/-- A relation with null on either side is unknown. -/
def Comparer.truth (cmp : Comparer) (r : Relation) (x p : Parameter) : Truth :=
  if x.isNull || p.isNull then .unknown else .ofBool (cmp r x p)

/-- The values of a row. -/
abbrev Row (Name : Type) := Name → Parameter

/-- What an operator with one value says of a column's value `x`. Equality with null asks whether
the column is null, and membership in a set of one is plain equality. -/
def Operator.holds (cmp : Comparer) (x : Parameter) (op : Operator) (p : Parameter) : Truth :=
  match op with
  | .eq => if p.isNull then .ofBool x.isNull else cmp.truth .equal x p
  | .ne => if p.isNull then .ofBool !x.isNull else (cmp.truth .equal x p).not
  | .gt => cmp.truth .greater x p
  | .ge => cmp.truth .atLeast x p
  | .lt => cmp.truth .less x p
  | .le => cmp.truth .atMost x p
  | .like => cmp.truth .like x p
  | .notLike => (cmp.truth .like x p).not
  | .oneOf => cmp.truth .equal x p
  | .noneOf => (cmp.truth .equal x p).not

/-- What a member of a set says of a column's value: a literal asks for plain equality, which is
unknown for null. -/
def Element.holds (cmp : Comparer) (x : Parameter) : Element → Truth
  | .literal p => cmp.truth .equal x p
  | .predicate op p => op.holds cmp x p

/-- A set is a disjunction of its members, and its exclusion the negation of that. -/
def Comparison.holds (cmp : Comparer) (row : Row Key) (c : Comparison) : Truth :=
  match c.operand with
  | .value p => c.op.holds cmp (row c.key) p
  | .values elements =>
    let found := Truth.any (elements.map (Element.holds cmp (row c.key)))
    if c.op = .noneOf then found.not else found

namespace Node

mutual

def holds (cmp : Comparer) (row : Row Key) : Node → Truth
  | .comparison c => c.holds cmp row
  | .and children => Truth.all (holdsEach cmp row children)
  | .or children => Truth.any (holdsEach cmp row children)

def holdsEach (cmp : Comparer) (row : Row Key) : List Node → List Truth
  | [] => []
  | child :: rest => holds cmp row child :: holdsEach cmp row rest

end

theorem holdsEach_eq_map (cmp : Comparer) (row : Row Key) (nodes : List Node) :
    holdsEach cmp row nodes = nodes.map (holds cmp row) := by
  induction nodes with
  | nil => rfl
  | cons child rest ih => rw [holdsEach, ih, List.map_cons]

end Node

namespace Selection

variable (cmp : Comparer) (row : Row Key)

def holds : Selection → Truth
  | .everything => .yes
  | .matching node => node.holds cmp row

@[simp] theorem holds_comparing (c : Comparison) :
    (comparing c).holds cmp row = c.holds cmp row := rfl

/-- The nodes of selections, joined by `and`, are as true as the selections: one that selects
everything has no node and is true. -/
theorem all_holds_nodes (parts : List Selection) :
    Truth.all ((parts.filterMap node?).map (Node.holds cmp row))
      = Truth.all (parts.map (holds cmp row)) := by
  induction parts with
  | nil => rfl
  | cons part rest ih =>
    cases part with
    | everything => simpa [List.filterMap_cons, node?, holds] using ih
    | matching node => simp [node?, holds, ih]

/-- Dropping the parts of a conjunction that select everything keeps its meaning. -/
theorem holds_conjunction (parts : List Selection) :
    (conjunction parts).holds cmp row = Truth.all (parts.map (holds cmp row)) := by
  rw [← all_holds_nodes]
  unfold conjunction
  cases h : parts.filterMap node? with
  | nil => rfl
  | cons node rest => simp [holds, Node.holds, Node.holdsEach_eq_map]

/-- Where no selection selects everything, each has a node. -/
theorem map_holds_nodes {parts : List Selection} (h : parts.any isEverything = false) :
    (parts.filterMap node?).map (Node.holds cmp row) = parts.map (holds cmp row) := by
  induction parts with
  | nil => rfl
  | cons part rest ih =>
    cases part with
    | everything => simp [isEverything] at h
    | matching node =>
      have hrest : rest.any isEverything = false := by simpa [isEverything] using h
      simp [node?, holds, ih hrest]

/-- A disjunction absorbed by a part that selects everything keeps its meaning. -/
theorem holds_disjunction (parts : List Selection) :
    (disjunction parts).holds cmp row = Truth.any (parts.map (holds cmp row)) := by
  unfold disjunction
  cases h : parts.any isEverything with
  | false => simp [holds, Node.holds, Node.holdsEach_eq_map, map_holds_nodes cmp row h]
  | true =>
    obtain ⟨part, hmem, heq⟩ := List.any_eq_true.1 h
    have hyes : part.holds cmp row = .yes := by
      cases part with
      | everything => rfl
      | matching node => simp [isEverything] at heq
    have hfound : Truth.yes ∈ parts.map (holds cmp row) := List.mem_map.2 ⟨part, hmem, hyes⟩
    rw [Truth.any_of_mem_yes hfound]
    rfl

end Selection

end DocumentQuery
