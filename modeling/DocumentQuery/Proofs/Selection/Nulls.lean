import DocumentQuery.Proofs.Draft.NullTests
import DocumentQuery.Proofs.Statement.Filters

/-!
# Nulls of selectors

Where a document compares with null, told by the document alone: behind equality and inequality, as
the value of a field, and in the comparisons among the members of a set. The main statement is that
each of these nulls is a test for null in the SQL of the document and none of them is bound to a
placeholder, where a bound null would make every comparison unknown.
-/

namespace DocumentQuery
set_option autoImplicit false

/-! ## Nulls of documents -/

/-- The null that a member of a set in a document compares `key` with. -/
def Value.memberNulls (key : Key) : Value → List (Key × Operator)
  | .object [(name, .null)] => ((Operator.ofName? name).map (key, ·)).toList
  | _ => []

/-- The nulls behind an operator: its operand, or those in the members of its set. -/
def Operator.operandNulls (op : Operator) (key : Key) : Value → List (Key × Operator)
  | .null => [(key, op)]
  | .array items => items.flatMap (Value.memberNulls key)
  | _ => []

/-- The nulls that a document compares keys with, in order. A null that is a selector itself asks
nothing and is none of them. -/
def Value.nulls (field : Option Key) (v : Value) : List (Key × Operator) :=
  (v.comparisons field).flatMap fun w => w.op.operandNulls w.key w.operand

/-! ## Comparisons -/

theorem Operator.operandNulls_of_parameter {op : Operator} {v : Value} {p : Parameter}
    (h : v.parameter? = some p) (key : Key) : op.operandNulls key v = op.nulls key p := by
  cases v with
  | array _ | object _ => cases h
  | _ =>
    cases h
    rfl

theorem Element.nulls_of_ofValue {op : Operator} {item : Value} {element : Element}
    (h : ofValue op item = .ok element) (key : Key) :
    element.nulls key = item.memberNulls key := by
  rcases ofValue_eq_ok.1 h with
    ⟨p, hscalar, -, rfl⟩ | ⟨inner, operand, p, rfl, -, hp, rfl⟩
  · cases item with
    | object entries => cases hscalar
    | _ => rfl
  · have hparameter := (Operator.parameter_eq_ok.1 hp).2
    cases operand with
    | array _ | object _ => cases hparameter
    | _ =>
      cases hparameter
      simp [nulls, Operator.nulls, Value.memberNulls, Parameter.isNull]

/-- An accepted comparison compares with the nulls that stand behind its operator. -/
theorem Comparison.nulls_of_ofValue {op : Operator} {key : Key} {v : Value} {c : Comparison}
    (h : ofValue op key v = .ok c) : c.nulls = op.operandNulls key v := by
  obtain ⟨operand, hoperand, rfl⟩ := ofValue_eq_ok.1 h
  rcases Operand.ofValue_eq_ok.1 hoperand with
    ⟨items, elements, -, rfl, -, helements, rfl⟩ | ⟨p, -, hp, rfl⟩
  · change elements.flatMap (Element.nulls key) = items.flatMap (Value.memberNulls key)
    rw [List.flatMap_def, List.flatMap_def, map_eq_of_forall₂
      (helements.imp fun item element hitem => Element.nulls_of_ofValue hitem key)]
  · exact (Operator.operandNulls_of_parameter (Operator.parameter_eq_ok.1 hp).2 key).symm

/-! ## Selections -/

namespace Selection

/-- The tree of an accepted document compares with the nulls of the document. -/
theorem nulls_of_ofSelector {field : Option Key} {v : Value} {sel : Selection}
    (h : ofSelector field v = .ok sel) : sel.nulls = v.nulls field := by
  rw [nulls, Value.nulls, List.flatMap_def, List.flatMap_def, map_eq_of_forall₂
    ((comparisons_of_ofSelector h).imp fun w c hc => Comparison.nulls_of_ofValue hc)]

/-- The text of a statement has the tests of its selection's restriction. -/
theorem tested_of_compile {d : Dialect} {t : Table} {s : Statement} {q : Query} {sel : Selection}
    (hselection : s.selection? = some sel) (h : s.compile d t = .ok q) :
    d.Tested (Piece.nullTests (Draft.restriction t sel).pieces) q.sql := by
  obtain ⟨⟨front, behind, hpieces⟩, -⟩ := Statement.restriction_infix hselection h
  obtain ⟨-, rfl⟩ := Draft.query_eq_ok.1 h
  have hrestriction := Dialect.Tested.ofPieces d (Draft.restriction t sel).pieces
  change d.Tested _ ((Query.ofPieces d (s.draft d t).pieces).sql ++ ";")
  rw [← hpieces, Query.ofPieces_append, Query.ofPieces_append]
  exact ((hrestriction.append_left _).append_right _).append_right _

/-- An accepted document binds no null. Each null that it compares a key with is, in the order of
the document, a test of the key's column by IS NULL or IS NOT NULL. So it is in the text of every
statement with the selection, which binds no null either. -/
theorem nulls_tested {v : Value} {sel : Selection} (h : ofValue v = .ok sel) (d : Dialect)
    {t : Table} (hcompiled : (Draft.restriction t sel).outcome = .ok ()) :
    .null ∉ (Query.ofPieces d (Draft.restriction t sel).pieces).parameters ∧
      List.Forall₂ t.Tests (v.nulls none)
        (Piece.nullTests (Draft.restriction t sel).pieces) ∧
      ∀ (s : Statement) (q : Query), s.selection? = some sel → s.compile d t = .ok q →
        .null ∉ q.parameters ∧
          ∃ tests, List.Forall₂ t.Tests (v.nulls none) tests ∧ d.Tested tests q.sql := by
  have hexpressible : sel.Expressible := expressible_of_ofSelector (by simp) h
  have hnulls : sel.nulls = v.nulls none := nulls_of_ofSelector h
  have hbound : .null ∉ sel.parameters := null_notMem_parameters hexpressible
  have htests : List.Forall₂ t.Tests (v.nulls none)
      (Piece.nullTests (Draft.restriction t sel).pieces) := by
    rw [← hnulls]
    exact (Draft.tests_restriction hexpressible () hcompiled).2
  refine ⟨?_, htests, ?_⟩
  · have hparameters : (Draft.restriction t sel).parameters = sel.parameters :=
      Draft.binds_restriction t sel () hcompiled
    change .null ∉ (Draft.restriction t sel).parameters
    rw [hparameters]
    exact hbound
  · intro s q hselection hcompile
    have hparameters := (Statement.restriction_infix hselection hcompile).2
    rw [hparameters]
    exact ⟨hbound, _, htests, tested_of_compile hselection hcompile⟩

/-- A null under a field, one among the members of a set behind its literal, and one in a choice
that asks nothing. -/
def nullable : Value :=
  .object
    [("a", .null), ("$id", .object [("$nin", .array [.int 1, .object [("$ne", .null)]])]),
      ("$or", .array [.object [("b", .null)], .null])]

/-- Its tree. -/
def nullableTree : Node :=
  .and
    [.comparison ⟨.eq, .column "a", .value .null⟩,
      .comparison ⟨.noneOf, .id, .values [.literal (.int 1), .predicate .ne .null]⟩]

theorem nullable_tested :
    ∃ sel, ofValue nullable = .ok sel ∧
      (Draft.restriction { name := "t" } sel).outcome = .ok () ∧
      .null ∉ (Query.ofPieces .postgres (Draft.restriction { name := "t" } sel).pieces).parameters ∧
      List.Forall₂ (Table.Tests { name := "t" }) [(.column "a", .eq), (.id, .ne)]
        (Piece.nullTests (Draft.restriction { name := "t" } sel).pieces) ∧
      ∃ q, (Statement.delete { selection := sel }).compile .postgres { name := "t" } = .ok q ∧
        .null ∉ q.parameters ∧
        ∃ tests, List.Forall₂ (Table.Tests { name := "t" }) [(.column "a", .eq), (.id, .ne)] tests ∧
          Dialect.postgres.Tested tests q.sql := by
  have hread : ofValue nullable = .ok (.matching nullableTree) := rfl
  have hnulls : nullable.nulls none = [(.column "a", .eq), (.id, .ne)] := by decide
  obtain ⟨hbound, htests, hstatements⟩ :=
    nulls_tested hread .postgres (t := { name := "t" }) (by rfl)
  rw [hnulls] at htests hstatements
  obtain ⟨q, hq⟩ : ∃ q, (Statement.delete { selection := .matching nullableTree }).compile
      .postgres { name := "t" } = .ok q := ⟨_, rfl⟩
  exact ⟨_, hread, by rfl, hbound, htests, q, hq, hstatements (.delete _) q rfl hq⟩

end Selection

end DocumentQuery
