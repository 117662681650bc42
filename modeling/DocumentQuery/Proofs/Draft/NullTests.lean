import DocumentQuery.Proofs.Draft.Condition
import DocumentQuery.Proofs.Selection.Comparisons
import DocumentQuery.Proofs.Selection.Expressible

/-!
# Tests for null

Where a tree compares with null, its condition has a test of the column and no placeholder. The
tests are read off the pieces of a draft, each a column with the words of the test behind it, so a
draft that goes on with neither a test's words nor anything in front of them keeps them as they
are. The main statement is that the tests of a restriction are the nulls of its tree one by one.
-/

namespace DocumentQuery
set_option autoImplicit false

/-! ## Nulls of trees -/

/-- What an operator compares with null, if the value is null. -/
def Operator.nulls {α : Type} (op : Operator) (subject : α) (p : Parameter) : List (α × Operator) :=
  if p.isNull then [(subject, op)] else []

/-- The null that a member of a set compares `subject` with, if it is a comparison with null. -/
def Element.nulls {α : Type} (subject : α) : Element → List (α × Operator)
  | .literal _ => []
  | .predicate op p => op.nulls subject p

/-- The nulls of a set are those of the comparisons among its members. -/
theorem Element.flatMap_nulls {α : Type} (subject : α) (elements : List Element) :
    elements.flatMap (nulls subject)
      = (elements.filterMap predicate?).flatMap fun (op, p) => op.nulls subject p := by
  induction elements with
  | nil => rfl
  | cons element rest ih =>
    rw [List.flatMap_cons, ih]
    cases element <;> rfl

/-- The nulls that an operand compares `subject` with. -/
def Operand.nulls {α : Type} (op : Operator) (subject : α) : Operand → List (α × Operator)
  | .value p => op.nulls subject p
  | .values elements => elements.flatMap (Element.nulls subject)

/-- Of what an operator compares with in a document, only an equality can have a null. -/
theorem Operator.eq_or_ne_of_suits_null {op : Operator} (h : op.Suits .null) :
    op = .eq ∨ op = .ne := by
  cases op with
  | eq => exact .inl rfl
  | ne => exact .inr rfl
  | gt | ge | lt | le => exact absurd rfl h
  | like | notLike =>
    obtain ⟨s, hs⟩ := h
    cases hs
  | oneOf | noneOf => cases h

def Comparison.nulls (c : Comparison) : List (Key × Operator) := c.operand.nulls c.op c.key

/-- The nulls that a tree compares keys with, in order. -/
def Node.nulls (node : Node) : List (Key × Operator) := node.comparisons.flatMap Comparison.nulls

/-- A group compares with the nulls that its parts compare with. -/
theorem Node.nulls_node (k : Connective) (children : List Node) :
    (k.node children).nulls = (children.map nulls).flatten := by
  have hcomparisons : (k.node children).comparisons = comparisonsOfAll children := by
    cases k with
    | and => rw [Connective.node, comparisons]
    | or => rw [Connective.node, comparisons]
  rw [nulls, hcomparisons, comparisonsOfAll_eq_flatMap, List.flatMap_assoc, List.flatMap_def]
  rfl

def Selection.nulls (selection : Selection) : List (Key × Operator) :=
  selection.comparisons.flatMap Comparison.nulls

/-- A null of `nulls` and the test of the column that its key stands for. -/
def Table.Tests (t : Table) (null : Key × Operator) (test : String × Operator) : Prop :=
  t.column null.1 = .ok test.1 ∧ test.2 = null.2

namespace Piece

/-- What the words of a test for null ask: equality with null, or the negation of that. -/
def nullOperator? : Piece → Option Operator
  | .raw sql =>
    if sql = " IS NULL" then some .eq else if sql = " IS NOT NULL" then some .ne else none
  | _ => none

/-- The test that a column and the piece behind it are. -/
def nullTest? : Piece → Piece → Option (String × Operator)
  | .name column, behind => behind.nullOperator?.map (column, ·)
  | _, _ => none

/-- The tests for null among pieces, in order. -/
def nullTests : List Piece → List (String × Operator)
  | [] => []
  | piece :: rest => (rest.head?.bind piece.nullTest?).toList ++ nullTests rest

/-- Pieces that do not begin with the words of a test. -/
def Opens (pieces : List Piece) : Prop := ∀ piece ∈ pieces.head?, piece.nullOperator? = none

theorem nullTest?_eq_none {piece behind : Piece} (h : behind.nullOperator? = none) :
    piece.nullTest? behind = none := by
  cases piece with
  | name column => simp [nullTest?, h]
  | _ => rfl

/-- A test is a column and the words behind it. -/
theorem nullTest?_eq_some {piece behind : Piece} {test : String × Operator}
    (h : piece.nullTest? behind = some test) :
    ∃ column words op, piece = .name column ∧ behind = .raw words ∧
      (Piece.raw words).nullOperator? = some op ∧ test = (column, op) := by
  cases piece with
  | raw _ | placeholder _ => cases h
  | name column =>
    obtain ⟨op, hop, rfl⟩ := Option.map_eq_some_iff.1 h
    cases behind with
    | name _ | placeholder _ => cases hop
    | raw words => exact ⟨column, words, op, rfl, rfl, hop, rfl⟩

theorem nullTests_raw (sql : String) (pieces : List Piece) :
    nullTests (.raw sql :: pieces) = nullTests pieces := by
  rw [nullTests]
  cases pieces.head? <;> rfl

/-- Behind pieces that do not go on with a test's words the tests stand behind each other. -/
theorem nullTests_append (ps : List Piece) {qs : List Piece} (h : Opens qs) :
    nullTests (ps ++ qs) = nullTests ps ++ nullTests qs := by
  induction ps with
  | nil => rfl
  | cons piece rest ih =>
    rw [List.cons_append, nullTests, nullTests, ih, List.append_assoc]
    congr 2
    cases rest with
    | cons second others => rfl
    | nil =>
      cases hq : qs.head? with
      | none => simp [hq]
      | some behind => simp [hq, nullTest?_eq_none (h behind hq)]

/-- Without the words of a test there is no test. -/
theorem nullTests_eq_nil {pieces : List Piece}
    (h : ∀ piece ∈ pieces, piece.nullOperator? = none) : nullTests pieces = [] := by
  induction pieces with
  | nil => rfl
  | cons piece rest ih =>
    rw [nullTests, ih fun other hmem => h other (List.mem_cons_of_mem _ hmem), List.append_nil]
    cases hrest : rest.head? with
    | none => rfl
    | some behind =>
      have hbehind := h behind (List.mem_cons_of_mem _ (List.mem_of_mem_head? hrest))
      simp [nullTest?_eq_none hbehind]

end Piece

/-- A text that has tests for null in order: each a quoted column with the words of the test behind
it, with any text around them. -/
inductive Dialect.Tested (d : Dialect) : List (String × Operator) → String → Prop
  | nil (text : String) : d.Tested [] text
  | cons (front column : String) {words behind : String} {op : Operator}
      {tests : List (String × Operator)} (hwords : (Piece.raw words).nullOperator? = some op)
      (hbehind : d.Tested tests behind) :
      d.Tested ((column, op) :: tests) (front ++ (d.quoted column ++ words) ++ behind)

namespace Dialect.Tested

variable {d : Dialect} {tests : List (String × Operator)} {text : String}

theorem append_left (front : String) (h : d.Tested tests text) :
    d.Tested tests (front ++ text) := by
  cases h with
  | nil => exact .nil _
  | cons inner column hwords hbehind =>
    rw [← String.append_assoc, ← String.append_assoc]
    exact .cons (front ++ inner) column hwords hbehind

theorem append_right (h : d.Tested tests text) (behind : String) :
    d.Tested tests (text ++ behind) := by
  induction h with
  | nil => exact .nil _
  | cons front column hwords _ ih =>
    rw [String.append_assoc]
    exact .cons front column hwords ih

/-- A text has the tests of its pieces. -/
theorem ofPieces (d : Dialect) :
    ∀ pieces : List Piece, d.Tested (Piece.nullTests pieces) (Query.ofPieces d pieces).sql
  | [] => .nil _
  | [_] => .nil _
  | piece :: second :: rest => by
    -- A test is two pieces, so the text goes on behind both of them.
    have hsecond := ofPieces d (second :: rest)
    have hrest := ofPieces d rest
    rw [Query.sql_ofPieces_cons]
    cases htest : piece.nullTest? second with
    | none =>
      rw [Piece.nullTests, List.head?_cons, Option.bind_some, htest]
      exact hsecond.append_left _
    | some test =>
      obtain ⟨column, words, op, rfl, rfl, hwords, rfl⟩ := Piece.nullTest?_eq_some htest
      rw [Piece.nullTests, Piece.nullTests_raw, List.head?_cons, Option.bind_some, htest,
        Query.sql_ofPieces_cons, ← String.append_assoc]
      have htested := hrest.cons "" column hwords
      rwa [String.empty_append] at htested

end Dialect.Tested

namespace Draft

open Piece (Opens nullTests)

variable {α β : Type} {t : Table}

/-! ## Steps in a row -/

/-- Where a draft ends well, its tests are those of `nulls` one by one, and it can stand behind
any other draft. -/
def Tests (t : Table) (draft : Draft α) (nulls : List (Key × Operator)) : Prop :=
  ∀ a, draft.outcome = .ok a →
    Opens draft.pieces ∧ List.Forall₂ t.Tests nulls (nullTests draft.pieces)

theorem opens_append {ps qs : List Piece} (h : Opens ps) (hq : Opens qs) : Opens (ps ++ qs) := by
  cases ps with
  | nil => exact hq
  | cons piece rest => exact h

/-- A draft without the words of a test has none. -/
theorem tests_of_every {draft : Draft α}
    (h : Every (fun piece => piece.nullOperator? = none) draft) : Tests t draft [] := by
  intro a _
  refine ⟨fun piece hpiece => h piece (List.mem_of_mem_head? hpiece), ?_⟩
  rw [Piece.nullTests_eq_nil h]
  exact .nil

theorem tests_raw {sql : String} (h : (Piece.raw sql).nullOperator? = none) :
    Tests t (raw sql) [] :=
  tests_of_every (every_raw.2 h)

/-- Steps in a row have their tests one after the other. -/
theorem tests_bind {draft : Draft α} {next : α → Draft β} {nulls others : List (Key × Operator)}
    (h : Tests t draft nulls)
    (hnext : ∀ a, draft.outcome = .ok a → Tests t (next a) others) :
    Tests t (draft >>= next) (nulls ++ others) := by
  intro b hb
  cases houtcome : draft.outcome with
  | error e =>
    rw [bind_of_error houtcome] at hb
    cases hb
  | ok a =>
    rw [bind_of_ok houtcome] at hb ⊢
    obtain ⟨hopens, htests⟩ := h a houtcome
    obtain ⟨hopens', htests'⟩ := hnext a houtcome b hb
    refine ⟨opens_append hopens hopens', ?_⟩
    rw [Piece.nullTests_append _ hopens']
    exact List.rel_append htests htests'

/-- A step without tests in front of others. -/
theorem tests_skip {draft : Draft α} {next : α → Draft β} {nulls : List (Key × Operator)}
    (h : Tests t draft []) (hnext : ∀ a, draft.outcome = .ok a → Tests t (next a) nulls) :
    Tests t (draft >>= next) nulls :=
  tests_bind h hnext

/-- A list has the tests of its members one after the other. -/
theorem tests_separated {separator : String}
    (hseparator : (Piece.raw separator).nullOperator? = none) {drafts : List (Draft Unit)}
    {lists : List (List (Key × Operator))} (h : List.Forall₂ (Tests t) drafts lists) :
    Tests t (separated separator drafts) lists.flatten := by
  induction h with
  | nil => exact tests_of_every (every_pure ())
  | @cons draft nulls rest lists hdraft hrest ih =>
    cases hrest with
    | nil =>
      rw [List.flatten_singleton]
      exact hdraft
    | cons hsecond hothers =>
      rw [separated]
      · exact tests_bind hdraft fun _ _ => tests_skip (tests_raw hseparator) fun _ _ => ih
      · simp

theorem tests_parenthesized (grouped : Bool) {draft : Draft Unit} {nulls : List (Key × Operator)}
    (h : Tests t draft nulls) : Tests t (parenthesized grouped draft) nulls := by
  cases grouped with
  | false => exact h
  | true =>
    have hclosing : Tests t (raw ")") [] := tests_raw (by decide)
    have hclosed := tests_bind h fun _ _ => hclosing
    rw [List.append_nil] at hclosed
    exact tests_skip (tests_raw (by decide)) fun _ _ => hclosed

/-! ## Conditions -/

/-- A comparison with null tests for null where its operator is an equality. -/
theorem tests_compared {key : Key} {column : String} (hcolumn : t.column key = .ok column)
    {op : Operator} {p : Parameter} (h : p = .null → op = .eq ∨ op = .ne) :
    Tests t (compared column op p) (op.nulls key p) := by
  by_cases hp : p = .null
  · subst hp
    intro a _
    rcases h rfl with rfl | rfl
    · exact ⟨by simp [Opens, compared, Piece.nullOperator?], .cons ⟨hcolumn, rfl⟩ .nil⟩
    · exact ⟨by simp [Opens, compared, Piece.nullOperator?], .cons ⟨hcolumn, rfl⟩ .nil⟩
  · have hnone : op.nulls key p = [] := by
      cases p with
      | null => exact absurd rfl hp
      | _ => rfl
    rw [hnone, compared_of_value column (fun _ => hp) fun _ => hp]
    have hsql : (Piece.raw op.sql).nullOperator? = none := by cases op <;> decide
    exact tests_of_every (every_seq (every_name.2 rfl) (every_seq (every_raw.2 (by decide))
      (every_seq (every_raw.2 hsql) (every_seq (every_raw.2 (by decide))
        (every_placeholder.2 rfl)))))

theorem tests_listed (column : String) {test : String}
    (htest : (Piece.raw test).nullOperator? = none) (ps : List Parameter) :
    Tests t (listed column test ps) [] :=
  tests_of_every (every_seq (every_name.2 rfl) (every_seq (every_raw.2 htest)
    (every_seq (every_placeholders (by decide) (fun _ => rfl) ps) (every_raw.2 (by decide)))))

/-- The tests for null of a set are those of the comparisons among its members. -/
theorem tests_inSet {key : Key} {column : String} (hcolumn : t.column key = .ok column)
    (negated : Bool) (op : Operator) {elements : List Element}
    (h : ∀ op, .predicate op .null ∈ elements → op = .eq ∨ op = .ne) :
    Tests t (inSet column negated elements) ((Operand.values elements).nulls op key) := by
  by_cases hnone : elements.filterMap Element.predicate? = []
  · rw [inSet_of_literals column negated hnone, Operand.nulls, Element.flatMap_nulls, hnone]
    exact tests_listed column (by cases negated <;> decide) _
  · rw [inSet_of_predicates column negated hnone, Operand.nulls, Element.flatMap_nulls,
      List.flatMap_def]
    have heach : List.Forall₂ (Tests t) (setTests column elements)
        ((if (elements.filterMap Element.literal?).isEmpty then [] else [[]])
          ++ (elements.filterMap Element.predicate?).map fun (op, p) => op.nulls key p) := by
      refine forall₂_setTests (fun _ => tests_listed column (by decide) _) fun inner p hmem => ?_
      refine tests_compared hcolumn ?_
      rintro rfl
      exact h inner hmem
    have htests : Tests t (separated " OR " (setTests column elements))
        ((elements.filterMap Element.predicate?).map fun (op, p) => op.nulls key p).flatten := by
      have hjoined := tests_separated (by decide : (Piece.raw " OR ").nullOperator? = none) heach
      rw [List.flatten_append] at hjoined
      split at hjoined
      · exact hjoined
      · exact hjoined
    refine tests_skip ?_ fun _ _ => tests_parenthesized _ htests
    cases negated with
    | false => exact tests_of_every (every_pure ())
    | true => exact tests_raw (by decide)

/-- A comparison that a document can say tests for its nulls. -/
theorem tests_comparison {c : Comparison} (h : c.Expressible) :
    Tests t (comparison t c) c.nulls := by
  refine tests_skip (tests_of_every (every_lift _)) fun column hcolumn => ?_
  obtain ⟨op, key, operand⟩ := c
  obtain ⟨-, hoperand⟩ := h
  cases operand with
  | value p =>
    obtain ⟨hop, hsuits⟩ := hoperand
    simp only [hop, Bool.false_eq_true, if_false]
    refine tests_compared hcolumn ?_
    rintro rfl
    exact Operator.eq_or_ne_of_suits_null hsuits
  | values elements =>
    obtain ⟨-, -, helements⟩ := hoperand
    exact tests_inSet hcolumn _ op fun inner hmem =>
      Operator.eq_or_ne_of_suits_null (helements _ hmem).2

/-- The condition of a tree that a document can say tests for the nulls of the tree. -/
theorem tests_condition (t : Table) :
    (∀ nested node, node.Expressible → Tests t (condition t nested node) node.nulls) ∧
      ∀ nodes : List Node, (∀ node ∈ nodes, node.Expressible) →
        List.Forall₂ (Tests t) (conditions t nodes) (nodes.map Node.nulls) := by
  refine condition_induct ?comparison ?empty ?group ?nil ?cons
  case comparison =>
    rintro nested c ⟨hc⟩
    rw [condition, Node.nulls, Node.comparisons, List.flatMap_singleton]
    exact tests_comparison hc
  case empty =>
    intro nested k h
    exact absurd rfl (Node.expressible_node.1 h).1
  case group =>
    intro nested k children hne ih h
    obtain ⟨-, heach⟩ := Node.expressible_node.1 h
    have hword : (Piece.raw k.sql).nullOperator? = none := by cases k <;> decide
    rw [condition_group t nested k hne, Node.nulls_node]
    exact tests_parenthesized _ (tests_separated hword (ih heach))
  case nil =>
    intro _
    exact .nil
  case cons =>
    intro child rest ihChild ihRest h
    exact .cons (ihChild (h child List.mem_cons_self))
      (ihRest fun node hmem => h node (List.mem_cons_of_mem _ hmem))

/-- The restriction to a selection that a document can say tests for the nulls of the selection. -/
theorem tests_restriction {selection : Selection} (h : selection.Expressible) :
    Tests t (restriction t selection) selection.nulls := by
  cases selection with
  | everything => exact tests_of_every (every_pure ())
  | matching node =>
    exact tests_skip (tests_raw (by decide)) fun _ _ => (tests_condition t).1 false node h

end Draft

/-! ## Parameters -/

/-- An operator that can be written with a value binds no null. -/
theorem Operator.null_notMem_bound {op : Operator} {p : Parameter} (h : op.Suits p) :
    .null ∉ op.bound p := by
  intro hmem
  unfold bound at hmem
  split at hmem
  · cases hmem
  · cases hmem
  · next heq hne =>
    have hp : p = .null := (List.mem_singleton.1 hmem).symm
    subst hp
    rcases eq_or_ne_of_suits_null h with rfl | rfl
    · exact heq rfl rfl
    · exact hne rfl rfl

/-- No comparison that a document can say binds a null. -/
theorem Comparison.null_notMem_parameters {c : Comparison} (h : c.Expressible) :
    .null ∉ c.parameters := by
  obtain ⟨op, key, operand⟩ := c
  obtain ⟨-, hoperand⟩ := h
  cases operand with
  | value p =>
    obtain ⟨hop, hsuits⟩ := hoperand
    simpa [parameters, hop] using Operator.null_notMem_bound hsuits
  | values elements =>
    obtain ⟨-, -, helements⟩ := hoperand
    intro hmem
    rcases List.mem_append.1 hmem with hliteral | hpredicate
    · exact helements _ (Element.mem_literals.1 hliteral) rfl
    · obtain ⟨⟨inner, p⟩, hpair, hbound⟩ := List.mem_flatMap.1 hpredicate
      have helement := helements _ (Element.mem_predicates.1 hpair)
      exact Operator.null_notMem_bound helement.2 hbound

theorem Node.parametersOfAll_eq_flatMap (nodes : List Node) :
    parametersOfAll nodes = nodes.flatMap parameters := by
  induction nodes with
  | nil => rfl
  | cons child rest ih => rw [parametersOfAll, ih, List.flatMap_cons]

/-- No tree that a document can say has a null among its parameters. -/
theorem Node.null_notMem_parameters {node : Node} (h : node.Expressible) :
    .null ∉ node.parameters := by
  induction h with
  | comparison hc => exact Comparison.null_notMem_parameters hc
  | and _ _ ih | or _ _ ih =>
    rw [parameters, parametersOfAll_eq_flatMap]
    intro hmem
    obtain ⟨child, hchild, hnull⟩ := List.mem_flatMap.1 hmem
    exact ih child hchild hnull

/-- No selection that a document can say has a null among its parameters. -/
theorem Selection.null_notMem_parameters {selection : Selection} (h : selection.Expressible) :
    .null ∉ selection.parameters := by
  cases selection with
  | everything => exact List.not_mem_nil
  | matching node => exact Node.null_notMem_parameters h

end DocumentQuery
