import DocumentQuery.Proofs.Draft.Clean
import DocumentQuery.Proofs.Draft.Condition
import DocumentQuery.Proofs.Selection.Expressible
import DocumentQuery.Proofs.Sql.Spelling

/-!
# Phrases that drafts write

Which phrases of the grammar the clauses of a statement are. Steps in a row write one phrase behind
the other, as long as no step goes on with the last token of the step in front of it; so the
clauses that stand behind a name all begin with a space, and the texts in front of a name all end
with one or with a parenthesis.
-/

namespace DocumentQuery
set_option autoImplicit false

namespace Draft

open Sql (fixed identifier list listOf named optional phrase sortTerm)
open scoped Computability

variable {α : Type} {d : Dialect} {L M : Language Sql.Token}

/-! ## Steps in a row -/

/-- Where it ends well, the draft writes tokens of `L`. -/
def Spells (d : Dialect) (draft : Draft α) (L : Language Sql.Token) : Prop :=
  ∀ a, draft.outcome = .ok a → Sql.Spells d (draft.text d) L

/-- What it writes can also stand right behind a token. -/
structure Follows (d : Dialect) (draft : Draft α) (L : Language Sql.Token) : Prop where
  spells : Spells d draft L
  gap : ∀ a, draft.outcome = .ok a → Sql.hasGap (draft.text d) = true

theorem Spells.mono {draft : Draft α} (h : Spells d draft L) (hle : L ≤ M) : Spells d draft M :=
  fun a ha => (h a ha).mono hle

theorem Follows.mono {draft : Draft α} (h : Follows d draft L) (hle : L ≤ M) :
    Follows d draft M :=
  ⟨h.spells.mono hle, h.gap⟩

theorem follows_pure : Follows d (pure () : Draft Unit) 1 :=
  ⟨fun _ _ => Sql.spells_nil, fun _ _ => rfl⟩

/-- A step that writes nothing and answers what the next one writes. -/
theorem spells_lift {result : Except StatementError α} {next : α → Draft Unit}
    (h : ∀ a, result = .ok a → Spells d (next a) L) : Spells d (lift result >>= next) L := by
  cases hresult : result with
  | error e =>
    rintro _ ⟨⟩
  | ok a => exact h a hresult

theorem follows_lift {result : Except StatementError α} {next : α → Draft Unit}
    (h : ∀ a, result = .ok a → Follows d (next a) L) : Follows d (lift result >>= next) L := by
  cases hresult : result with
  | error e => exact ⟨by rintro _ ⟨⟩, by rintro _ ⟨⟩⟩
  | ok a => exact h a hresult

theorem spells_name {n : String} (h : (Piece.name n).isClean d = true) :
    Spells d (name n) (named n) := by
  intro _ _
  rw [text_name]
  exact Sql.spells_quoted (isClean_name.1 h)

theorem spells_placeholder (p : Parameter) : Spells d (placeholder p) Sql.placeholder := by
  intro _ _
  rw [text_placeholder]
  exact Sql.spells_placeholder

/-- A text that ends a draft. -/
theorem spells_raw {sql word : String} (h : Sql.isWritten sql word = true) :
    Spells d (raw sql) (fixed d word) := by
  intro _ _
  rw [text_raw]
  exact Sql.spells_of_isWritten h

section Sequence

variable {draft : Draft Unit} {next : Draft α}

/-- The outcomes of steps in a row that end well. -/
theorem outcome_of_seq {a : α} (h : (draft >>= fun _ => next).outcome = .ok a) :
    draft.outcome = .ok () ∧ next.outcome = .ok a := by
  rw [outcome_bind] at h
  obtain ⟨_, hdraft, hnext⟩ := bind_eq_ok.1 h
  exact ⟨hdraft, hnext⟩

/-- A step in front of one that can stand behind any token. -/
theorem Spells.seq (h : Spells d draft L) (hnext : Follows d next M) :
    Spells d (draft >>= fun _ => next) (L * M) := by
  intro a ha
  obtain ⟨hdraft, hnext'⟩ := outcome_of_seq ha
  rw [text_bind hdraft]
  exact (h _ hdraft).append_gap (hnext.spells a hnext') (hnext.gap a hnext')

/-- What follows in two steps follows as the product of their languages. -/
theorem Follows.seq (h : Follows d draft L) (hnext : Follows d next M) :
    Follows d (draft >>= fun _ => next) (L * M) := by
  refine ⟨h.spells.seq hnext, fun a ha => ?_⟩
  obtain ⟨hdraft, hnext'⟩ := outcome_of_seq ha
  rw [text_bind hdraft]
  exact Sql.hasGap_append (h.gap _ hdraft) (hnext.gap a hnext')

/-- A text that ends between tokens, in front of any step. -/
theorem Spells.after_raw {sql word : String} (hsql : Sql.isClosed sql word = true)
    (h : Spells d next L) :
    Spells d (raw sql >>= fun _ => next) (fixed d word * L) := by
  intro a ha
  obtain ⟨hraw, hnext⟩ := outcome_of_seq ha
  obtain ⟨hspells, hclosed⟩ := Sql.spells_of_isClosed hsql
  rw [text_bind hraw, text_raw]
  exact hspells.append_closed hclosed (h a hnext)

/-- A text between two tokens. -/
theorem Spells.behind_raw {sql word : String} (hsql : Sql.isBetween sql word = true)
    (h : Spells d next L) : Follows d (raw sql >>= fun _ => next) (fixed d word * L) := by
  obtain ⟨hgap, hclosed⟩ := Bool.and_eq_true_iff.1 hsql
  refine ⟨h.after_raw hclosed, fun a ha => ?_⟩
  rw [text_bind (outcome_raw sql), text_raw]
  exact Sql.hasGap_of_any hgap

/-- A text that ends a draft, behind a token. -/
theorem follows_raw {sql word : String} (h : Sql.isBehind sql word = true) :
    Follows d (raw sql) (fixed d word) := by
  obtain ⟨hgap, hwritten⟩ := Bool.and_eq_true_iff.1 h
  refine ⟨spells_raw hwritten, fun _ _ => ?_⟩
  have htext := Sql.hasGap_of_any (t := []) hgap
  rwa [text_raw, ← List.append_nil sql.toList]

end Sequence

/-- Drafts of one phrase each, with separators. -/
theorem spells_separated {separator word : String} {drafts : List (Draft Unit)} {k : Nat}
    (hsql : Sql.isBetween separator word = true) (hlength : drafts.length = k + 1)
    (h : ∀ draft ∈ drafts, Spells d draft L) :
    Spells d (separated separator drafts) (L * (fixed d word * L) ^ k) := by
  induction k generalizing drafts with
  | zero =>
    obtain ⟨draft, rfl⟩ := List.length_eq_one_iff.1 hlength
    rw [pow_zero, mul_one]
    exact h draft (by simp)
  | succ k ih =>
    obtain ⟨draft, rest, rfl⟩ := List.exists_cons_of_length_eq_add_one hlength
    obtain ⟨second, others, rfl⟩ := List.exists_cons_of_length_eq_add_one
      (Nat.succ.inj hlength : rest.length = k + 1)
    have hrest := ih (Nat.succ.inj hlength) fun other hmem => h other (List.mem_cons_of_mem _ hmem)
    rw [separated_cons_cons, pow_succ', mul_assoc]
    exact (h draft (by simp)).seq (hrest.behind_raw hsql)

/-- Drafts of the members of a list, with commas. -/
theorem spells_listed {γ : Type} {f : γ → Draft Unit} {xs : List γ} {k : Nat}
    (hlength : xs.length = k + 1) (h : ∀ x ∈ xs, Spells d (f x) L) :
    Spells d (separated ", " (xs.map f)) (listOf d k L) := by
  refine spells_separated (by decide) (by rw [List.length_map, hlength]) fun draft hmem => ?_
  obtain ⟨x, hx, rfl⟩ := List.mem_map.1 hmem
  exact h x hx

/-- The members of a list that has some are a list of the language. -/
theorem spells_list {γ : Type} {f : γ → Draft Unit} {xs : List γ} (hne : xs ≠ [])
    (h : ∀ x ∈ xs, Spells d (f x) L) : Spells d (separated ", " (xs.map f)) (list d L) := by
  obtain ⟨x, rest, rfl⟩ := List.exists_cons_of_ne_nil hne
  exact (spells_listed List.length_cons h).mono (Sql.listOf_le_list _ L)

theorem spells_identifier {n : String} (h : (Piece.name n).isClean d = true) :
    Spells d (name n) identifier :=
  (spells_name h).mono (Sql.named_le_identifier n)

theorem spells_names {identifiers : List String} {k : Nat} (hlength : identifiers.length = k + 1)
    (h : ∀ n ∈ identifiers, (Piece.name n).isClean d = true) :
    Spells d (names identifiers) (listOf d k identifier) :=
  spells_listed hlength fun n hn => spells_identifier (h n hn)

theorem spells_placeholders {ps : List Parameter} {k : Nat} (hlength : ps.length = k + 1) :
    Spells d (placeholders ps) (listOf d k Sql.placeholder) :=
  spells_listed hlength fun p _ => spells_placeholder p

/-! ## Conditions -/

theorem fixed_empty : fixed d "" = 1 := rfl

section Conditions

variable {column : String} (hcolumn : (Piece.name column).isClean d = true)
include hcolumn

/-- Every comparison with a value is one of the tests, by its operator and whether the value is
null. -/
theorem spells_compared {op : Operator} (hop : op.isMembership = false) (p : Parameter) :
    Spells d (compared column op p) (Sql.test d) := by
  have hname := spells_identifier hcolumn
  by_cases heq : op = .eq ∧ p = .null
  · obtain ⟨rfl, rfl⟩ := heq
    have hnull : Follows d (raw " IS NULL") (fixed d "IS NULL") := follows_raw (by decide)
    exact (hname.seq (hnull.mono le_self_add)).mono (le_add_self.trans le_self_add)
  by_cases hne : op = .ne ∧ p = .null
  · obtain ⟨rfl, rfl⟩ := hne
    have hnull : Follows d (raw " IS NOT NULL") (fixed d "IS NOT NULL") := follows_raw (by decide)
    exact (hname.seq (hnull.mono le_add_self)).mono (le_add_self.trans le_self_add)
  have hrelation : Spells d (raw op.sql) (Sql.relation d) := by
    have hsql : Spells d (raw op.sql) (fixed d op.sql) := by
      refine spells_raw ?_
      cases op <;> decide
    refine hsql.mono fun ts h => ⟨op.sql, ?_, h⟩
    cases op <;> first | decide | cases hop
  rw [compared_of_value column (fun h hp => heq ⟨h, hp⟩) fun h hp => hne ⟨h, hp⟩]
  -- The spaces around the relation write no token of their own.
  have hspaced : Spells d (name column >>= fun _ => raw " " >>= fun _ => raw op.sql >>= fun _ =>
      raw " " >>= fun _ => placeholder p)
      (identifier * (fixed d "" * (Sql.relation d * (fixed d "" * Sql.placeholder)))) :=
    hname.seq (Spells.behind_raw (by decide)
      (hrelation.seq ((spells_placeholder p).behind_raw (by decide))))
  rw [fixed_empty, one_mul, one_mul, ← mul_assoc] at hspaced
  exact hspaced.mono (le_self_add.trans le_self_add)

/-- A list of values is a test for membership, as long as there is a value. -/
theorem spells_membership (negated : Bool) {ps : List Parameter} (hne : ps ≠ []) :
    Spells d (Draft.listed column (if negated then " NOT IN (" else " IN (") ps) (Sql.test d) := by
  have hname := spells_identifier hcolumn
  have hvalues : Spells d (placeholders ps) (list d Sql.placeholder) :=
    spells_list hne fun p _ => spells_placeholder p
  have hend : Spells d (placeholders ps >>= fun _ => raw ")")
      (list d Sql.placeholder * fixed d ")") := hvalues.seq (follows_raw (by decide))
  have hlist : Follows d (raw (if negated then " NOT IN (" else " IN (") >>= fun _ =>
      placeholders ps >>= fun _ => raw ")")
      ((fixed d "IN (" + fixed d "NOT IN (") * (list d Sql.placeholder * fixed d ")")) := by
    rw [add_mul]
    cases negated with
    | false =>
      have hplain : Follows d (raw " IN (" >>= fun _ => placeholders ps >>= fun _ => raw ")")
          (fixed d "IN (" * (list d Sql.placeholder * fixed d ")")) :=
        hend.behind_raw (by decide)
      exact hplain.mono le_self_add
    | true =>
      have hplain : Follows d (raw " NOT IN (" >>= fun _ => placeholders ps >>= fun _ => raw ")")
          (fixed d "NOT IN (" * (list d Sql.placeholder * fixed d ")")) :=
        hend.behind_raw (by decide)
      exact hplain.mono le_add_self
  have htest := hname.seq hlist
  rw [← mul_assoc, ← mul_assoc] at htest
  exact htest.mono le_add_self

/-- Each test of a set is one of the tests, for a set that a document can say. -/
theorem spells_setTests {elements : List Element} (h : ∀ element ∈ elements, element.Expressible) :
    ∀ test ∈ setTests column elements, Spells d test (Sql.test d) := by
  intro test hmem
  rcases mem_setTests.1 hmem with ⟨hsome, rfl⟩ | ⟨op, p, hmember, rfl⟩
  · exact spells_membership hcolumn false hsome
  · exact spells_compared hcolumn (h _ hmember).1 p

end Conditions

/-! ## Groups -/

/-- A negated operand is an operand. -/
theorem spells_not {draft : Draft Unit} (h : Spells d draft (phrase d .operand)) :
    Spells d (raw "NOT " >>= fun _ => draft) (phrase d .operand) := by
  have hnot : Spells d (raw "NOT " >>= fun _ => draft) (fixed d "NOT" * phrase d .operand) :=
    h.after_raw (by decide)
  exact hnot.mono (Sql.not_le_operand d)

/-- A disjunction in parentheses is an operand. -/
theorem spells_parenthesized {draft : Draft Unit} (h : Spells d draft (phrase d .disjunction)) :
    Spells d (parenthesized true draft) (phrase d .operand) := by
  have hend : Spells d (draft >>= fun _ => raw ")") (phrase d .disjunction * fixed d ")") :=
    h.seq (follows_raw (by decide))
  have hgroup : Spells d (parenthesized true draft)
      (fixed d "(" * (phrase d .disjunction * fixed d ")")) := hend.after_raw (by decide)
  exact hgroup.mono (Sql.group_le_operand d)

/-- Operands joined by a connective; a single one stays an operand. -/
theorem spells_joined (k : Connective) {drafts : List (Draft Unit)} (hne : drafts ≠ [])
    (h : ∀ draft ∈ drafts, Spells d draft (phrase d .operand)) :
    Spells d (separated k.sql drafts) (phrase d .disjunction) := by
  obtain ⟨draft, rest, rfl⟩ := List.exists_cons_of_ne_nil hne
  have hjoined : Spells d (separated k.sql (draft :: rest))
      (phrase d .operand * (fixed d k.sql * phrase d .operand) ^ rest.length) :=
    spells_separated (by cases k <;> decide) List.length_cons h
  exact hjoined.mono (Sql.joined_le_disjunction k _)

/-- What is joined is an operand as soon as parentheses stand around two or more. -/
theorem spells_group (k : Connective) {drafts : List (Draft Unit)} (hne : drafts ≠ [])
    (h : ∀ draft ∈ drafts, Spells d draft (phrase d .operand)) :
    Spells d (parenthesized (1 < drafts.length) (separated k.sql drafts)) (phrase d .operand) := by
  have hjoined := spells_joined k hne h
  rcases drafts with _ | ⟨only, _ | ⟨second, rest⟩⟩
  · exact absurd rfl hne
  · exact h only (by simp)
  · have hmany : decide (1 < (only :: second :: rest).length) = true := by simp
    rw [hmany]
    exact spells_parenthesized hjoined

/-- A test for a set is an operand: several tests stand in parentheses, and so does a negated one.
-/
theorem spells_inSet {column : String} (hcolumn : (Piece.name column).isClean d = true)
    (negated : Bool) {elements : List Element} (hne : elements ≠ [])
    (h : ∀ element ∈ elements, element.Expressible) :
    Spells d (inSet column negated elements) (phrase d .operand) := by
  by_cases hnone : elements.filterMap Element.predicate? = []
  · rw [inSet_of_literals column negated hnone]
    have hliterals := Element.literals_ne_nil hne hnone
    exact (spells_membership hcolumn negated hliterals).mono fun _ h => .test h
  · rw [inSet_of_predicates column negated hnone]
    have hsome := setTests_ne_nil column hnone
    have htests : ∀ test ∈ setTests column elements, Spells d test (phrase d .operand) :=
      fun test hmem => (spells_setTests hcolumn h test hmem).mono fun _ h => .test h
    cases negated with
    | false => exact spells_group .or hsome htests
    | true => exact spells_not (spells_parenthesized (spells_joined .or hsome htests))

section Trees

variable {t : Table}

/-- A comparison is an operand whatever it compares with. -/
theorem spells_comparison {c : Comparison} (h : c.Expressible)
    (hnames : ∀ n ∈ t.primaryKey ++ c.key.names, (Piece.name n).isClean d = true) :
    Spells d (comparison t c) (phrase d .operand) := by
  obtain ⟨op, key, operand⟩ := c
  refine spells_lift fun column hcolumn => ?_
  have hclean := hnames column (Table.column_mem hcolumn)
  obtain ⟨-, h⟩ := h
  cases operand with
  | values elements =>
    obtain ⟨-, hne, helements⟩ := h
    exact spells_inSet hclean _ hne helements
  | value p =>
    obtain ⟨hop, -⟩ := h
    simp only [hop]
    exact (spells_compared hclean hop p).mono fun _ h => .test h

/-- The condition of an expressible tree. Inside another condition it is an operand, since its
group, if it joins two or more, stands in parentheses. -/
theorem spells_condition :
    (∀ nested node, node.Expressible →
      (∀ n ∈ t.primaryKey ++ node.keys.flatMap Key.names, (Piece.name n).isClean d = true) →
      Spells d (condition t nested node)
        (phrase d (if nested then .operand else .disjunction))) ∧
    ∀ nodes, (∀ child ∈ nodes, child.Expressible) →
      (∀ n ∈ t.primaryKey ++ (Node.keysOfAll nodes).flatMap Key.names,
        (Piece.name n).isClean d = true) →
      ∀ draft ∈ conditions t nodes, Spells d draft (phrase d .operand) := by
  refine condition_induct ?comparison ?empty ?group ?nil ?cons
  case comparison =>
    intro nested c h hnames
    cases h with
    | comparison h =>
    rw [condition]
    have hoperand := spells_comparison h (by simpa [Node.keys] using hnames)
    cases nested with
    | false => exact hoperand.mono fun _ h => .alternative (.factor h)
    | true => exact hoperand
  case empty =>
    intro nested k h
    exact absurd rfl (Node.expressible_node.1 h).1
  case group =>
    intro nested k children hne ih h hnames
    rw [Node.keys_node] at hnames
    have hchildren := ih (Node.expressible_node.1 h).2 hnames
    rw [condition_group t nested k hne, ← length_conditions t]
    cases nested with
    | false => exact spells_joined k (conditions_ne_nil t hne) hchildren
    | true => exact spells_group k (conditions_ne_nil t hne) hchildren
  case nil =>
    intro _ _ draft hmem
    cases hmem
  case cons =>
    intro child rest ihChild ihRest h hnames draft hmem
    rw [conditions] at hmem
    simp only [Node.keysOfAll, List.flatMap_append, List.mem_append] at hnames
    rcases List.mem_cons.1 hmem with rfl | hmem
    · refine ihChild (h child (by simp)) fun n hn => hnames n ?_
      rw [List.mem_append] at hn
      tauto
    · refine ihRest (fun other hother => h other (List.mem_cons_of_mem _ hother))
        (fun n hn => hnames n ?_) draft hmem
      rw [List.mem_append] at hn
      tauto

/-- A condition behind its word is a restriction. -/
theorem follows_where {node : Node} (h : node.Expressible)
    (hnames : ∀ n ∈ t.primaryKey ++ node.keys.flatMap Key.names, (Piece.name n).isClean d = true) :
    Follows d (restriction t (.matching node)) (Sql.restriction d) :=
  (spells_condition.1 false node h hnames).behind_raw (by decide)

/-- A selection of every row writes nothing, so a restriction is optional. -/
theorem follows_restriction {selection : Selection} (h : selection.Expressible)
    (hnames : ∀ n ∈ t.primaryKey ++ selection.keys.flatMap Key.names,
      (Piece.name n).isClean d = true) :
    Follows d (restriction t selection) (optional (Sql.restriction d)) := by
  cases selection with
  | everything => exact follows_pure.mono le_self_add
  | matching node => exact (follows_where h hnames).mono le_add_self

end Trees

/-! ## Order and paging -/

theorem spells_directed (direction : Direction) {columns : List String} (hne : columns ≠ [])
    (hcolumns : ∀ n ∈ columns, (Piece.name n).isClean d = true) :
    Spells d (directed direction columns) (list d (sortTerm d)) := by
  refine spells_list hne fun column hmem => ?_
  have hdirection : Spells d (raw direction.sql) (fixed d "ASC" + fixed d "DESC") := by
    cases direction with
    | ascending =>
      have hword : Spells d (raw "ASC") (fixed d "ASC") := spells_raw (by decide)
      exact hword.mono le_self_add
    | descending =>
      have hword : Spells d (raw "DESC") (fixed d "DESC") := spells_raw (by decide)
      exact hword.mono le_add_self
  have hspaced : Spells d (name column >>= fun _ => raw " " >>= fun _ => raw direction.sql)
      (identifier * (fixed d "" * (fixed d "ASC" + fixed d "DESC"))) :=
    (spells_identifier (hcolumns column hmem)).seq (hdirection.behind_raw (by decide))
  rwa [fixed_empty, one_mul] at hspaced

section Ordering

variable {t : Table}

/-- The columns that the key of a term stands for are a list of terms. -/
theorem spells_columnsOf {term : SortTerm} {columns : List String}
    (hnames : ∀ n ∈ t.primaryKey ++ term.key.names, (Piece.name n).isClean d = true)
    (h : t.columnsOf term.key = .ok columns) :
    Spells d (directed term.direction columns) (list d (sortTerm d)) :=
  spells_directed term.direction (Table.columnsOf_ne_nil h)
    fun n hn => hnames n (Table.columnsOf_subset h hn)

/-- Terms behind others, each of their columns with a comma in front. -/
theorem follows_sortTerms {terms : List SortTerm}
    (hnames : ∀ term ∈ terms, ∀ n ∈ t.primaryKey ++ term.key.names,
      (Piece.name n).isClean d = true) :
    Follows d (sortTerms t true terms) (fixed d "," * sortTerm d)∗ := by
  induction terms with
  | nil => exact follows_pure.mono one_le_kstar
  | cons term rest ih =>
    rw [sortTerms]
    refine follows_lift fun columns hcolumns => ?_
    have hfirst := spells_columnsOf (hnames term (by simp)) hcolumns
    have hrest := ih fun other hmem => hnames other (List.mem_cons_of_mem _ hmem)
    have hterms : Follows d (raw ", " >>= fun _ => directed term.direction columns >>= fun _ =>
        sortTerms t true rest)
        (fixed d "," * (list d (sortTerm d) * (fixed d "," * sortTerm d)∗)) :=
      (hfirst.seq hrest).behind_raw (by decide)
    refine hterms.mono ?_
    rw [list, mul_assoc (sortTerm d), kstar_mul_kstar, ← mul_assoc]
    exact mul_kstar_le_kstar

/-- The terms of an order are one list, however many columns each of them has. -/
theorem spells_sortTerms {term : SortTerm} {rest : List SortTerm}
    (hnames : ∀ other ∈ term :: rest, ∀ n ∈ t.primaryKey ++ other.key.names,
      (Piece.name n).isClean d = true) :
    Spells d (sortTerms t false (term :: rest)) (list d (sortTerm d)) := by
  rw [sortTerms]
  refine spells_lift fun columns hcolumns => ?_
  have hfirst := spells_columnsOf (hnames term (by simp)) hcolumns
  have hrest := follows_sortTerms fun other hmem => hnames other (List.mem_cons_of_mem _ hmem)
  have hterms : Spells d (directed term.direction columns >>= fun _ => sortTerms t true rest)
      (list d (sortTerm d) * (fixed d "," * sortTerm d)∗) := hfirst.seq hrest
  rwa [list, mul_assoc (sortTerm d), kstar_mul_kstar] at hterms

/-- An order is optional, as one without terms writes nothing. -/
theorem follows_ordering {order : SortOrder}
    (hnames : ∀ n ∈ t.primaryKey ++ order.keys.flatMap Key.names,
      (Piece.name n).isClean d = true) :
    Follows d (ordering t order) (optional (Sql.ordering d)) := by
  rcases order with _ | ⟨_ | ⟨term, rest⟩⟩
  · exact follows_pure.mono le_self_add
  · exact follows_pure.mono le_self_add
  · have hkeys : ∀ other ∈ term :: rest, ∀ n ∈ t.primaryKey ++ other.key.names,
        (Piece.name n).isClean d = true := by
      intro other hmem n hn
      refine hnames n ?_
      rw [List.mem_append, List.mem_flatMap]
      exact (List.mem_append.1 hn).imp_right fun hname =>
        ⟨other.key, List.mem_map_of_mem hmem, hname⟩
    have hterms : Follows d (ordering t (.terms (term :: rest))) (Sql.ordering d) :=
      (spells_sortTerms hkeys).behind_raw (by decide)
    exact hterms.mono le_add_self

end Ordering

section Paging

variable {sql rest : String}

theorem text_raw_append : (raw (sql ++ rest)).text d = (raw sql >>= fun _ => raw rest).text d := by
  rw [text_bind (outcome_raw sql), text_raw, text_raw, text_raw, String.toList_append]

theorem spells_raw_append (h : Spells d (raw sql >>= fun _ => raw rest) L) :
    Spells d (raw (sql ++ rest)) L := by
  intro a _
  rw [text_raw_append]
  exact h a rfl

/-- A clause behind a space. -/
theorem follows_spaced (h : Spells d (raw sql) L) : Follows d (raw (" " ++ sql)) L := by
  have hspaced : Follows d (raw " " >>= fun _ => raw sql) (fixed d "" * L) :=
    h.behind_raw (by decide)
  rw [fixed_empty, one_mul] at hspaced
  refine ⟨spells_raw_append hspaced.spells, fun a _ => ?_⟩
  rw [text_raw_append]
  exact hspaced.gap a rfl

end Paging

theorem spells_number (n : Nat) : Spells d (raw (toString n)) Sql.number := by
  intro _ _
  rw [text_raw]
  exact Sql.spells_nat n

theorem spells_limit (n : Nat) : Spells d (raw ("LIMIT " ++ toString n)) (Sql.limit d) :=
  spells_raw_append ((spells_number n).after_raw (by decide))

theorem spells_offset (m : Nat) : Spells d (raw ("OFFSET " ++ toString m)) (Sql.offset d) :=
  spells_raw_append ((spells_number m).after_raw (by decide))

/-- A page with both numbers is the limit and the offset behind it. -/
theorem spells_page (n m : Nat) :
    Spells d (raw ("LIMIT " ++ toString n ++ " OFFSET " ++ toString m))
      (Sql.limit d * Sql.offset d) := by
  have hoffset : Follows d (raw (" " ++ ("OFFSET " ++ toString m))) (Sql.offset d) :=
    follows_spaced (spells_offset m)
  have htext : "LIMIT " ++ toString n ++ " OFFSET " ++ toString m
      = ("LIMIT " ++ toString n) ++ (" " ++ ("OFFSET " ++ toString m)) := by
    simp only [String.append_assoc]
    rfl
  rw [htext]
  exact spells_raw_append ((spells_limit n).seq hoffset)

theorem limit_le_paging : Sql.limit d ≤ Sql.paging d := by
  have hlimit : Sql.limit d ≤ Sql.limit d * optional (Sql.offset d) := by
    rw [Sql.optional, mul_add, mul_one]
    exact le_self_add
  cases d with
  | mysql => exact hlimit
  | postgres => exact hlimit.trans le_self_add

theorem page_le_paging : Sql.limit d * Sql.offset d ≤ Sql.paging d := by
  have hpage : Sql.limit d * Sql.offset d ≤ Sql.limit d * optional (Sql.offset d) := by
    rw [Sql.optional, mul_add, mul_one]
    exact le_add_self
  cases d with
  | mysql => exact hpage
  | postgres => exact hpage.trans le_self_add

/-- The clause of each dialect is one that it takes; MySQL writes a limit where none is asked. -/
theorem follows_clause {limit : Limit} {offset : Offset} {clause : String}
    (h : d.paging? limit offset = some clause) :
    Follows d (raw (" " ++ clause)) (Sql.paging d) := by
  unfold Dialect.paging? at h
  split at h
  · cases h
  · cases h
    exact (follows_spaced (spells_limit _)).mono limit_le_paging
  · cases h
    exact (follows_spaced (spells_page _ _)).mono page_le_paging
  · cases h
    exact (follows_spaced (spells_page _ _)).mono page_le_paging
  · cases h
    exact (follows_spaced (spells_offset _)).mono le_add_self

/-- The page of each dialect is one in its own grammar, or none. -/
theorem follows_paging (limit : Limit) (offset : Offset) :
    Follows d (paging d limit offset) (optional (Sql.paging d)) := by
  unfold paging
  split
  · exact follows_pure.mono le_self_add
  · next clause hclause => exact (follows_clause hclause).mono le_add_self

/-- Where there is something to page, the clause is there. -/
theorem follows_paging_bounded {limit : Limit} {offset : Offset}
    (h : (limit.rows.isNone && offset.rows.isNone) = false) :
    Follows d (paging d limit offset) (Sql.paging d) := by
  unfold paging
  split
  · next hnone =>
    unfold Dialect.paging? at hnone
    split at hnone
    · next hlimit hoffset => simp [hlimit, hoffset] at h
    all_goals cases hnone
  · next clause hclause => exact follows_clause hclause

/-- Without numbers there is no page. -/
theorem follows_paging_none {limit : Limit} {offset : Offset}
    (h : (limit.rows.isNone && offset.rows.isNone) = true) :
    Follows d (paging d limit offset) 1 := by
  obtain ⟨_ | n⟩ := limit
  · obtain ⟨_ | m⟩ := offset
    · exact follows_pure
    · cases h
  · cases h

theorem follows_paging_limit (n : Nat) :
    Follows d (paging d ⟨some n⟩ ⟨none⟩) (Sql.limit d) := follows_spaced (spells_limit n)

/-- Without an offset a page is at most a limit, in both dialects. -/
theorem follows_paging_rows (limit : Limit) :
    Follows d (paging d limit ⟨none⟩) (optional (Sql.limit d)) := by
  obtain ⟨_ | n⟩ := limit
  · exact follows_pure.mono le_self_add
  · exact (follows_paging_limit n).mono le_add_self

/-- A table's name with its clauses, of which order and paging write what they write alone. -/
theorem spells_rows {t : Table} (htable : (Piece.name t.name).isClean d = true)
    {selection : Selection} (h : selection.Expressible)
    (hnames : ∀ n ∈ t.primaryKey ++ selection.keys.flatMap Key.names,
      (Piece.name n).isClean d = true)
    {order : SortOrder} (horder : Follows d (ordering t order) L) {limit : Limit}
    {offset : Offset} (hpaging : Follows d (paging d limit offset) M) :
    Spells d (rows d t selection order limit offset)
      (identifier * (optional (Sql.restriction d) * (L * M))) :=
  (spells_identifier htable).seq ((follows_restriction h hnames).seq (horder.seq hpaging))

/-! ## Projections -/

theorem spells_projected {t : Table} {projection : Projection} (h : projection.Named)
    (hnames : ∀ n ∈ t.names ++ projection.keys.flatMap Key.names, (Piece.name n).isClean d = true) :
    Spells d (projected t projection) (fixed d "*" + list d identifier) := by
  refine spells_lift fun columns hcolumns => ?_
  cases columns with
  | none =>
    have hstar : Spells d (raw "*") (fixed d "*") := spells_raw (by decide)
    exact hstar.mono le_self_add
  | some columns =>
    have hlist : Spells d (names columns) (list d identifier) := by
      refine spells_list (Projection.columns_ne_nil h hcolumns) fun n hn => ?_
      exact spells_identifier (hnames n (Projection.columns_subset hcolumns hn))
    exact hlist.mono le_add_self

end Draft

end DocumentQuery
