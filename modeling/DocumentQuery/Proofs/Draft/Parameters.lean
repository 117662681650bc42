import DocumentQuery.Proofs.Draft.Clauses

/-!
# Parameters of drafts

Which parameters a draft binds when it ends well. Steps in a row bind theirs in a row. Only
conditions and values bind any: a condition binds the values of its tree from left to right,
except that a set binds its literals in front of its comparisons and equality with null binds
nothing.
-/

namespace DocumentQuery
set_option autoImplicit false

/-! ## Parameters of trees -/

/-- What a comparison with one value binds. -/
def Operator.bound (op : Operator) (p : Parameter) : List Parameter :=
  match op, p with
  | .eq, .null | .ne, .null => []
  | _, _ => [p]

def Comparison.parameters (c : Comparison) : List Parameter :=
  match c.operand with
  | .value p => if c.op.isMembership then [p] else c.op.bound p
  | .values elements =>
    elements.filterMap Element.literal?
      ++ (elements.filterMap Element.predicate?).flatMap fun (op, p) => op.bound p

namespace Node

mutual

def parameters : Node → List Parameter
  | .comparison c => c.parameters
  | .and children => parametersOfAll children
  | .or children => parametersOfAll children

def parametersOfAll : List Node → List Parameter
  | [] => []
  | child :: rest => parameters child ++ parametersOfAll rest

end

/-- A group binds what its parts bind. -/
@[simp] theorem parameters_node (k : Connective) (children : List Node) :
    (k.node children).parameters = parametersOfAll children := by
  cases k with
  | and => rw [Connective.node, parameters]
  | or => rw [Connective.node, parameters]

end Node

def Selection.parameters : Selection → List Parameter
  | .everything => []
  | .matching node => node.parameters

namespace Draft

variable {α β : Type}

def parameters (draft : Draft α) : List Parameter := draft.pieces.filterMap Piece.parameter?

/-! ## Steps in a row -/

/-- The parameters of a draft, where it ends well, are `ps`. -/
def Binds (draft : Draft α) (ps : List Parameter) : Prop :=
  ∀ a, draft.outcome = .ok a → draft.parameters = ps

theorem binds_pure (a : α) : Binds (pure a : Draft α) [] := fun _ _ => rfl

theorem binds_lift (result : Except StatementError α) : Binds (lift result) [] := fun _ _ => rfl

theorem binds_raw (sql : String) : Binds (raw sql) [] := fun _ _ => rfl

theorem binds_name (identifier : String) : Binds (name identifier) [] := fun _ _ => rfl

theorem binds_placeholder (p : Parameter) : Binds (placeholder p) [p] := fun _ _ => rfl

/-- Steps in a row bind their parameters in a row. -/
theorem binds_bind {draft : Draft α} {next : α → Draft β} {ps qs : List Parameter}
    (h : Binds draft ps) (hnext : ∀ a, draft.outcome = .ok a → Binds (next a) qs) :
    Binds (draft >>= next) (ps ++ qs) := by
  intro b hb
  cases houtcome : draft.outcome with
  | error e =>
    rw [bind_of_error houtcome] at hb
    cases hb
  | ok a =>
    rw [bind_of_ok houtcome] at hb ⊢
    have hps := h a houtcome
    have hqs := hnext a houtcome b hb
    rw [← hps, ← hqs]
    exact List.filterMap_append

theorem binds_seq {draft : Draft Unit} {next : Draft β} {ps qs : List Parameter}
    (h : Binds draft ps) (hnext : Binds next qs) :
    Binds (draft >>= fun _ => next) (ps ++ qs) :=
  binds_bind h fun _ _ => hnext

/-- A step that binds nothing in front of others. -/
theorem binds_skip {draft : Draft α} {next : α → Draft β} {ps : List Parameter}
    (h : Binds draft []) (hnext : ∀ a, draft.outcome = .ok a → Binds (next a) ps) :
    Binds (draft >>= next) ps :=
  binds_bind h hnext

/-- A step that binds nothing behind another. -/
theorem binds_last {draft : Draft Unit} {next : Draft β} {ps : List Parameter}
    (h : Binds draft ps) (hnext : Binds next []) : Binds (draft >>= fun _ => next) ps := by
  have hseq := binds_seq h hnext
  rwa [List.append_nil] at hseq

/-- A draft without placeholders binds nothing. -/
theorem binds_of_every {draft : Draft α} (h : Every (fun piece => piece.parameter? = none) draft) :
    Binds draft [] :=
  fun _ _ => List.filterMap_eq_nil_iff.2 h

/-- A list binds the parameters of its members in their order: separators bind none. -/
theorem binds_separated (separator : String) {drafts : List (Draft Unit)}
    {lists : List (List Parameter)} (h : List.Forall₂ Binds drafts lists) :
    Binds (separated separator drafts) lists.flatten := by
  induction h with
  | nil => exact binds_pure ()
  | @cons draft ps rest lists hdraft hrest ih =>
    cases hrest with
    | nil =>
      rw [List.flatten_singleton]
      exact hdraft
    | cons hsecond hothers =>
      rw [separated]
      · exact binds_seq hdraft (binds_skip (binds_raw separator) fun _ _ => ih)
      · simp

/-- Drafts of the members of a list, with separators, bind what they bind each. -/
theorem binds_separated_map {γ : Type} (separator : String) {f : γ → Draft Unit}
    {bound : γ → List Parameter} (xs : List γ) (h : ∀ x ∈ xs, Binds (f x) (bound x)) :
    Binds (separated separator (xs.map f)) (xs.flatMap bound) := by
  refine binds_separated separator ?_
  rw [List.forall₂_map_left_iff, List.forall₂_map_right_iff, List.forall₂_same]
  exact h

/-- Drafts of one placeholder each bind their values. -/
theorem binds_separated_each {γ : Type} (separator : String) {f : γ → Draft Unit}
    {value : γ → Parameter} (xs : List γ) (h : ∀ x ∈ xs, Binds (f x) [value x]) :
    Binds (separated separator (xs.map f)) (xs.map value) := by
  rw [List.map_eq_flatMap (f := value)]
  exact binds_separated_map separator xs h

/-- Drafts without placeholders bind nothing. -/
theorem binds_separated_none {γ : Type} (separator : String) {f : γ → Draft Unit} (xs : List γ)
    (h : ∀ x ∈ xs, Binds (f x) []) : Binds (separated separator (xs.map f)) [] := by
  have hnone := binds_separated_map separator xs h
  rwa [List.flatMap_eq_nil_iff.2 fun _ _ => rfl] at hnone

theorem binds_parenthesized (grouped : Bool) {draft : Draft Unit} {ps : List Parameter}
    (h : Binds draft ps) : Binds (parenthesized grouped draft) ps := by
  cases grouped with
  | false => exact h
  | true => exact binds_skip (binds_raw "(") fun _ _ => binds_last h (binds_raw ")")

theorem binds_names (identifiers : List String) : Binds (names identifiers) [] :=
  binds_separated_none ", " identifiers fun n _ => binds_name n

/-- A list of placeholders binds its values in order. -/
theorem binds_placeholders (ps : List Parameter) : Binds (placeholders ps) ps := by
  have h := binds_separated_each ", " ps fun p _ => binds_placeholder p
  rwa [List.map_id'] at h

/-! ## Conditions -/

/-- A comparison binds its value, unless that is written as a test for null. -/
theorem binds_compared (column : String) (op : Operator) (p : Parameter) :
    Binds (compared column op p) (op.bound p) := by
  refine binds_skip (binds_name column) fun _ _ => ?_
  split
  · exact binds_raw _
  · exact binds_raw _
  · next heq hne =>
    have hbound : op.bound p = [p] := by
      unfold Operator.bound
      split
      · exact absurd rfl (heq rfl)
      · exact absurd rfl (hne rfl)
      · rfl
    rw [hbound]
    exact binds_skip (binds_raw _) fun _ _ => binds_skip (binds_raw _) fun _ _ =>
      binds_skip (binds_raw _) fun _ _ => binds_placeholder p

theorem binds_listed (column test : String) (ps : List Parameter) :
    Binds (listed column test ps) ps :=
  binds_skip (binds_name column) fun _ _ => binds_skip (binds_raw test) fun _ _ =>
    binds_last (binds_placeholders ps) (binds_raw ")")

/-- The literals of a set are bound in front of what its comparisons bind. -/
theorem binds_setTests (column : String) (elements : List Element) :
    Binds (separated " OR " (setTests column elements))
      (elements.filterMap Element.literal?
        ++ (elements.filterMap Element.predicate?).flatMap fun (op, p) => op.bound p) := by
  have htests : List.Forall₂ Binds (setTests column elements)
      ((if (elements.filterMap Element.literal?).isEmpty then []
          else [elements.filterMap Element.literal?])
        ++ (elements.filterMap Element.predicate?).map fun (op, p) => op.bound p) :=
    forall₂_setTests (fun _ => binds_listed column " IN (" _) fun op p _ =>
      binds_compared column op p
  have hbound := binds_separated " OR " htests
  rw [List.flatten_append, ← List.flatMap_def] at hbound
  split at hbound
  · next hnone => rwa [List.isEmpty_iff.1 hnone]
  · rwa [List.flatten_singleton] at hbound

/-- A set binds its plain members first and then what its comparisons bind. -/
theorem binds_inSet (column : String) (negated : Bool) (elements : List Element) :
    Binds (inSet column negated elements)
      (elements.filterMap Element.literal?
        ++ (elements.filterMap Element.predicate?).flatMap fun (op, p) => op.bound p) := by
  by_cases h : elements.filterMap Element.predicate? = []
  · rw [inSet_of_literals column negated h, h, List.flatMap_nil, List.append_nil]
    exact binds_listed column _ _
  · rw [inSet_of_predicates column negated h]
    have hnot : Binds (if negated then raw "NOT " else pure ()) [] := by
      cases negated with
      | false => exact binds_pure ()
      | true => exact binds_raw "NOT "
    exact binds_skip hnot fun _ _ => binds_parenthesized _ (binds_setTests column elements)

/-- A comparison binds the parameters of its operand. -/
theorem binds_comparison (t : Table) (c : Comparison) :
    Binds (comparison t c) c.parameters := by
  obtain ⟨op, key, operand⟩ := c
  refine binds_skip (binds_lift _) fun column _ => ?_
  cases operand with
  | values elements => exact binds_inSet column _ elements
  | value p =>
    simp only [Comparison.parameters]
    split
    · exact binds_inSet column _ [.literal p]
    · exact binds_compared column op p

/-- A condition binds the parameters of its tree. -/
theorem binds_condition (t : Table) :
    (∀ nested node, Binds (condition t nested node) node.parameters) ∧
      ∀ nodes, ∃ lists, List.Forall₂ Binds (conditions t nodes) lists ∧
        lists.flatten = Node.parametersOfAll nodes := by
  refine condition_induct ?comparison ?empty ?group ?nil ?cons
  case comparison =>
    intro nested c
    rw [condition]
    exact binds_comparison t c
  case empty =>
    intro nested k
    rw [condition_empty, Node.parameters_node]
    exact binds_raw k.emptySql
  case group =>
    intro nested k children hne ih
    obtain ⟨lists, hlists, hflatten⟩ := ih
    rw [condition_group t nested k hne, Node.parameters_node, ← hflatten]
    exact binds_parenthesized _ (binds_separated k.sql hlists)
  case nil => exact ⟨[], .nil, rfl⟩
  case cons =>
    intro child rest ihChild ihRest
    obtain ⟨lists, hlists, hflatten⟩ := ihRest
    exact ⟨_, .cons ihChild hlists, by rw [List.flatten_cons, hflatten, Node.parametersOfAll]⟩

/-- A restriction binds the parameters of its selection in order. -/
theorem binds_restriction (t : Table) (selection : Selection) :
    Binds (restriction t selection) selection.parameters := by
  cases selection with
  | everything => exact binds_pure ()
  | matching node =>
    exact binds_skip (binds_raw " WHERE ") fun _ _ => (binds_condition t).1 false node

/-! ## Rows -/

theorem binds_ordering (t : Table) (order : SortOrder) : Binds (ordering t order) [] :=
  binds_of_every (every_ordering (fun _ _ => rfl) fun _ _ => rfl)

theorem binds_paging (d : Dialect) (limit : Limit) (offset : Offset) :
    Binds (paging d limit offset) [] :=
  binds_of_every (every_paging fun _ _ => rfl)

theorem binds_projected (t : Table) (projection : Projection) :
    Binds (projected t projection) [] :=
  binds_of_every (every_projected rfl rfl fun _ _ => rfl)

/-- Of the clauses that pick rows, the restriction alone binds parameters. -/
theorem binds_rows (d : Dialect) (t : Table) (selection : Selection) (order : SortOrder)
    (limit : Limit) (offset : Offset) :
    Binds (rows d t selection order limit offset) selection.parameters :=
  binds_skip (binds_name t.name) fun _ _ =>
    binds_last (binds_restriction t selection)
      (binds_last (binds_ordering t order) (binds_paging d limit offset))

end Draft

end DocumentQuery
