import DocumentQuery.Proofs.Draft.Clauses

/-!
# Faults of drafts

When the steps of a draft fail. The clauses themselves never do; a condition fails where a key is
not a single column, and then with the fault of the first such key of the tree, however deep it
stands.
-/

namespace DocumentQuery
set_option autoImplicit false

/-- Whether each of the keys stands for one column; if not, the fault of the first that does not. -/
def Table.single (t : Table) : List Key → Except StatementError Unit
  | [] => .ok ()
  | key :: rest => t.column key >>= fun _ => t.single rest

/-- Keys are resolved in order, and the first that is no single column is the fault. -/
theorem Table.single_append (t : Table) (keys others : List Key) :
    t.single (keys ++ others) = t.single keys >>= fun _ => t.single others := by
  induction keys with
  | nil => rfl
  | cons key rest ih =>
    rw [List.cons_append, single, single, ih]
    cases t.column key <;> rfl

/-- A key that is no single column is the primary key of a table that has none or several. -/
theorem Table.error_of_column {t : Table} {key : Key} {e : StatementError}
    (h : t.column key = .error e) : e = .missingKey t.name ∨ e = .compositeKey t.name := by
  cases key with
  | column name => cases h
  | id =>
    simp only [Table.column] at h
    split at h
    · cases h
    · cases h
      exact .inl rfl
    · cases h
      exact .inr rfl

/-- Keys fail where the table has no primary key, or one of several columns. -/
theorem Table.error_of_single {t : Table} {keys : List Key} {e : StatementError}
    (h : t.single keys = .error e) : e = .missingKey t.name ∨ e = .compositeKey t.name := by
  induction keys with
  | nil => cases h
  | cons key rest ih =>
    cases hcolumn : t.column key with
    | error e' =>
      rw [single, hcolumn] at h
      cases h
      exact error_of_column hcolumn
    | ok column =>
      rw [single, hcolumn] at h
      exact ih h

namespace Draft

variable {α β : Type}

@[simp] theorem outcome_pure (a : α) : (pure a : Draft α).outcome = .ok a := rfl

@[simp] theorem outcome_raw (sql : String) : (raw sql).outcome = .ok () := rfl

@[simp] theorem outcome_name (identifier : String) : (name identifier).outcome = .ok () := rfl

/-- A draft ends as its steps do one after the other. -/
theorem outcome_bind (draft : Draft α) (next : α → Draft β) :
    (draft >>= next).outcome = draft.outcome >>= fun a => (next a).outcome := by
  cases h : draft.outcome with
  | error e =>
    rw [bind_of_error h]
    rfl
  | ok a =>
    rw [bind_of_ok h]
    rfl

/-- Behind a step that ends well the rest decides. -/
theorem outcome_bind_of_ok {draft : Draft α} {a : α} (h : draft.outcome = .ok a)
    (next : α → Draft β) : (draft >>= next).outcome = (next a).outcome := by
  rw [outcome_bind, h]
  rfl

/-- Drafts with separators fail as they do one after the other. -/
theorem outcome_separated_cons (separator : String) (draft : Draft Unit)
    (rest : List (Draft Unit)) :
    (separated separator (draft :: rest)).outcome
      = draft.outcome >>= fun _ => (separated separator rest).outcome := by
  cases rest with
  | nil =>
    change draft.outcome = draft.outcome >>= fun _ => .ok ()
    cases draft.outcome <;> rfl
  | cons second others =>
    rw [separated, outcome_bind]
    · rfl
    · simp

/-- Separators do not fail, so a list of drafts that end well ends well. -/
theorem outcome_separated {separator : String} {drafts : List (Draft Unit)}
    (h : ∀ draft ∈ drafts, draft.outcome = .ok ()) :
    (separated separator drafts).outcome = .ok () := by
  induction drafts with
  | nil => rfl
  | cons draft rest ih =>
    rw [outcome_separated_cons, h draft (by simp)]
    exact ih fun other hmem => h other (List.mem_cons_of_mem _ hmem)

theorem outcome_separated_map {γ : Type} {separator : String} {f : γ → Draft Unit} {xs : List γ}
    (h : ∀ x ∈ xs, (f x).outcome = .ok ()) :
    (separated separator (xs.map f)).outcome = .ok () :=
  outcome_separated fun draft hmem => by
    obtain ⟨x, hx, rfl⟩ := List.mem_map.1 hmem
    exact h x hx

theorem outcome_parenthesized (grouped : Bool) (draft : Draft Unit) :
    (parenthesized grouped draft).outcome = draft.outcome := by
  cases grouped with
  | false => rfl
  | true =>
    rw [parenthesized]
    cases h : draft.outcome with
    | error e => simp [bind_of_error h]
    | ok a => simp [bind_of_ok h]

@[simp] theorem outcome_names (identifiers : List String) :
    (names identifiers).outcome = .ok () :=
  outcome_separated_map fun _ _ => rfl

@[simp] theorem outcome_placeholders (ps : List Parameter) :
    (placeholders ps).outcome = .ok () :=
  outcome_separated_map fun _ _ => rfl

@[simp] theorem outcome_compared (column : String) (op : Operator) (p : Parameter) :
    (compared column op p).outcome = .ok () := by
  unfold compared
  rw [name_bind]
  split <;> rfl

@[simp] theorem outcome_listed (column test : String) (ps : List Parameter) :
    (listed column test ps).outcome = .ok () := by
  simp [listed, outcome_bind_of_ok (outcome_placeholders ps)]

theorem outcome_setTests (column : String) (elements : List Element) :
    ∀ test ∈ setTests column elements, test.outcome = .ok () := by
  intro test hmem
  rcases mem_setTests.1 hmem with ⟨-, rfl⟩ | ⟨op, p, -, rfl⟩
  · exact outcome_listed _ _ _
  · exact outcome_compared column op p

@[simp] theorem outcome_inSet (column : String) (negated : Bool) (elements : List Element) :
    (inSet column negated elements).outcome = .ok () := by
  by_cases h : elements.filterMap Element.predicate? = []
  · rw [inSet_of_literals column negated h, outcome_listed]
  · rw [inSet_of_predicates column negated h]
    have htests : (separated " OR " (setTests column elements)).outcome = .ok () :=
      outcome_separated (outcome_setTests column elements)
    cases negated with
    | false =>
      rw [if_neg (by decide), outcome_bind_of_ok (outcome_pure ()), outcome_parenthesized, htests]
    | true => rw [if_pos rfl, raw_bind, outcome_parenthesized, htests]

/-- A comparison fails exactly where its key is no single column. -/
theorem outcome_comparison (t : Table) (c : Comparison) :
    (comparison t c).outcome = t.single [c.key] := by
  rw [comparison, outcome_bind, outcome_lift, Table.single]
  congr
  funext column
  split
  · split <;> simp [Table.single]
  · simp [Table.single]

/-- A condition fails with the fault of its first key that is no single column. -/
theorem outcome_condition (t : Table) :
    (∀ nested node, (condition t nested node).outcome = t.single node.keys) ∧
      ∀ nodes separator,
        (separated separator (conditions t nodes)).outcome = t.single (Node.keysOfAll nodes) := by
  refine condition_induct ?comparison ?empty ?group ?nil ?cons
  case comparison =>
    intro nested c
    rw [condition]
    exact outcome_comparison t c
  case empty =>
    intro nested k
    rw [condition_empty, Node.keys_node]
    rfl
  case group =>
    intro nested k children hne ih
    rw [condition_group t nested k hne, outcome_parenthesized, ih, Node.keys_node]
  case nil =>
    intro separator
    rfl
  case cons =>
    intro child rest ihChild ihRest separator
    rw [conditions, outcome_separated_cons, ihChild, ihRest, Node.keysOfAll, Table.single_append]

/-- A restriction fails with the first key of its selection that is no single column. -/
theorem outcome_restriction (t : Table) (selection : Selection) :
    (restriction t selection).outcome = t.single selection.keys := by
  cases selection with
  | everything => rfl
  | matching node => exact (outcome_condition t).1 false node

theorem outcome_directed (direction : Direction) (columns : List String) :
    (directed direction columns).outcome = .ok () :=
  outcome_separated_map fun _ _ => rfl

theorem outcome_paging (d : Dialect) (limit : Limit) (offset : Offset) :
    (paging d limit offset).outcome = .ok () := by
  unfold paging
  split <;> rfl

end Draft

end DocumentQuery
