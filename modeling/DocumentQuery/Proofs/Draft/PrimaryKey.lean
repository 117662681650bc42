import DocumentQuery.Proofs.Clause.Columns

/-!
# The primary key by its columns

What a clause writes where the primary key is called by the names of its columns instead. In a
projection and in an order each mention of it gives way to all of its columns, in a condition to
its only one; the clause is drafted as before, down to its faults.
-/

namespace DocumentQuery
set_option autoImplicit false

/-! ## Keys by name -/

/-- A key by name, where the primary key is the one column `c`. -/
def Key.resolve (c : String) : Key → Key
  | .id => .column c
  | .column name => .column name

/-- The keys in the place of a key in a list: for the primary key, its columns. -/
def Key.expand (primaryKey : List String) : Key → List Key
  | .id => primaryKey.map column
  | .column name => [.column name]

namespace Node

mutual

/-- The tree with the primary key by name, at any depth. -/
def resolve (c : String) : Node → Node
  | .comparison test => .comparison { test with key := test.key.resolve c }
  | .and children => .and (resolveEach c children)
  | .or children => .or (resolveEach c children)

def resolveEach (c : String) : List Node → List Node
  | [] => []
  | child :: rest => resolve c child :: resolveEach c rest

end

theorem resolve_node (c : String) (k : Connective) (children : List Node) :
    (k.node children).resolve c = k.node (resolveEach c children) := by
  cases k with
  | and => rw [Connective.node, resolve]
  | or => rw [Connective.node, resolve]

theorem length_resolveEach (c : String) (nodes : List Node) :
    (resolveEach c nodes).length = nodes.length := by
  induction nodes with
  | nil => rfl
  | cons child rest ih => rw [resolveEach, List.length_cons, ih, List.length_cons]

theorem eq_nil_of_resolveEach {c : String} {nodes : List Node} (h : resolveEach c nodes = []) :
    nodes = [] := by
  cases nodes with
  | nil => rfl
  | cons child rest => cases h

end Node

/-- The term for each of the columns of its key, in its direction. -/
def SortTerm.expand (primaryKey : List String) (term : SortTerm) : List SortTerm :=
  (term.key.expand primaryKey).map fun key => ⟨key, term.direction⟩

def SortOrder.expand (primaryKey : List String) : SortOrder → SortOrder
  | .unspecified => .unspecified
  | .terms ts => .terms (ts.flatMap (SortTerm.expand primaryKey))

def Projection.expand (primaryKey : List String) : Projection → Projection
  | .everything => .everything
  | .including keys => .including (keys.flatMap (Key.expand primaryKey))
  | .excluding keys => .excluding (keys.flatMap (Key.expand primaryKey))

/-! ### No mention is left -/

/-- Columns stand in for the primary key, so it is gone. -/
theorem Key.id_notMem_expand (primaryKey : List String) (key : Key) :
    .id ∉ key.expand primaryKey := by
  cases key <;> simp [expand]

/-- A resolved tree mentions the primary key nowhere. -/
theorem Node.id_notMem_keys_resolve (c : String) :
    (∀ node : Node, .id ∉ (node.resolve c).keys) ∧
      ∀ nodes, .id ∉ keysOfAll (resolveEach c nodes) := by
  refine resolve.mutual_induct _ _ ?comparison ?and ?or ?nil ?cons
  case comparison =>
    rintro ⟨op, key, operand⟩
    cases key <;> simp [resolve, keys, Key.resolve]
  case and => exact fun children ih => ih
  case or => exact fun children ih => ih
  case nil => exact List.not_mem_nil
  case cons =>
    intro child rest ihChild ihRest
    rw [resolveEach, keysOfAll, List.mem_append]
    exact not_or_intro ihChild ihRest

theorem Projection.id_notMem_keys_expand (primaryKey : List String) (projection : Projection) :
    .id ∉ (projection.expand primaryKey).keys := by
  cases projection <;> simp [expand, keys, Key.id_notMem_expand]

theorem SortOrder.id_notMem_keys_expand (primaryKey : List String) (order : SortOrder) :
    .id ∉ (order.expand primaryKey).keys := by
  cases order with
  | unspecified => exact List.not_mem_nil
  | terms ts =>
    simp only [expand, keys, List.mem_map, List.mem_flatMap, SortTerm.expand]
    rintro ⟨_, ⟨term, -, key, hkey, rfl⟩, rfl⟩
    exact Key.id_notMem_expand primaryKey term.key hkey

/-! ## Tables -/

/-- A resolved key stands for the same column. -/
theorem Table.column_resolve {t : Table} {c : String} (h : t.primaryKey = [c]) (key : Key) :
    t.column (key.resolve c) = t.column key := by
  cases key with
  | column name => rfl
  | id => simp [Key.resolve, column, h]

/-- The columns of expanded keys are those of the key, in the same order. -/
theorem Key.columns_expand (primaryKey : List String) (key : Key) :
    (key.expand primaryKey).flatMap (columns primaryKey) = key.columns primaryKey := by
  cases key with
  | column name => rfl
  | id => simp [expand, List.flatMap_map, columns]

/-- Expanded keys stand for the same columns, without a fault of their own. -/
theorem Table.columnsOfAll_expand {t : Table} (h : t.primaryKey ≠ []) (keys : List Key) :
    t.columnsOfAll (keys.flatMap (Key.expand t.primaryKey)) = t.columnsOfAll keys := by
  rw [columnsOfAll_of_key h, columnsOfAll_of_key h, List.flatMap_assoc]
  simp only [Key.columns_expand]

/-- An inclusion still names each column once, and an exclusion still leaves the same columns. -/
theorem Projection.columns_expand {t : Table} (h : t.primaryKey ≠ []) (projection : Projection) :
    (projection.expand t.primaryKey).columns t = projection.columns t := by
  cases projection with
  | everything => rfl
  | including keys => rw [expand, columns, t.columnsOfAll_expand h, columns]
  | excluding keys =>
    rw [expand, columns, t.columnsOfAll_expand h, columns]

/-! ## Clauses -/

namespace Draft

variable {t : Table}

theorem projected_expand (h : t.primaryKey ≠ []) (projection : Projection) :
    projected t (projection.expand t.primaryKey) = projected t projection := by
  rw [projected, projected, projection.columns_expand h]

/-- A comparison only asks for the column of its key. -/
theorem condition_resolve {c : String} (h : t.primaryKey = [c]) :
    (∀ nested node, condition t nested (node.resolve c) = condition t nested node) ∧
      ∀ nodes, conditions t (Node.resolveEach c nodes) = conditions t nodes := by
  refine condition_induct ?comparison ?empty ?group ?nil ?cons
  case comparison =>
    intro nested test
    rw [Node.resolve, condition, condition, comparison, comparison, t.column_resolve h]
  case empty =>
    intro nested k
    rw [Node.resolve_node]
    rfl
  case group =>
    intro nested k children hne ih
    rw [Node.resolve_node, condition_group t nested k (mt Node.eq_nil_of_resolveEach hne),
      condition_group t nested k hne, ih, Node.length_resolveEach]
  case nil => rfl
  case cons =>
    intro child rest ihChild ihRest
    rw [Node.resolveEach, conditions, conditions, ihChild, ihRest]

/-- A term for each of several columns writes what one term does that has them all. -/
theorem sortTerms_columns (direction : Direction) (rest : List SortTerm) (first : String)
    (others : List String) :
    sortTerms t false ((first :: others).map (fun name => ⟨.column name, direction⟩) ++ rest)
      = directed direction (first :: others) >>= fun _ => sortTerms t true rest := by
  induction others generalizing first with
  | nil => rfl
  | cons second more ih =>
    have hdirected : directed direction (first :: second :: more)
        = directed direction [first] >>= fun _ => raw ", " >>= fun _ =>
            directed direction (second :: more) := rfl
    calc sortTerms t false
          ((first :: second :: more).map (fun name => ⟨.column name, direction⟩) ++ rest)
        = directed direction [first] >>= fun _ => raw ", " >>= fun _ => sortTerms t false
            ((second :: more).map (fun name => ⟨.column name, direction⟩) ++ rest) := rfl
      _ = directed direction (first :: second :: more) >>= fun _ => sortTerms t true rest := by
          rw [ih, hdirected, bind_assoc, bind_assoc]

theorem sortTerms_expand (h : t.primaryKey ≠ []) (more : Bool) (ts : List SortTerm) :
    sortTerms t more (ts.flatMap (SortTerm.expand t.primaryKey)) = sortTerms t more ts := by
  induction ts generalizing more with
  | nil => rfl
  | cons term rest ih =>
    obtain ⟨_ | name, direction⟩ := term
    · obtain ⟨first, others, hkey⟩ := List.exists_cons_of_ne_nil h
      have hcolumns : t.columnsOf .id = .ok (first :: others) := by
        rw [Table.columnsOf_of_key h, Key.columns, hkey]
      have hexpand : SortTerm.expand t.primaryKey ⟨.id, direction⟩
          = (first :: others).map fun name => ⟨.column name, direction⟩ := by
        rw [SortTerm.expand, hkey]
        exact List.map_map
      rw [List.flatMap_cons, hexpand, sortTerms, hcolumns]
      have hterms := sortTerms_columns (t := t) direction
        (rest.flatMap (SortTerm.expand t.primaryKey)) first others
      rw [ih] at hterms
      cases more with
      | false => exact hterms
      | true => exact congrArg (fun draft => raw ", " >>= fun _ => draft) hterms
    · have hname : SortTerm.expand t.primaryKey ⟨.column name, direction⟩
          = [⟨.column name, direction⟩] := rfl
      rw [List.flatMap_cons, hname, List.singleton_append, sortTerms, sortTerms, ih]

theorem ordering_expand (h : t.primaryKey ≠ []) (order : SortOrder) :
    ordering t (order.expand t.primaryKey) = ordering t order := by
  rcases order with _ | ⟨_ | ⟨term, rest⟩⟩
  · rfl
  · rfl
  have hterms := sortTerms_expand h false (term :: rest)
  obtain ⟨first, others, hcons⟩ :
      ∃ first others, (term :: rest).flatMap (SortTerm.expand t.primaryKey) = first :: others := by
    refine List.exists_cons_of_ne_nil ?_
    obtain ⟨_ | name, direction⟩ := term <;> simp [SortTerm.expand, Key.expand, h]
  rw [SortOrder.expand, hcons]
  rw [hcons] at hterms
  exact congrArg (fun draft => raw " ORDER BY " >>= fun _ => draft) hterms

end Draft

end DocumentQuery
