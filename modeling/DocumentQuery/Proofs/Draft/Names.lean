import DocumentQuery.Proofs.Draft.Clauses

/-!
# Names that drafts write

A clause that ends well has written the name of every column that it is about. Other clauses around
it take nothing away, so the name is in the whole statement.
-/

namespace DocumentQuery
set_option autoImplicit false

namespace Draft

variable {α β : Type} {n : String}

/-- A draft that ends well has the name among its pieces. -/
def Mentions (n : String) (draft : Draft α) : Prop :=
  ∀ a, draft.outcome = .ok a → .name n ∈ draft.pieces

/-! ## Steps in a row -/

theorem mentions_name (n : String) : Mentions n (name n) := fun _ _ => by simp

/-- A name that a step mentions is mentioned by the steps from it on. -/
theorem mentions_first {draft : Draft α} (h : Mentions n draft) (next : α → Draft β) :
    Mentions n (draft >>= next) := by
  intro b hb
  cases houtcome : draft.outcome with
  | error e =>
    rw [bind_of_error houtcome] at hb
    cases hb
  | ok a => exact mem_pieces_bind.2 (.inl (h a houtcome))

theorem mentions_next {draft : Draft α} {next : α → Draft β}
    (h : ∀ a, draft.outcome = .ok a → Mentions n (next a)) : Mentions n (draft >>= next) := by
  intro b hb
  cases houtcome : draft.outcome with
  | error e =>
    rw [bind_of_error houtcome] at hb
    cases hb
  | ok a =>
    rw [bind_of_ok houtcome] at hb
    exact mem_pieces_bind.2 (.inr ⟨a, houtcome, h a houtcome b hb⟩)

/-- A name that a step behind others writes. -/
theorem mentions_then {next : Draft β} (h : Mentions n next) (draft : Draft α) :
    Mentions n (draft >>= fun _ => next) :=
  mentions_next fun _ _ => h

/-- A list mentions the names of its members. -/
theorem mentions_separated (separator : String) {drafts : List (Draft Unit)}
    (h : ∃ draft ∈ drafts, Mentions n draft) : Mentions n (separated separator drafts) := by
  induction drafts with
  | nil => simp at h
  | cons first rest ih =>
    rw [List.exists_mem_cons_iff] at h
    cases rest with
    | nil => exact h.resolve_right (by simp)
    | cons second others =>
      rw [separated_cons_cons]
      rcases h with hfirst | hrest
      · exact mentions_first hfirst _
      · exact mentions_then (mentions_then (ih hrest) _) _

theorem mentions_separated_map (separator : String) {γ : Type} {f : γ → Draft Unit} {xs : List γ}
    {x : γ} (hx : x ∈ xs) (h : Mentions n (f x)) : Mentions n (separated separator (xs.map f)) :=
  mentions_separated separator ⟨f x, List.mem_map_of_mem hx, h⟩

theorem mentions_parenthesized (grouped : Bool) {draft : Draft Unit} (h : Mentions n draft) :
    Mentions n (parenthesized grouped draft) := by
  cases grouped with
  | false => exact h
  | true => exact mentions_then (mentions_first h _) _

theorem mentions_names {identifiers : List String} (h : n ∈ identifiers) :
    Mentions n (names identifiers) :=
  mentions_separated_map ", " h (mentions_name n)

/-! ## Conditions -/

theorem mentions_compared (column : String) (op : Operator) (p : Parameter) :
    Mentions column (compared column op p) :=
  mentions_first (mentions_name column) _

theorem mentions_listed (column test : String) (ps : List Parameter) :
    Mentions column (listed column test ps) :=
  mentions_first (mentions_name column) _

/-- A set with comparisons among its members has at least one test, and each names the column. -/
theorem mentions_inSet (column : String) (negated : Bool) (elements : List Element) :
    Mentions column (inSet column negated elements) := by
  by_cases hnone : elements.filterMap Element.predicate? = []
  · rw [inSet_of_literals column negated hnone]
    exact mentions_listed column _ _
  · rw [inSet_of_predicates column negated hnone]
    obtain ⟨⟨op, p⟩, hmem⟩ := List.exists_mem_of_ne_nil _ hnone
    have htest : compared column op p ∈ setTests column elements :=
      mem_setTests.2 (.inr ⟨op, p, Element.mem_predicates.1 hmem, rfl⟩)
    refine mentions_then (mentions_parenthesized _ (mentions_separated " OR " ?_)) _
    exact ⟨_, htest, mentions_compared column op p⟩

/-- A comparison mentions the name of its key, as that is its column. -/
theorem mentions_comparison (t : Table) {c : Comparison} (hn : n ∈ c.key.names) :
    Mentions n (comparison t c) := by
  obtain ⟨op, key, operand⟩ := c
  cases key with
  | id => cases hn
  | column name =>
    obtain rfl : n = name := List.mem_singleton.1 hn
    refine mentions_next fun column hcolumn => ?_
    obtain rfl : n = column := Except.ok.inj hcolumn
    split
    · split
      · exact mentions_inSet n _ _
      · exact mentions_compared n _ _
    · exact mentions_inSet n _ _

/-- A condition mentions the names of its tree, however deep they stand. -/
theorem mentions_condition (t : Table) :
    (∀ nested node, n ∈ node.keys.flatMap Key.names → Mentions n (condition t nested node)) ∧
      ∀ nodes, n ∈ (Node.keysOfAll nodes).flatMap Key.names →
        ∃ draft ∈ conditions t nodes, Mentions n draft := by
  refine condition_induct ?comparison ?empty ?group ?nil ?cons
  case comparison =>
    intro nested c hn
    rw [condition]
    exact mentions_comparison t (by simpa [Node.keys] using hn)
  case empty =>
    intro nested k hn
    simp [Node.keysOfAll] at hn
  case group =>
    intro nested k children hne ih hn
    rw [Node.keys_node] at hn
    rw [condition_group t nested k hne]
    exact mentions_parenthesized _ (mentions_separated _ (ih hn))
  case nil =>
    intro hn
    simp [Node.keysOfAll] at hn
  case cons =>
    intro child rest ihChild ihRest hn
    rw [Node.keysOfAll, List.flatMap_append, List.mem_append] at hn
    rw [conditions, List.exists_mem_cons_iff]
    exact hn.imp ihChild ihRest

/-- A restriction mentions the names of its selection. -/
theorem mentions_restriction (t : Table) {selection : Selection}
    (hn : n ∈ selection.keys.flatMap Key.names) : Mentions n (restriction t selection) := by
  cases selection with
  | everything => cases hn
  | matching node => exact mentions_then ((mentions_condition t).1 false node hn) _

/-! ## Clauses -/

/-- A column stands for itself in every list. -/
theorem mem_columnsOf {t : Table} {key : Key} {columns : List String} (hn : n ∈ key.names)
    (h : t.columnsOf key = .ok columns) : n ∈ columns := by
  cases key with
  | id => cases hn
  | column name =>
    obtain rfl := Except.ok.inj h
    exact hn

theorem mentions_sortTerms (t : Table) (more : Bool) {terms : List SortTerm}
    (hn : n ∈ (terms.map (·.key)).flatMap Key.names) : Mentions n (sortTerms t more terms) := by
  induction terms generalizing more with
  | nil => cases hn
  | cons term rest ih =>
    rw [List.map_cons, List.flatMap_cons, List.mem_append] at hn
    rw [sortTerms]
    refine mentions_next fun columns hcolumns => ?_
    have hterms : Mentions n (directed term.direction columns >>= fun _ =>
        sortTerms t true rest) := by
      rcases hn with hterm | hrest
      · have hmem := mem_columnsOf hterm hcolumns
        have hname := mentions_first (mentions_name n) fun _ =>
          raw " " >>= fun _ => raw term.direction.sql
        exact mentions_first (mentions_separated_map ", " hmem hname) _
      · exact mentions_then (ih true hrest) _
    cases more with
    | false => exact hterms
    | true => exact mentions_then hterms _

theorem mentions_ordering (t : Table) {order : SortOrder} (hn : n ∈ order.keys.flatMap Key.names) :
    Mentions n (ordering t order) := by
  rcases order with _ | ⟨_ | ⟨term, rest⟩⟩
  · cases hn
  · cases hn
  · exact mentions_then (mentions_sortTerms t false hn) _

/-- A column that a projection includes is in the list that it leaves. -/
theorem mentions_projected (t : Table) {keys : List Key} (hn : n ∈ keys.flatMap Key.names) :
    Mentions n (projected t (.including keys)) := by
  refine mentions_next fun columns hcolumns => ?_
  obtain ⟨names, hnames, rfl⟩ := map_eq_ok.1 hcolumns
  obtain ⟨lists, hlists, rfl⟩ := map_eq_ok.1 hnames
  obtain ⟨key, hkey, hname⟩ := List.mem_flatMap.1 hn
  obtain ⟨list, hlist, hread⟩ := exists_of_forall₂ (mapM_eq_ok.1 hlists).flip hkey
  exact mentions_names (List.mem_eraseDups.2
    (List.mem_flatten.2 ⟨list, hlist, mem_columnsOf hname hread⟩))

/-- The clauses behind a table mention the names of the selection and of the order. -/
theorem mentions_rows (d : Dialect) (t : Table) {selection : Selection} {order : SortOrder}
    (limit : Limit) (offset : Offset)
    (hn : n ∈ (selection.keys ++ order.keys).flatMap Key.names) :
    Mentions n (rows d t selection order limit offset) := by
  rw [List.flatMap_append, List.mem_append] at hn
  refine mentions_then ?_ _
  rcases hn with hselection | horder
  · exact mentions_first (mentions_restriction t hselection) _
  · exact mentions_then (mentions_first (mentions_ordering t horder) _) _

end Draft

end DocumentQuery
