import DocumentQuery.Proofs.Connective
import DocumentQuery.Proofs.Draft.Pieces
import DocumentQuery.Proofs.Result
import DocumentQuery.Statement.Sql

/-!
# Pieces of clauses

The texts, names and placeholders that each clause of a statement is made of. A clause has one
lemma for all kinds of pieces `Q`: it asks for the clause's own texts, for the names that its keys
and its table give, and for placeholders.
-/

namespace DocumentQuery
set_option autoImplicit false

/-! ## Names -/

/-- The names that a key gives by itself. -/
def Key.names : Key → List String
  | .id => []
  | .column name => [name]

namespace Node

mutual

/-- The keys that a tree compares, in order. -/
def keys : Node → List Key
  | .comparison c => [c.key]
  | .and children => keysOfAll children
  | .or children => keysOfAll children

def keysOfAll : List Node → List Key
  | [] => []
  | child :: rest => keys child ++ keysOfAll rest

end

/-- A group compares the keys of its parts. -/
@[simp] theorem keys_node (k : Connective) (children : List Node) :
    (k.node children).keys = keysOfAll children := by
  cases k with
  | and => rw [Connective.node, keys]
  | or => rw [Connective.node, keys]

end Node

def Selection.keys : Selection → List Key
  | .everything => []
  | .matching node => node.keys

def SortOrder.keys : SortOrder → List Key
  | .unspecified => []
  | .terms ts => ts.map (·.key)

/-- The names that a table gives: its own and those of its columns. -/
def Table.names (t : Table) : List String := t.name :: (t.primaryKey ++ t.columns.getD [])

/-- The column of a key is the one it names or a primary key of the table. -/
theorem Table.column_mem {t : Table} {key : Key} {column : String}
    (h : t.column key = .ok column) : column ∈ t.primaryKey ++ key.names := by
  cases key with
  | column name =>
    cases h
    simp [Key.names]
  | id =>
    simp only [Table.column] at h
    split at h
    · next only hkey =>
      cases h
      simp [hkey]
    · cases h
    · cases h

theorem Table.columnsOf_subset {t : Table} {key : Key} {columns : List String}
    (h : t.columnsOf key = .ok columns) : columns ⊆ t.primaryKey ++ key.names := by
  cases key with
  | column name =>
    cases h
    simp [Key.names]
  | id =>
    simp only [Table.columnsOf] at h
    split at h
    · cases h
    · cases h
      simp [Key.names]

/-- No key stands for an empty list of columns. -/
theorem Table.columnsOf_ne_nil {t : Table} {key : Key} {columns : List String}
    (h : t.columnsOf key = .ok columns) : columns ≠ [] := by
  cases key with
  | column name =>
    cases h
    simp
  | id =>
    simp only [Table.columnsOf] at h
    split at h
    · cases h
    · next hsome =>
      cases h
      simpa using hsome

/-- The columns of keys are columns of the table's primary key or named by a key. -/
theorem Table.columnsOfAll_subset {t : Table} {keys : List Key} {columns : List String}
    (h : t.columnsOfAll keys = .ok columns) :
    columns ⊆ t.primaryKey ++ keys.flatMap Key.names := by
  obtain ⟨lists, hlists, rfl⟩ := map_eq_ok.1 h
  intro n hn
  obtain ⟨list, hlist, hmem⟩ := List.mem_flatten.1 hn
  obtain ⟨key, hkey, hcolumns⟩ := exists_of_mapM_eq_ok hlists hlist
  have hcolumn := Table.columnsOf_subset hcolumns hmem
  simp only [List.mem_append, List.mem_flatMap] at hcolumn ⊢
  exact hcolumn.imp_right fun hname => ⟨key, hkey, hname⟩

def Projection.keys : Projection → List Key
  | .everything => []
  | .including keys => keys
  | .excluding keys => keys

/-- A projection picks columns that the table declares or that it names itself. -/
theorem Projection.columns_subset {t : Table} {projection : Projection} {columns : List String}
    (h : projection.columns t = .ok (some columns)) :
    columns ⊆ t.names ++ projection.keys.flatMap Key.names := by
  cases projection with
  | everything => cases h
  | including keys =>
    obtain ⟨names, hnames, heq⟩ := map_eq_ok.1 h
    cases heq
    intro n hn
    have hcolumn := Table.columnsOfAll_subset hnames (List.mem_eraseDups.1 hn)
    simp only [Table.names, List.cons_append, List.mem_cons, List.mem_append] at hcolumn ⊢
    exact .inr (hcolumn.imp_left .inl)
  | excluding keys =>
    cases hcolumns : t.columns with
    | none => simp [Projection.columns, hcolumns] at h
    | some known =>
      simp only [Projection.columns, hcolumns] at h
      obtain ⟨excluded, -, h⟩ := bind_eq_ok.1 h
      split at h
      · cases h
      · next hleft =>
        cases h
        intro n hn
        have hknown := (List.mem_filter.1 hn).1
        simp [Table.names, hcolumns, hknown]

/-- A projection that names a key, unless it takes everything. -/
def Projection.Named : Projection → Prop
  | .everything => True
  | .including keys | .excluding keys => keys ≠ []

/-- A projection that names a column picks at least one. -/
theorem Projection.columns_ne_nil {t : Table} {projection : Projection} (hnamed : projection.Named)
    {columns : List String} (h : projection.columns t = .ok (some columns)) : columns ≠ [] := by
  cases projection with
  | everything => cases h
  | including keys =>
    obtain ⟨names, hnames, heq⟩ := map_eq_ok.1 h
    cases heq
    obtain ⟨lists, hlists, rfl⟩ := map_eq_ok.1 hnames
    cases mapM_eq_ok.1 hlists with
    | nil => exact absurd rfl hnamed
    | @cons key list _ rest hfirst hrest =>
      obtain ⟨column, hcolumn⟩ := List.exists_mem_of_ne_nil _ (Table.columnsOf_ne_nil hfirst)
      have hmem : column ∈ (list :: rest).flatten.eraseDups :=
        List.mem_eraseDups.2 (List.mem_flatten.2 ⟨list, by simp, hcolumn⟩)
      exact List.ne_nil_of_mem hmem
  | excluding keys =>
    cases hcolumns : t.columns with
    | none => simp [Projection.columns, hcolumns] at h
    | some known =>
      simp only [Projection.columns, hcolumns] at h
      obtain ⟨excluded, -, h⟩ := bind_eq_ok.1 h
      split at h
      · cases h
      · next hleft =>
        cases h
        exact hleft

/-- A paging clause is one of three texts. -/
theorem Dialect.paging?_eq_some {d : Dialect} {limit : Limit} {offset : Offset} {clause : String}
    (h : d.paging? limit offset = some clause) :
    ∃ n m : Nat, clause = "LIMIT " ++ toString n ∨
      clause = "LIMIT " ++ toString n ++ " OFFSET " ++ toString m ∨
      clause = "OFFSET " ++ toString m := by
  unfold Dialect.paging? at h
  split at h
  · cases h
  · cases h
    exact ⟨_, 0, .inl rfl⟩
  · cases h
    exact ⟨_, _, .inr (.inl rfl)⟩
  · cases h
    exact ⟨_, _, .inr (.inl rfl)⟩
  · cases h
    exact ⟨0, _, .inr (.inr rfl)⟩

/-! ## Comparisons with sets -/

namespace Element

variable {elements : List Element}

theorem mem_literals {p : Parameter} :
    p ∈ elements.filterMap literal? ↔ .literal p ∈ elements := by
  rw [List.mem_filterMap]
  constructor
  · rintro ⟨element, hmem, hsome⟩
    cases element with
    | literal q =>
      cases hsome
      exact hmem
    | predicate op q => cases hsome
  · exact fun hmem => ⟨_, hmem, rfl⟩

theorem mem_predicates {op : Operator} {p : Parameter} :
    (op, p) ∈ elements.filterMap predicate? ↔ .predicate op p ∈ elements := by
  rw [List.mem_filterMap]
  constructor
  · rintro ⟨element, hmem, hsome⟩
    cases element with
    | literal q => cases hsome
    | predicate op' q =>
      cases hsome
      exact hmem
  · exact fun hmem => ⟨_, hmem, rfl⟩

/-- A set with members but no comparisons has literals. -/
theorem literals_ne_nil (hne : elements ≠ []) (hnone : elements.filterMap predicate? = []) :
    elements.filterMap literal? ≠ [] := by
  obtain ⟨element, rest, rfl⟩ := List.exists_cons_of_ne_nil hne
  cases element with
  | literal p => simp [literal?]
  | predicate op p => simp [predicate?] at hnone

end Element

namespace Draft

/-- The tests that a set with comparisons among its members is made of: one for its literals, if
it has any, in front of the comparisons. -/
def setTests (column : String) (elements : List Element) : List (Draft Unit) :=
  let literals := elements.filterMap Element.literal?
  (if literals.isEmpty then [] else [listed column " IN (" literals])
    ++ (elements.filterMap Element.predicate?).map fun (op, p) => compared column op p

/-- A test of a set is the membership test of its literals or one of its comparisons. -/
theorem mem_setTests {column : String} {elements : List Element} {test : Draft Unit} :
    test ∈ setTests column elements ↔
      (elements.filterMap Element.literal? ≠ [] ∧
          test = listed column " IN (" (elements.filterMap Element.literal?)) ∨
        ∃ op p, .predicate op p ∈ elements ∧ test = compared column op p := by
  simp only [setTests, List.mem_append, List.mem_map, Prod.exists]
  constructor
  · rintro (hlisted | ⟨op, p, hmem, rfl⟩)
    · split at hlisted
      · cases hlisted
      · next hsome => exact .inl ⟨by simpa using hsome, List.mem_singleton.1 hlisted⟩
    · exact .inr ⟨op, p, Element.mem_predicates.1 hmem, rfl⟩
  · rintro (⟨hsome, rfl⟩ | ⟨op, p, hmem, rfl⟩)
    · refine .inl ?_
      rw [if_neg (by simpa using hsome)]
      exact List.mem_singleton_self _
    · exact .inr ⟨op, p, Element.mem_predicates.2 hmem, rfl⟩

/-- A set with a comparison among its members has a test. -/
theorem setTests_ne_nil (column : String) {elements : List Element}
    (h : elements.filterMap Element.predicate? ≠ []) : setTests column elements ≠ [] := by
  simp [setTests, h]

/-- What relates the membership test of the literals to `a`, and each comparison to its image under
`f`, relates the tests of a set to these in their order. -/
theorem forall₂_setTests {β : Type} {R : Draft Unit → β → Prop} {column : String}
    {elements : List Element} {a : β} {f : Operator × Parameter → β}
    (hliterals : elements.filterMap Element.literal? ≠ [] →
      R (listed column " IN (" (elements.filterMap Element.literal?)) a)
    (hpredicates : ∀ op p, .predicate op p ∈ elements → R (compared column op p) (f (op, p))) :
    List.Forall₂ R (setTests column elements)
      ((if (elements.filterMap Element.literal?).isEmpty then [] else [a])
        ++ (elements.filterMap Element.predicate?).map f) := by
  refine List.rel_append ?_ ?_
  · split
    · exact .nil
    · next hsome => exact .cons (hliterals (by simpa using hsome)) .nil
  · rw [List.forall₂_map_left_iff, List.forall₂_map_right_iff, List.forall₂_same]
    exact fun (op, p) hmem => hpredicates op p (Element.mem_predicates.1 hmem)

/-- A set of plain values is one list behind its column. -/
theorem inSet_of_literals (column : String) (negated : Bool) {elements : List Element}
    (h : elements.filterMap Element.predicate? = []) :
    inSet column negated elements
      = listed column (if negated then " NOT IN (" else " IN (")
          (elements.filterMap Element.literal?) := by
  simp only [inSet, h]

/-- A set with comparisons is a choice among its tests, in parentheses where it is negated or has
more than one. -/
theorem inSet_of_predicates (column : String) (negated : Bool) {elements : List Element}
    (h : elements.filterMap Element.predicate? ≠ []) :
    inSet column negated elements = (do
      (if negated then raw "NOT " else pure ())
      parenthesized (negated || 1 < (setTests column elements).length)
        (separated " OR " (setTests column elements))) := by
  unfold inSet setTests
  split
  · next hnone => exact absurd hnone h
  · cases negated <;> rfl

section Every

variable {Q : Piece → Prop}

/-! ## Conditions -/

/-- The texts that conditions are made of. -/
def conditionTexts : List String :=
  ["1 = 1", "1 = 0", "(", ")", " AND ", " OR ", "NOT ", " IN (", " NOT IN (", ", ", " IS NULL",
    " IS NOT NULL", " "] ++ Operator.all.map Operator.sql

section Conditions

variable (hraw : ∀ s ∈ conditionTexts, Q (.raw s)) (hvalue : ∀ p, Q (.placeholder p))
include hraw hvalue

/-- A comparison writes its column, texts of conditions and at most one placeholder. -/
theorem every_compared {column : String} (hcolumn : Q (.name column)) (op : Operator)
    (p : Parameter) : Every Q (compared column op p) := by
  refine every_seq (every_name.2 hcolumn) ?_
  have hop : Every Q (raw op.sql) :=
    every_raw.2 (hraw op.sql (List.mem_append_right _ (List.mem_map_of_mem (Operator.mem_all op))))
  have hspace : Every Q (raw " ") := every_raw.2 (hraw " " (by decide))
  split
  · exact every_raw.2 (hraw " IS NULL" (by decide))
  · exact every_raw.2 (hraw " IS NOT NULL" (by decide))
  · exact every_seq hspace (every_seq hop (every_seq hspace (every_placeholder.2 (hvalue p))))

theorem every_listed {column test : String} (hcolumn : Q (.name column))
    (htest : test ∈ conditionTexts) (ps : List Parameter) :
    Every Q (listed column test ps) := by
  refine every_seq (every_name.2 hcolumn) (every_seq (every_raw.2 (hraw test htest)) ?_)
  refine every_seq (every_placeholders (hraw ", " (by decide)) hvalue ps) ?_
  exact every_raw.2 (hraw ")" (by decide))

theorem every_setTests {column : String} (hcolumn : Q (.name column)) (elements : List Element) :
    ∀ test ∈ setTests column elements, Every Q test := by
  intro test hmem
  rcases mem_setTests.1 hmem with ⟨-, rfl⟩ | ⟨op, p, -, rfl⟩
  · exact every_listed hraw hvalue hcolumn (by decide) _
  · exact every_compared hraw hvalue hcolumn op p

theorem every_inSet {column : String} (hcolumn : Q (.name column)) (negated : Bool)
    (elements : List Element) : Every Q (inSet column negated elements) := by
  by_cases h : elements.filterMap Element.predicate? = []
  · rw [inSet_of_literals column negated h]
    refine every_listed hraw hvalue hcolumn ?_ _
    cases negated <;> decide
  · rw [inSet_of_predicates column negated h]
    refine every_seq ?_ (every_parenthesized (hraw "(" (by decide)) (hraw ")" (by decide))
      (every_separated (hraw " OR " (by decide))
        (every_setTests hraw hvalue hcolumn elements)))
    cases negated with
    | false => exact every_pure ()
    | true => exact every_raw.2 (hraw "NOT " (by decide))

/-- The column of a comparison is a primary key or the name of its key. -/
theorem every_comparison {t : Table} {c : Comparison}
    (hnames : ∀ n ∈ t.primaryKey ++ c.key.names, Q (.name n)) : Every Q (comparison t c) := by
  refine every_bind (every_lift _) fun column hcolumn => ?_
  have hname : Q (.name column) := hnames column (Table.column_mem hcolumn)
  split
  · split
    · exact every_inSet hraw hvalue hname _ _
    · exact every_compared hraw hvalue hname c.op _
  · exact every_inSet hraw hvalue hname _ _

/-- The pieces of a condition are of a kind where texts of conditions, placeholders, primary keys
and the names of the tree are. -/
theorem every_condition {t : Table} :
    (∀ nested node, (∀ n ∈ t.primaryKey ++ node.keys.flatMap Key.names, Q (.name n)) →
      Every Q (condition t nested node)) ∧
    ∀ nodes, (∀ n ∈ t.primaryKey ++ (Node.keysOfAll nodes).flatMap Key.names, Q (.name n)) →
      ∀ draft ∈ conditions t nodes, Every Q draft := by
  have hopen := hraw "(" (by decide)
  have hclose := hraw ")" (by decide)
  refine condition_induct ?comparison ?empty ?group ?nil ?cons
  case comparison =>
    intro nested c hnames
    rw [condition]
    exact every_comparison hraw hvalue (by simpa [Node.keys] using hnames)
  case empty =>
    intro nested k _
    rw [condition_empty]
    exact every_raw.2 (hraw k.emptySql (by cases k <;> decide))
  case group =>
    intro nested k children hne ih hnames
    rw [Node.keys_node] at hnames
    rw [condition_group t nested k hne]
    exact every_parenthesized hopen hclose
      (every_separated (hraw k.sql (by cases k <;> decide)) (ih hnames))
  case nil =>
    intro _ draft hmem
    cases hmem
  case cons =>
    intro child rest ihChild ihRest hnames draft hmem
    rw [conditions] at hmem
    have hchild : ∀ n ∈ t.primaryKey ++ child.keys.flatMap Key.names, Q (.name n) := by
      intro n hn
      apply hnames
      simp only [Node.keysOfAll, List.flatMap_append, List.mem_append] at hn ⊢
      tauto
    have hrest : ∀ n ∈ t.primaryKey ++ (Node.keysOfAll rest).flatMap Key.names,
        Q (.name n) := by
      intro n hn
      apply hnames
      simp only [Node.keysOfAll, List.flatMap_append, List.mem_append] at hn ⊢
      tauto
    rcases List.mem_cons.1 hmem with rfl | hmem
    · exact ihChild hchild
    · exact ihRest hrest draft hmem

/-- A restriction is the word in front of it and the pieces of its condition. -/
theorem every_restriction {t : Table} {selection : Selection} (hwhere : Q (.raw " WHERE "))
    (hnames : ∀ n ∈ t.primaryKey ++ selection.keys.flatMap Key.names, Q (.name n)) :
    Every Q (restriction t selection) := by
  cases selection with
  | everything => exact every_pure ()
  | matching node =>
    exact every_seq (every_raw.2 hwhere) ((every_condition hraw hvalue).1 false node hnames)

end Conditions

/-! ## Order and paging -/

/-- The texts that ordering clauses are made of. -/
def orderingTexts : List String := [" ORDER BY ", ", ", " ", "ASC", "DESC"]

section Ordering

variable (hraw : ∀ s ∈ orderingTexts, Q (.raw s))
include hraw

theorem every_directed (direction : Direction) {columns : List String}
    (hcolumns : ∀ n ∈ columns, Q (.name n)) : Every Q (directed direction columns) := by
  refine every_separated (hraw ", " (by decide)) fun draft hmem => ?_
  obtain ⟨n, hn, rfl⟩ := List.mem_map.1 hmem
  refine every_seq (every_name.2 (hcolumns n hn)) ?_
  refine every_seq (every_raw.2 (hraw " " (by decide))) ?_
  cases direction with
  | ascending => exact every_raw.2 (hraw "ASC" (by decide))
  | descending => exact every_raw.2 (hraw "DESC" (by decide))

/-- The columns of an order are primary keys or names of its keys. -/
theorem every_sortTerms {t : Table} (more : Bool) {terms : List SortTerm}
    (hnames : ∀ n ∈ t.primaryKey ++ (terms.map (·.key)).flatMap Key.names, Q (.name n)) :
    Every Q (sortTerms t more terms) := by
  induction terms generalizing more with
  | nil => exact every_pure ()
  | cons term rest ih =>
    have hhead : ∀ n ∈ t.primaryKey ++ term.key.names, Q (.name n) := by
      intro n hn
      apply hnames
      simp only [List.map_cons, List.flatMap_cons, List.mem_append] at hn ⊢
      tauto
    have hrest : ∀ n ∈ t.primaryKey ++ (rest.map (·.key)).flatMap Key.names, Q (.name n) := by
      intro n hn
      apply hnames
      simp only [List.map_cons, List.flatMap_cons, List.mem_append] at hn ⊢
      tauto
    rw [sortTerms]
    refine every_bind (every_lift _) fun columns hcolumns => ?_
    have hdirected := every_directed hraw term.direction
      fun n hn => hhead n (Table.columnsOf_subset hcolumns hn)
    cases more with
    | false => exact every_seq hdirected (ih true hrest)
    | true =>
      exact every_seq (every_raw.2 (hraw ", " (by decide))) (every_seq hdirected (ih true hrest))

/-- An order without terms writes nothing, and any other the words in front of its terms. -/
theorem every_ordering {t : Table} {order : SortOrder}
    (hnames : ∀ n ∈ t.primaryKey ++ order.keys.flatMap Key.names, Q (.name n)) :
    Every Q (ordering t order) := by
  rcases order with _ | ⟨_ | ⟨term, rest⟩⟩
  · exact every_pure ()
  · exact every_pure ()
  · refine every_seq (every_raw.2 (hraw " ORDER BY " (by decide))) ?_
    exact every_sortTerms hraw false hnames

end Ordering

theorem every_paging {d : Dialect} {limit : Limit} {offset : Offset}
    (h : ∀ clause, d.paging? limit offset = some clause → Q (.raw (" " ++ clause))) :
    Every Q (paging d limit offset) := by
  unfold paging
  split
  · exact every_pure ()
  · next clause hclause => exact every_raw.2 (h clause hclause)

/-! ## Projections -/

theorem every_projected {t : Table} {projection : Projection} (hstar : Q (.raw "*"))
    (hcomma : Q (.raw ", "))
    (hnames : ∀ n ∈ t.names ++ projection.keys.flatMap Key.names, Q (.name n)) :
    Every Q (projected t projection) := by
  refine every_bind (every_lift _) fun columns hcolumns => ?_
  cases columns with
  | none => exact every_raw.2 hstar
  | some columns =>
    exact every_names hcomma fun n hn => hnames n (Projection.columns_subset hcolumns hn)

end Every

end Draft

end DocumentQuery
