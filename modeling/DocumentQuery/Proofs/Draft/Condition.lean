import DocumentQuery.Proofs.Draft.Reading

/-!
# Meaning of conditions

The SQL condition of a tree says of every row what the tree says. Every draft that stands inside a
condition reads as an operand: a comparison, a membership test, a group in parentheses or the one
child of a group; so no group is torn apart by what stands around it.
-/

namespace DocumentQuery
set_option autoImplicit false

open Sql (Condition Level Reader)
open Sql.Reader (reads)

/-! ## Well-formed trees -/

/-- A set whose comparisons are no membership tests of their own. -/
def PlainElements (elements : List Element) : Prop :=
  ∀ op p, .predicate op p ∈ elements → op.isMembership = false

/-- Only a membership operator has a set, and the set has members. -/
def Comparison.WellFormed (c : Comparison) : Prop :=
  match c.operand with
  | .value _ => True
  | .values elements => c.op.isMembership = true ∧ elements ≠ [] ∧ PlainElements elements

namespace Node

mutual

/-- A tree of well-formed comparisons; its groups may have any number of children. -/
def WellFormed : Node → Prop
  | .comparison c => c.WellFormed
  | .and children => AllWellFormed children
  | .or children => AllWellFormed children

def AllWellFormed : List Node → Prop
  | [] => True
  | child :: rest => WellFormed child ∧ AllWellFormed rest

end

/-- A group is well-formed where its members are. -/
theorem wellFormed_node {k : Connective} {children : List Node} :
    (k.node children).WellFormed ↔ AllWellFormed children := by
  cases k with
  | and => rw [Connective.node, WellFormed]
  | or => rw [Connective.node, WellFormed]

end Node

/-- The keys stand for one column each, and the columns' names do not contain the quote. -/
def Table.Resolves (d : Dialect) (t : Table) (keys : List Key) : Prop :=
  ∀ key ∈ keys, ∃ column, t.column key = .ok column ∧ d.quote ∉ column.toList

/-- A row of the database as a row of keys. -/
def Table.row (t : Table) (row : Row String) : Row Key := fun key =>
  match t.column key with
  | .ok column => row column
  | .error _ => .null

/-- What a tree says of the rows of a table. -/
def Node.meaning (t : Table) (node : Node) : Meaning := fun cmp row => node.holds cmp (t.row row)

namespace Draft

variable {d : Dialect}

/-! ## Comparisons with one value -/

/-- A comparison with a value is the column, the sign and a placeholder. -/
theorem compared_of_value (column : String) {op : Operator} {p : Parameter}
    (heq : op = .eq → p ≠ .null) (hne : op = .ne → p ≠ .null) :
    compared column op p
      = name column >>= fun _ => raw " " >>= fun _ => raw op.sql >>= fun _ =>
          raw " " >>= fun _ => placeholder p := by
  unfold compared
  congr
  funext
  split
  · exact absurd rfl (heq rfl)
  · exact absurd rfl (hne rfl)
  · rfl

/-- Equality with null is read as a test for null. -/
theorem reads_isNull {column : String} (h : d.quote ∉ column.toList) :
    Reads d (compared column .eq .null) fun cmp row =>
      Operator.eq.holds cmp (row column) .null := by
  refine ⟨rfl, .isNull column, fun cmp row => rfl, fun level outer more rest hrest => ?_⟩
  have htext : (compared column .eq .null).text d
      = (d.quoted column).toList ++ " IS NULL".toList := by
    simp [text, compared, Piece.sql]
  rw [htext, List.append_assoc, Reader.reads_column _ _ _ _ h rfl]
  exact Reader.reads_isNull level outer more rest column hrest

/-- Inequality with null is read as the negation of that test. -/
theorem reads_isNotNull {column : String} (h : d.quote ∉ column.toList) :
    Reads d (compared column .ne .null) fun cmp row =>
      Operator.ne.holds cmp (row column) .null := by
  refine ⟨rfl, .not (.isNull column), fun cmp row => ?_, fun level outer more rest hrest => ?_⟩
  · simp only [Condition.holds, Operator.holds]
    cases (row column).isNull <;> rfl
  · have htext : (compared column .ne .null).text d
        = (d.quoted column).toList ++ " IS NOT NULL".toList := by
      simp [text, compared, Piece.sql]
    rw [htext, List.append_assoc, Reader.reads_column _ _ _ _ h rfl]
    exact Reader.reads_isNotNull level outer more rest column hrest

/-- A comparison of a column with one value reads as what its operator means. -/
theorem reads_compared {column : String} (h : d.quote ∉ column.toList) {op : Operator}
    (hop : op.isMembership = false) (p : Parameter) :
    Reads d (compared column op p) fun cmp row => op.holds cmp (row column) p := by
  by_cases hisNull : op = .eq ∧ p = .null
  · obtain ⟨rfl, rfl⟩ := hisNull
    exact reads_isNull h
  by_cases hisNotNull : op = .ne ∧ p = .null
  · obtain ⟨rfl, rfl⟩ := hisNotNull
    exact reads_isNotNull h
  have heq : op = .eq → p ≠ .null := fun heq hp => hisNull ⟨heq, hp⟩
  have hne : op = .ne → p ≠ .null := fun hne hp => hisNotNull ⟨hne, hp⟩
  have hdraft := compared_of_value column heq hne
  refine ⟨outcome_compared column op p, .compared column p op,
    fun cmp row => Condition.holds_compared cmp row column heq hne,
    fun level outer more rest _ => ?_⟩
  have htext : (compared column op p).text d
      = (d.quoted column).toList ++ (" ".toList ++ (op.sql.toList ++ (" ".toList ++ ['?']))) := by
    rw [hdraft]
    simp [text, Piece.sql]
  have hparameters : (compared column op p).parameters = [p] := by
    rw [hdraft]
    rfl
  rw [htext, hparameters]
  simp only [List.append_assoc, List.singleton_append]
  rw [Reader.reads_column _ _ _ _ h rfl]
  exact Reader.reads_compared level outer more rest column hop p

/-! ## Comparisons with sets -/

/-- The values of a list are read one after the other. -/
theorem reads_members (column : String) (negated : Bool) (level : Level) (outer : List Level)
    (more : List Parameter) (rest : List Char) {ps : List Parameter} (hne : ps ≠ [])
    (read : List Parameter) :
    reads d ⟨.member column negated read, level, outer, ps ++ more⟩
        ((placeholders ps).text d ++ rest)
      = reads d ⟨.listed column negated (read ++ ps), level, outer, more⟩ rest := by
  induction ps generalizing read with
  | nil => exact absurd rfl hne
  | cons p others ih =>
    cases others with
    | nil =>
      have htext : (placeholders [p]).text d = ['?'] := text_placeholder p
      rw [htext]
      exact Reader.reads_member level outer more rest column negated read p
    | cons q others =>
      have htext : (placeholders (p :: q :: others)).text d
          = '?' :: (", ".toList ++ (placeholders (q :: others)).text d) :=
        (text_separated_cons rfl).trans (by simp [placeholders])
      have hrest := ih (by simp) (read ++ [p])
      rw [htext]
      change reads d ⟨.member column negated read, level, outer, p :: (q :: others ++ more)⟩
        ('?' :: ((", ".toList ++ (placeholders (q :: others)).text d) ++ rest)) = _
      rw [List.append_assoc, Reader.reads_member, Reader.reads_comma, hrest, List.append_assoc,
        List.singleton_append]

/-- A membership test of at least one value reads as the disjunction of the equalities with it,
or as the negation of that. -/
theorem reads_listed {column : String} (h : d.quote ∉ column.toList) (negated : Bool)
    {ps : List Parameter} (hne : ps ≠ []) :
    Reads d (listed column (if negated then " NOT IN (" else " IN (") ps) fun cmp row =>
      let found := Truth.any (ps.map (cmp.truth .equal (row column)))
      if negated then found.not else found := by
  refine ⟨outcome_listed _ _ _, .test negated (.within column ps),
    fun cmp row => Condition.holds_test cmp row negated _, fun level outer more rest _ => ?_⟩
  have hplaceholders : (placeholders ps).outcome = .ok () := outcome_placeholders ps
  have hbound : (placeholders ps).parameters = ps := binds_placeholders ps () hplaceholders
  rw [listed, text_bind (outcome_name _), text_bind (outcome_raw _), text_bind hplaceholders,
    parameters_bind (outcome_name _), parameters_bind (outcome_raw _),
    parameters_bind hplaceholders, hbound, text_name, text_raw, text_raw, parameters_name,
    parameters_raw, parameters_raw]
  simp only [List.append_assoc, List.nil_append]
  have hspace : ((if negated then " NOT IN (" else " IN (").toList
      ++ ((placeholders ps).text d ++ (")".toList ++ rest))).head? = some ' ' := by
    cases negated <;> rfl
  rw [Reader.reads_column _ _ _ _ h hspace, Reader.reads_membership,
    reads_members column negated level outer more _ hne, List.nil_append]
  exact Reader.reads_listed level outer more rest column negated ps

/-- What the tests of a set say, one by one. -/
def testMeanings (column : String) (elements : List Element) : List Meaning :=
  let literals := elements.filterMap Element.literal?
  (if literals.isEmpty then []
    else [fun cmp row => Truth.any (literals.map (cmp.truth .equal (row column)))])
    ++ (elements.filterMap Element.predicate?).map fun (op, p) => fun cmp row =>
        op.holds cmp (row column) p

/-- The tests of a set together say what its members say, in whatever order these stand. -/
theorem any_testMeanings (cmp : Comparer) (row : Row String) (column : String)
    (elements : List Element) :
    Truth.any (meaningsAt cmp row (testMeanings column elements))
      = Truth.any (elements.map (Element.holds cmp (row column))) := by
  have hsplit : ∀ elements : List Element,
      Truth.any (elements.map (Element.holds cmp (row column)))
        = (Truth.any ((elements.filterMap Element.literal?).map
            (cmp.truth .equal (row column)))).or
          (Truth.any ((elements.filterMap Element.predicate?).map fun (op, p) =>
            op.holds cmp (row column) p)) := by
    intro elements
    induction elements with
    | nil => rfl
    | cons element rest ih =>
      rw [List.map_cons, Truth.any_cons, ih]
      cases element with
      | literal p => exact (Truth.or_assoc _ _ _).symm
      | predicate op p => exact Truth.or_left_comm _ _ _
  rw [hsplit, meaningsAt, testMeanings]
  simp only [List.map_append, List.map_map]
  split
  · next hnone =>
    rw [List.isEmpty_iff.1 hnone]
    rfl
  · rfl

/-- Each test of a set is read with its own meaning. -/
theorem reads_setTests {column : String} (h : d.quote ∉ column.toList) {elements : List Element}
    (hplain : PlainElements elements) :
    List.Forall₂ (Reads d) (setTests column elements) (testMeanings column elements) := by
  exact forall₂_setTests (fun hne => reads_listed h false hne)
    fun op p hmem => reads_compared h (hplain op p hmem) p

/-- A set of at least one member reads as the disjunction of its members, or as the negation of
that. -/
theorem reads_inSet {column : String} (h : d.quote ∉ column.toList) (negated : Bool)
    {elements : List Element} (hne : elements ≠ []) (hplain : PlainElements elements) :
    Reads d (inSet column negated elements) fun cmp row =>
      let found := Truth.any (elements.map (Element.holds cmp (row column)))
      if negated then found.not else found := by
  have htests := reads_setTests h hplain
  by_cases hnone : elements.filterMap Element.predicate? = []
  · have hliterals := Element.literals_ne_nil hne hnone
    rw [inSet_of_literals column negated hnone]
    refine (reads_listed h negated hliterals).congr fun cmp row => ?_
    have hany := any_testMeanings cmp row column elements
    rw [testMeanings, hnone, if_neg (by simpa using hliterals)] at hany
    have hall : Truth.any
          ((elements.filterMap Element.literal?).map (cmp.truth .equal (row column)))
        = Truth.any (elements.map (Element.holds cmp (row column))) := by
      rw [← hany]
      exact (Truth.or_no _).symm
    simp only [hall]
  · have hmany := setTests_ne_nil column hnone
    rw [inSet_of_predicates column negated hnone]
    cases negated with
    | false =>
      rw [Bool.false_or]
      exact (reads_group .or htests hmany).congr fun cmp row =>
        any_testMeanings cmp row column elements
    | true =>
      rw [Bool.true_or]
      exact (readsWhole_joined .or htests hmany).parenthesized.not.congr fun cmp row =>
        congrArg Truth.not (any_testMeanings cmp row column elements)

/-- The comparison of a key that stands for a column. -/
theorem comparison_of_column {t : Table} {c : Comparison} {column : String}
    (h : t.column c.key = .ok column) :
    comparison t c = match c.operand with
      | .value p =>
        if c.op.isMembership then inSet column (c.op == .noneOf) [.literal p]
        else compared column c.op p
      | .values elements => inSet column (c.op == .noneOf) elements := by
  rw [comparison, h]
  rfl

/-- A comparison is read with the meaning it has on the column of its key. -/
theorem reads_comparison {t : Table} {c : Comparison} {column : String}
    (hwell : c.WellFormed) (hcolumn : t.column c.key = .ok column)
    (h : d.quote ∉ column.toList) :
    Reads d (comparison t c) fun cmp row => c.holds cmp (t.row row) := by
  have hrow : ∀ row, t.row row c.key = row column := by
    intro row
    rw [Table.row, hcolumn]
  rw [comparison_of_column hcolumn]
  obtain ⟨op, key, operand⟩ := c
  cases operand with
  | values elements =>
    obtain ⟨-, hne, hplain⟩ := hwell
    refine (reads_inSet h _ hne hplain).congr fun cmp row => ?_
    simp [Comparison.holds, hrow]
  | value p =>
    cases hop : op.isMembership with
    | false =>
      refine (reads_compared h hop p).congr fun cmp row => ?_
      simp [Comparison.holds, hrow]
    | true =>
      have hplain : PlainElements [.literal p] := by simp [PlainElements]
      refine (reads_inSet h _ (by simp) hplain).congr fun cmp row => ?_
      cases op with
      | oneOf => simp [Comparison.holds, Operator.holds, Element.holds, hrow]
      | noneOf => simp [Comparison.holds, Operator.holds, Element.holds, hrow]
      | _ => cases hop

/-! ## Trees -/

/-- A group means what its connective makes of the meanings of its parts. -/
theorem meaning_node (t : Table) (k : Connective) (children : List Node) :
    (k.node children).meaning t
      = fun cmp row => k.truth (meaningsAt cmp row (children.map (Node.meaning t))) := by
  funext cmp row
  have hparts : meaningsAt cmp row (children.map (Node.meaning t))
      = children.map (Node.holds cmp (t.row row)) := by
    rw [meaningsAt, List.map_map]
    rfl
  rw [hparts, ← Node.holdsEach_eq_map]
  cases k with
  | and => rw [Connective.node, Node.meaning, Node.holds, Connective.truth]
  | or => rw [Connective.node, Node.meaning, Node.holds, Connective.truth]

/-- A group without parts reads as the comparison of two numbers, equal or not. -/
theorem reads_empty (t : Table) (k : Connective) :
    Reads d (raw k.emptySql) ((k.node []).meaning t) := by
  cases k with
  | and =>
    refine ⟨rfl, .numbers 1 1, fun cmp row => rfl, fun level outer more rest hrest => ?_⟩
    rw [text_raw]
    exact Reader.reads_true level outer more rest hrest
  | or =>
    refine ⟨rfl, .numbers 1 0, fun cmp row => rfl, fun level outer more rest hrest => ?_⟩
    rw [text_raw]
    exact Reader.reads_false level outer more rest hrest

theorem length_conditions (t : Table) (nodes : List Node) :
    (conditions t nodes).length = nodes.length := by
  induction nodes with
  | nil => rfl
  | cons child rest ih => rw [conditions, List.length_cons, List.length_cons, ih]

theorem conditions_ne_nil (t : Table) {nodes : List Node} (h : nodes ≠ []) :
    conditions t nodes ≠ [] := by
  intro hnone
  have hlength := length_conditions t nodes
  rw [hnone] at hlength
  exact h (List.length_eq_zero_iff.1 hlength.symm)

/-- A condition reads as a whole that means what its tree does; inside another condition it reads
as an operand. -/
theorem reads_condition (d : Dialect) (t : Table) :
    (∀ nested node, node.WellFormed → t.Resolves d node.keys →
        ReadsWhole d (condition t nested node) (node.meaning t) ∧
          (nested = true → Reads d (condition t nested node) (node.meaning t))) ∧
      ∀ nodes, Node.AllWellFormed nodes → t.Resolves d (Node.keysOfAll nodes) →
        List.Forall₂ (Reads d) (conditions t nodes) (nodes.map (Node.meaning t)) := by
  -- Children always stand nested, so a group joins operands; only the outermost group is bare.
  refine condition_induct ?comparison ?empty ?group ?nil ?cons
  case comparison =>
    intro nested c hwell hkeys
    obtain ⟨column, hcolumn, hquote⟩ := hkeys c.key (by simp [Node.keys])
    rw [condition]
    have hreads : Reads d (comparison t c) ((Node.comparison c).meaning t) :=
      reads_comparison hwell hcolumn hquote
    exact ⟨hreads.whole, fun _ => hreads⟩
  case empty =>
    intro nested k _ _
    rw [condition_empty]
    exact ⟨(reads_empty t k).whole, fun _ => reads_empty t k⟩
  case group =>
    intro nested k children hne ih hwell hkeys
    rw [Node.keys_node] at hkeys
    have hchildren := ih (Node.wellFormed_node.1 hwell) hkeys
    have hsome := conditions_ne_nil t hne
    rw [condition_group t nested k hne, meaning_node, ← length_conditions t]
    cases nested with
    | false => exact ⟨readsWhole_joined k hchildren hsome, fun h => absurd h (by decide)⟩
    | true =>
      have hgroup := reads_group k hchildren hsome
      exact ⟨hgroup.whole, fun _ => hgroup⟩
  case nil =>
    intro _ _
    exact .nil
  case cons =>
    intro child rest ihChild ihRest hwell hkeys
    have hchild : t.Resolves d child.keys := fun key hkey =>
      hkeys key (by simp [Node.keysOfAll, hkey])
    have hrest : t.Resolves d (Node.keysOfAll rest) := fun key hkey =>
      hkeys key (by simp [Node.keysOfAll, hkey])
    rw [conditions]
    exact .cons ((ihChild hwell.1 hchild).2 rfl) (ihRest hwell.2 hrest)

/-- A whole is what is read of a text of its own. -/
theorem ReadsWhole.read? {draft : Draft Unit} {meaning : Meaning}
    (h : ReadsWhole d draft meaning) :
    ∃ c, Sql.read? d (Query.ofPieces d draft.pieces) = some c ∧
      ∀ cmp row, c.holds cmp row = meaning cmp row := by
  obtain ⟨-, level, c, hholds, hreads⟩ := h
  refine ⟨level.disjoin c, ?_, hholds⟩
  have hsql : (Query.ofPieces d draft.pieces).sql.toList = draft.text d := by
    rw [Query.ofPieces, String.toList_join, List.flatMap_map]
    rfl
  have hall := hreads [] [] [] Sql.endsWord_nil
  rw [List.append_nil, List.append_nil] at hall
  have hread : Reader.run ⟨.operand, {}, [], draft.parameters⟩
      (Sql.lex d (Query.ofPieces d draft.pieces).sql) = some ⟨.operator c, level, [], []⟩ := by
    rw [Sql.lex, hsql]
    exact hall
  change (Reader.run ⟨.operand, {}, [], draft.parameters⟩ _).bind Reader.condition? = _
  rw [hread]
  rfl

end Draft

/-- The SQL condition of a well-formed tree, read back with its parameters, is on every row as true
as the tree: true, false or unknown. -/
theorem Node.read_condition (d : Dialect) (t : Table) (nested : Bool) (node : Node)
    (hwell : node.WellFormed) (hkeys : t.Resolves d node.keys) :
    (Draft.condition t nested node).outcome = .ok () ∧
      ∃ c, Sql.read? d (Query.ofPieces d (Draft.condition t nested node).pieces) = some c ∧
        ∀ (cmp : Comparer) (row : Row String),
          c.holds cmp row = node.holds cmp (t.row row) := by
  obtain ⟨hwhole, -⟩ := (Draft.reads_condition d t).1 nested node hwell hkeys
  exact ⟨hwhole.1, hwhole.read?⟩

/-- A negated set with a null among its members, beside groups of one child and of none. -/
def Node.layered : Node :=
  .or
    [.and
        [.comparison ⟨.noneOf, .id, .values [.predicate .gt (.int 5), .literal .null]⟩, .and []],
      .and [.comparison ⟨.eq, .column "a b", .value .null⟩]]

/-- A tree of several levels is read, and holds for a row as its tree does. -/
theorem Node.layered_read :
    ∃ c, Sql.read? .postgres (Query.ofPieces .postgres
        (Draft.condition { name := "t" } true .layered).pieces) = some c ∧
      c.holds (fun _ x p => x == p) (fun _ => .int 1) = .unknown := by
  have hwell : Node.layered.WellFormed := by
    simp [Node.layered, Node.WellFormed, Node.AllWellFormed, Comparison.WellFormed, PlainElements,
      Operator.isMembership]
  have hkeys : Table.Resolves .postgres { name := "t" } Node.layered.keys := by
    intro key hkey
    simp only [Node.layered, Node.keys, Node.keysOfAll, List.append_nil, List.cons_append,
      List.nil_append, List.mem_cons, List.not_mem_nil, or_false] at hkey
    rcases hkey with rfl | rfl
    · exact ⟨"id", rfl, by decide⟩
    · exact ⟨"a b", rfl, by decide⟩
  obtain ⟨-, c, hread, hholds⟩ := Node.read_condition .postgres _ true .layered hwell hkeys
  exact ⟨c, hread, (hholds _ _).trans (by decide)⟩

end DocumentQuery
