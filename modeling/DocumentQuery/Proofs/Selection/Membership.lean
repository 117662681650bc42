import DocumentQuery.Proofs.Draft.Condition
import DocumentQuery.Proofs.Selection.Expressible

/-!
# Sets as choices

A set behind a membership operator and the choice between its members, each a selector of its own,
are two ways to say the same. They are read by different rules and written by different rules: a
set puts its literals in front of its comparisons and has a negation of its own. The main statement
is that both are refused with the same fault or mean the same on every row, that an exclusion means
the negation of it, and that a set of comparisons alone is written as the choice is.
-/

namespace DocumentQuery
set_option autoImplicit false

/-! ## Members of sets -/

namespace Value

/-- An item that has the form of a member of a set: a literal, or an object with one comparison
that is not about a set. What it compares with may be anything. -/
inductive IsMember : Value → Prop where
  | literal {v : Value} (scalar : v.isScalar = true) : IsMember v
  | comparison (op : Operator) (operand : Value) (plain : op.isMembership = false) :
      IsMember (.object [(op.name, operand)])

/-- A member as a selector of its own under the field of the set. -/
def memberSelector (item : Value) : Value :=
  if item.isScalar then .object [("$eq", item)] else item

theorem exists_parameter?_of_isScalar {v : Value} (h : v.isScalar = true) :
    ∃ p, v.parameter? = some p := by
  cases v with
  | null | array _ | object _ => cases h
  | _ => exact ⟨_, rfl⟩

end Value

/-- A member as a comparison of its own. -/
def Element.comparison (key : Key) : Element → Comparison
  | .literal p => ⟨.eq, key, .value p⟩
  | .predicate op p => ⟨op, key, .value p⟩

/-- A document with one operator in a set is a comparison by it. -/
theorem Element.ofValue_comparison (op : Operator) {inner : Operator}
    (h : inner.isMembership = false) (operand : Value) :
    ofValue op (.object [(inner.name, operand)])
      = (inner.parameter operand).map (.predicate inner) := by
  simp [ofValue, h]

/-- Which membership operator the set stands behind makes no difference to its members. -/
theorem Element.ofValue_congr (op op' : Operator) {item : Value} (h : item.IsMember) :
    ofValue op item = ofValue op' item := by
  cases h with
  | literal scalar =>
    obtain ⟨p, hp⟩ := Value.exists_parameter?_of_isScalar scalar
    have hliteral : ∀ op, ofValue op item = .ok (.literal p) := fun op =>
      ofValue_eq_ok.2 (.inl ⟨p, scalar, hp, rfl⟩)
    rw [hliteral, hliteral]
  | comparison inner operand plain => rw [ofValue_comparison op plain, ofValue_comparison op' plain]

/-- A membership operator takes the members of a set one by one. -/
theorem Comparison.ofValue_set {op : Operator} (hop : op.isMembership = true) (key : Key)
    {items : List Value} (hne : items ≠ []) :
    ofValue op key (.array items)
      = (items.mapM (Element.ofValue op)).map fun elements => ⟨op, key, .values elements⟩ := by
  obtain ⟨item, rest, rfl⟩ := List.exists_cons_of_ne_nil hne
  simp only [ofValue, Operand.ofValue, hop, if_true]
  cases (item :: rest).mapM (Element.ofValue op) <;> rfl

/-- An operator that is not about a set takes one value. -/
theorem Comparison.ofValue_plain {op : Operator} (hop : op.isMembership = false) (key : Key)
    (v : Value) :
    ofValue op key v = (op.parameter v).map fun p => ⟨op, key, .value p⟩ := by
  simp only [ofValue, Operand.ofValue, hop, Bool.false_eq_true, if_false]
  cases op.parameter v <;> rfl

/-! ## Reading both forms -/

namespace Selection

/-- The choice that a list of members is. -/
def choice (key : Key) (elements : List Element) : Node :=
  .or (elements.map fun element => .comparison (element.comparison key))

/-- Under the field of a set, a member's selector is read as the member is, as a comparison. -/
theorem ofSelector_memberSelector (key : Key) (op : Operator) {item : Value} (h : item.IsMember) :
    ofSelector (some key) item.memberSelector
      = (Element.ofValue op item).map fun element => comparing (element.comparison key) := by
  cases h with
  | literal scalar =>
    obtain ⟨p, hp⟩ := Value.exists_parameter?_of_isScalar scalar
    have hliteral : Element.ofValue op item = .ok (.literal p) :=
      Element.ofValue_eq_ok.2 (.inl ⟨p, scalar, hp, rfl⟩)
    have hequal : Operator.eq.parameter item = .ok p :=
      Operator.parameter_eq_ok.2 ⟨by simp [Operator.takes, scalar], hp⟩
    have hselector : item.memberSelector = .object [(Operator.eq.name, item)] := if_pos scalar
    rw [hselector, ofSelector_single, ofEntry_pair, EntryName.ofName_operator, hliteral]
    have hcompared := Comparison.ofValue_plain (rfl : Operator.eq.isMembership = false) key item
    rw [hequal] at hcompared
    simp only [hcompared]
    rfl
  | comparison inner operand plain =>
    have hselector : (Value.object [(inner.name, operand)]).memberSelector
        = .object [(inner.name, operand)] := rfl
    rw [hselector, ofSelector_single, ofEntry_pair, EntryName.ofName_operator,
      Element.ofValue_comparison op plain]
    simp only [Comparison.ofValue_plain plain]
    cases inner.parameter operand <;> rfl

variable {name : String} (hname : Key.isFieldName name = true) {items : List Value}
  (hne : items ≠ [])
include hname hne

/-- A field with a set, as its members are read. -/
theorem ofValue_set {op : Operator} (hop : op.isMembership = true) :
    ofValue (.object [(name, .object [(op.name, .array items)])])
      = (items.mapM (Element.ofValue op)).map fun elements =>
          comparing ⟨op, Key.ofName name, .values elements⟩ := by
  rw [ofValue, ofSelector_compared none hname, Comparison.ofValue_set hop _ hne]
  cases items.mapM (Element.ofValue op) <;> rfl

/-- A field with the choice between its members, as these are read. -/
theorem ofValue_choice (op : Operator) (hitems : ∀ item ∈ items, item.IsMember) :
    ofValue (.object [(name, .object [("$or", .array (items.map Value.memberSelector))])])
      = (items.mapM (Element.ofValue op)).map fun elements =>
          .matching (choice (Key.ofName name) elements) := by
  have hmembers : (items.map Value.memberSelector).mapM (ofSelector (some (Key.ofName name)))
      = (items.mapM (Element.ofValue op)).map
          (List.map fun element => comparing (element.comparison (Key.ofName name))) := by
    rw [List.mapM_map]
    exact mapM_of_map fun item hitem => ofSelector_memberSelector _ op (hitems item hitem)
  rw [ofValue, ofSelector_single, ofEntry_pair, EntryName.ofName_field hname]
  change ofSelector (some (Key.ofName name)) (.object [(Connective.or.name, _)]) = _
  rw [ofSelector_single, ofEntry_connective _ .or (by simpa using hne), hmembers]
  cases items.mapM (Element.ofValue op) with
  | error e => rfl
  | ok elements =>
    have hjoin := disjunction_matching
      (elements.map fun element => .comparison (element.comparison (Key.ofName name)))
    rw [List.map_map] at hjoin
    exact congrArg Except.ok hjoin

end Selection

/-! ## Meaning of both forms -/

/-- The condition of a tree is written without a fault, and its text is read as `c`. -/
def Node.ReadsAs (d : Dialect) (t : Table) (nested : Bool) (node : Node) (c : Sql.Condition) :
    Prop :=
  (Draft.condition t nested node).outcome = .ok () ∧
    Sql.read? d (Query.ofPieces d (Draft.condition t nested node).pieces) = some c

/-- A well-formed tree with clean columns is read with its own meaning. -/
theorem Node.exists_readsAs {d : Dialect} {t : Table} (node : Node) (hwell : node.WellFormed)
    (hkeys : t.Resolves d node.keys) (nested : Bool) :
    ∃ c, node.ReadsAs d t nested c ∧
      ∀ cmp row, c.holds cmp row = node.holds cmp (t.row row) := by
  obtain ⟨hwhole, -⟩ := (Draft.reads_condition d t).1 nested node hwell hkeys
  obtain ⟨c, hread, hholds⟩ := hwhole.read?
  exact ⟨c, ⟨hwhole.1, hread⟩, hholds⟩

/-- A member means on a row what its comparison does: equality with a literal that is not null is
plain equality. -/
theorem Element.holds_comparison (cmp : Comparer) (row : Row Key) (key : Key) {element : Element}
    (h : element.Expressible) :
    (element.comparison key).holds cmp row = element.holds cmp (row key) := by
  cases element with
  | predicate op p => rfl
  | literal p =>
    have hnull : p.isNull = false := by
      cases p with
      | null => exact absurd rfl h
      | _ => rfl
    simp [comparison, Comparison.holds, Operator.holds, Element.holds, hnull]

section Members

variable {key : Key} {elements : List Element}

theorem Node.keysOfAll_comparisons (key : Key) (elements : List Element) :
    ∀ k ∈ Node.keysOfAll (elements.map fun element => .comparison (element.comparison key)),
      k = key := by
  induction elements with
  | nil => simp [keysOfAll]
  | cons element rest ih =>
    have hkey : (element.comparison key).key = key := by cases element <;> rfl
    simpa [keysOfAll, keys, hkey] using ih

/-- The comparisons of members are well-formed. -/
theorem Node.allWellFormed_comparisons (key : Key) (elements : List Element) :
    Node.AllWellFormed (elements.map fun element => .comparison (element.comparison key)) := by
  induction elements with
  | nil => trivial
  | cons element rest ih =>
    refine ⟨?_, ih⟩
    cases element <;> trivial

/-- A choice among comparisons holds as its members do. -/
theorem Node.holds_choice (cmp : Comparer) (row : Row Key)
    (h : ∀ element ∈ elements, element.Expressible) :
    (Selection.choice key elements).holds cmp row
      = Truth.any (elements.map (Element.holds cmp (row key))) := by
  rw [Selection.choice, holds, holdsEach_eq_map, List.map_map]
  exact congrArg Truth.any
    (List.map_congr_left fun element hmem => Element.holds_comparison cmp row key (h element hmem))

/-- The set, the choice between its members and the exclusion of the set are read as conditions of
which the second means what the first does and the third the negation of that. -/
theorem Node.readsAs_members {d : Dialect} {t : Table} {column : String}
    (hcolumn : t.column key = .ok column) (hquote : d.quote ∉ column.toList) (hne : elements ≠ [])
    (h : ∀ element ∈ elements, element.Expressible) (nested : Bool) :
    ∃ c c' c'', ReadsAs d t nested (.comparison ⟨.oneOf, key, .values elements⟩) c ∧
      ReadsAs d t nested (Selection.choice key elements) c' ∧
      ReadsAs d t nested (.comparison ⟨.noneOf, key, .values elements⟩) c'' ∧
      ∀ (cmp : Comparer) (row : Row String),
        c'.holds cmp row = c.holds cmp row ∧ c''.holds cmp row = (c.holds cmp row).not := by
  have hplain : PlainElements elements := fun op p hmem => (h _ hmem).1
  have hkey : t.Resolves d [key] := by
    intro k hk
    exact ⟨column, List.mem_singleton.1 hk ▸ hcolumn, hquote⟩
  have hkeys : t.Resolves d (Selection.choice key elements).keys := fun k hk =>
    hkey k (List.mem_singleton.2 (keysOfAll_comparisons key elements k hk))
  obtain ⟨c, hc, hset⟩ := exists_readsAs (.comparison ⟨.oneOf, key, .values elements⟩)
    ⟨rfl, hne, hplain⟩ hkey nested
  obtain ⟨c', hc', hchoice⟩ := exists_readsAs (Selection.choice key elements)
    (allWellFormed_comparisons key elements) hkeys nested
  obtain ⟨c'', hc'', hexclusion⟩ := exists_readsAs (.comparison ⟨.noneOf, key, .values elements⟩)
    ⟨rfl, hne, hplain⟩ hkey nested
  refine ⟨c, c', c'', hc, hc', hc'', fun cmp row => ⟨?_, ?_⟩⟩
  · rw [hset, hchoice, holds_choice cmp _ h]
    rfl
  · rw [hset, hexclusion]
    rfl

/-- Where the members are comparisons, the set is written inside another condition as their choice
is: side by side, and in parentheses where there are several. -/
theorem Draft.condition_choice {t : Table} {column : String} (hcolumn : t.column key = .ok column)
    (hne : elements ≠ [])
    (h : ∀ element ∈ elements, ∃ op p, element = .predicate op p ∧ op.isMembership = false) :
    condition t true (.comparison ⟨.oneOf, key, .values elements⟩)
      = condition t true (Selection.choice key elements) := by
  have hliterals : elements.filterMap Element.literal? = [] := by
    refine List.filterMap_eq_nil_iff.2 fun element hmem => ?_
    obtain ⟨op, p, rfl, -⟩ := h element hmem
    rfl
  have hpredicates : elements.filterMap Element.predicate? ≠ [] := by
    obtain ⟨element, rest, rfl⟩ := List.exists_cons_of_ne_nil hne
    obtain ⟨op, p, rfl, -⟩ := h element List.mem_cons_self
    simp [Element.predicate?]
  have htests : setTests column elements
      = conditions t (elements.map fun element => .comparison (element.comparison key)) := by
    rw [setTests, hliterals, List.isEmpty_nil, if_pos rfl, List.nil_append]
    clear hne hliterals hpredicates
    induction elements with
    | nil => rfl
    | cons element rest ih =>
      obtain ⟨op, p, rfl, hop⟩ := h element List.mem_cons_self
      rw [List.map_cons, conditions, condition, ← ih fun e he => h e (List.mem_cons_of_mem _ he),
        comparison_of_column (c := (Element.predicate op p).comparison key) hcolumn]
      simp [Element.comparison, Element.predicate?, hop]
  have hchildren : elements.map (fun element => Node.comparison (element.comparison key)) ≠ [] := by
    simpa using hne
  rw [condition, comparison_of_column hcolumn, Selection.choice, condition]
  · change inSet column false elements = _
    rw [inSet_of_predicates column false hpredicates, htests, length_conditions]
    rfl
  · exact hchildren

end Members

namespace Selection

/-- A field with a set and the field with the choice between the set's members are both refused with
the same fault, or both read. Then on every table that knows the field they are conditions of the
same truth on every row, and the exclusion of the set is the negation of it. A set of comparisons
alone is written inside another condition just as the choice is. -/
theorem set_alike_choice {name : String} (hname : Key.isFieldName name = true)
    {items : List Value} (hne : items ≠ []) (hitems : ∀ item ∈ items, item.IsMember) :
    (∀ e, ofValue (.object [(name, .object [("$in", .array items)])]) = .error e ↔
        ofValue (.object [(name, .object [("$or", .array (items.map Value.memberSelector))])])
          = .error e) ∧
      ∀ sel, ofValue (.object [(name, .object [("$in", .array items)])]) = .ok sel →
        ∃ found chosen excluded : Node, sel = .matching found ∧
          ofValue (.object [(name, .object [("$or", .array (items.map Value.memberSelector))])])
            = .ok (.matching chosen) ∧
          ofValue (.object [(name, .object [("$nin", .array items)])])
            = .ok (.matching excluded) ∧
          ∀ (t : Table) (column : String), t.column (Key.ofName name) = .ok column →
            (∀ (d : Dialect) (nested : Bool), d.quote ∉ column.toList →
              ∃ c c' c'', found.ReadsAs d t nested c ∧ chosen.ReadsAs d t nested c' ∧
                excluded.ReadsAs d t nested c'' ∧
                ∀ (cmp : Comparer) (row : Row String),
                  c'.holds cmp row = c.holds cmp row ∧
                    c''.holds cmp row = (c.holds cmp row).not) ∧
            ((∀ item ∈ items, item.isScalar = false) →
              Draft.condition t true found = Draft.condition t true chosen) := by
  have hset := ofValue_set hname hne (rfl : Operator.oneOf.isMembership = true)
  have hchoice := ofValue_choice hname hne .oneOf hitems
  have hexclusion := ofValue_set hname hne (rfl : Operator.noneOf.isMembership = true)
  have hsame : items.mapM (Element.ofValue .noneOf) = items.mapM (Element.ofValue .oneOf) :=
    mapM_congr fun item hitem => Element.ofValue_congr .noneOf .oneOf (hitems item hitem)
  rw [hsame] at hexclusion
  change ofValue (.object [(name, .object [("$in", .array items)])]) = _ at hset
  change ofValue (.object [(name, .object [("$nin", .array items)])]) = _ at hexclusion
  rw [hset, hchoice, hexclusion]
  cases hread : items.mapM (Element.ofValue .oneOf) with
  | error e => exact ⟨fun _ => Iff.rfl, fun sel h => by cases h⟩
  | ok elements =>
    refine ⟨fun e => iff_of_false (fun h => by cases h) (fun h => by cases h), fun sel h => ?_⟩
    cases h
    have hmembers := mapM_eq_ok.1 hread
    have hexpressible : ∀ element ∈ elements, element.Expressible := by
      intro element hmem
      obtain ⟨item, -, hitem⟩ := exists_of_mapM_eq_ok hread hmem
      exact Element.expressible_of_ofValue hitem
    have hsome : elements ≠ [] := by
      rintro rfl
      cases hmembers
      exact hne rfl
    refine ⟨_, _, _, rfl, rfl, rfl, fun t column hcolumn => ⟨fun d nested hquote => ?_, ?_⟩⟩
    · exact Node.readsAs_members hcolumn hquote hsome hexpressible nested
    · intro hcomparisons
      refine Draft.condition_choice hcolumn hsome fun element hmem => ?_
      obtain ⟨item, hitem, hread⟩ := exists_of_mapM_eq_ok hread hmem
      rcases Element.ofValue_eq_ok.1 hread with
        ⟨p, hscalar, -, -⟩ | ⟨op, operand, p, -, hop, -, rfl⟩
      · rw [hcomparisons item hitem] at hscalar
        cases hscalar
      · exact ⟨op, p, rfl, hop⟩

/-- A literal between two comparisons, one of them with null. -/
def mixed : List Value :=
  [.object [("$like", .text "a%")], .int 1, .object [("$eq", .null)]]

/-- A set of a plain value between two comparisons, in its three forms. -/
theorem mixed_alike :
    ∃ found chosen excluded : Node,
      ofValue (.object [("a", .object [("$in", .array mixed)])]) = .ok (.matching found) ∧
      ofValue (.object [("a", .object [("$or", .array (mixed.map Value.memberSelector))])])
        = .ok (.matching chosen) ∧
      ofValue (.object [("a", .object [("$nin", .array mixed)])]) = .ok (.matching excluded) ∧
      ∃ c c' c'', found.ReadsAs .mysql { name := "t" } false c ∧
        chosen.ReadsAs .mysql { name := "t" } false c' ∧
        excluded.ReadsAs .mysql { name := "t" } false c'' ∧
        c'.holds (fun _ x p => x == p) (fun _ => .null)
            = c.holds (fun _ x p => x == p) (fun _ => .null) ∧
          c''.holds (fun _ x p => x == p) (fun _ => .null)
            = (c.holds (fun _ x p => x == p) (fun _ => .null)).not := by
  have hmembers : ∀ item ∈ mixed, item.IsMember := by
    intro item hitem
    simp only [mixed, List.mem_cons, List.not_mem_nil, or_false] at hitem
    rcases hitem with rfl | rfl | rfl
    · exact .comparison .like _ rfl
    · exact .literal rfl
    · exact .comparison .eq _ rfl
  obtain ⟨-, hread⟩ := set_alike_choice (rfl : Key.isFieldName "a" = true)
    (List.cons_ne_nil _ _) hmembers
  obtain ⟨found, chosen, excluded, hfound, hchosen, hexcluded, hboth⟩ := hread _ rfl
  obtain ⟨hmeaning, -⟩ := hboth { name := "t" } "a" rfl
  obtain ⟨c, c', c'', hc, hc', hc'', hholds⟩ := hmeaning .mysql false (by decide)
  exact ⟨found, chosen, excluded, congrArg Except.ok hfound, hchosen, hexcluded, c, c', c'', hc,
    hc', hc'', hholds _ _⟩

end Selection

end DocumentQuery
