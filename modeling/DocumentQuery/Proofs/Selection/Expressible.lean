import DocumentQuery.Proofs.Connective
import DocumentQuery.Proofs.Selection.Induction

/-!
# Expressible trees

The trees that a selector can describe. Trees may be built by hand with empty groups, sets behind
any operator or nulls where none can be read; a document never gives such a tree. Every other tree
is written by a document of its own, which is read as exactly that tree: no group, no order and no
kind of key is lost.
-/

namespace DocumentQuery
set_option autoImplicit false

/-! ## What a document can say -/

/-- Operators compare with one value of their own kind: equality with any value, null among them,
order with any value but null, and patterns with a text. -/
def Operator.Suits (op : Operator) (p : Parameter) : Prop :=
  match op with
  | .eq | .ne => True
  | .gt | .ge | .lt | .le => p ≠ .null
  | .like | .notLike => ∃ s, p = .text s
  | .oneOf | .noneOf => False

/-- A member of a set is a literal other than null, or a comparison with one value. -/
def Element.Expressible : Element → Prop
  | .literal p => p ≠ .null
  | .predicate op p => op.isMembership = false ∧ op.Suits p

/-- A column whose name is not kept for operators, or the primary key. -/
def Key.Expressible : Key → Prop
  | .id => True
  | .column name => isReserved name = false

/-- A membership operator has a set with members, any other operator a value that suits it. -/
def Comparison.Expressible (c : Comparison) : Prop :=
  c.key.Expressible ∧
    match c.operand with
    | .value p => c.op.isMembership = false ∧ c.op.Suits p
    | .values elements =>
      c.op.isMembership = true ∧ elements ≠ [] ∧ ∀ element ∈ elements, element.Expressible

/-- A tree of expressible comparisons whose groups all have children. -/
inductive Node.Expressible : Node → Prop where
  | comparison {c : Comparison} (h : c.Expressible) : Expressible (.comparison c)
  | and {children : List Node} (nonempty : children ≠ [])
      (each : ∀ child ∈ children, Expressible child) : Expressible (.and children)
  | or {children : List Node} (nonempty : children ≠ [])
      (each : ∀ child ∈ children, Expressible child) : Expressible (.or children)

/-- A document can say a group where it can say each member and there is one. -/
theorem Node.expressible_node {k : Connective} {children : List Node} :
    (k.node children).Expressible ↔ children ≠ [] ∧ ∀ child ∈ children, child.Expressible := by
  cases k with
  | and =>
    constructor
    · intro h
      cases h with
      | and nonempty each => exact ⟨nonempty, each⟩
    · exact fun ⟨nonempty, each⟩ => .and nonempty each
  | or =>
    constructor
    · intro h
      cases h with
      | or nonempty each => exact ⟨nonempty, each⟩
    · exact fun ⟨nonempty, each⟩ => .or nonempty each

def Selection.Expressible : Selection → Prop
  | .everything => True
  | .matching node => node.Expressible

/-! ## Trees as documents -/

/-- The value that a parameter was made of. -/
def Parameter.toValue : Parameter → Value
  | .null => .null
  | .bool b => .bool b
  | .int n => .int n
  | .float x => .float x
  | .text s => .text s
  | .timestamp t => .date t
  | .blob bytes => .binary bytes

@[simp] theorem Parameter.parameter?_toValue (p : Parameter) : p.toValue.parameter? = some p := by
  cases p <;> rfl

theorem Parameter.isScalar_toValue {p : Parameter} (h : p ≠ .null) : p.toValue.isScalar = true := by
  cases p with
  | null => exact absurd rfl h
  | _ => rfl

/-- The name of a key in a document. -/
def Key.documentName : Key → String
  | .id => idName
  | .column name => name

def Element.toValue : Element → Value
  | .literal p => p.toValue
  | .predicate op p => .object [(op.name, p.toValue)]

def Operand.toValue : Operand → Value
  | .value p => p.toValue
  | .values elements => .array (elements.map Element.toValue)

def Comparison.toValue (c : Comparison) : Value :=
  .object [(c.key.documentName, .object [(c.op.name, c.operand.toValue)])]

namespace Node

mutual

/-- The document that writes a tree: every comparison under its field, every group by its name. -/
def toValue : Node → Value
  | .comparison c => c.toValue
  | .and children => .object [(Connective.and.name, .array (toValues children))]
  | .or children => .object [(Connective.or.name, .array (toValues children))]

def toValues : List Node → List Value
  | [] => []
  | child :: rest => toValue child :: toValues rest

end

theorem toValues_eq_map (nodes : List Node) : toValues nodes = nodes.map toValue := by
  induction nodes with
  | nil => rfl
  | cons child rest ih => rw [toValues, ih, List.map_cons]

end Node

/-! ## Documents give expressible trees -/

/-- A name of a field gives a key that a document can name. -/
theorem Key.expressible_ofName {name : String} (h : isFieldName name = true) :
    (ofName name).Expressible := by
  unfold ofName
  split
  · trivial
  · next hne => simpa [isFieldName, hne, Expressible] using h

namespace Operator

/-- An operator is read with values only that it can be written with. -/
theorem suits_of_parameter {op : Operator} {v : Value} {p : Parameter}
    (hop : op.isMembership = false) (h : op.parameter v = .ok p) : op.Suits p := by
  obtain ⟨htakes, hp⟩ := parameter_eq_ok.1 h
  have hnull : v.isScalar = true → p ≠ .null := by
    rintro hscalar rfl
    cases v with
    | null => cases hscalar
    | _ => cases hp
  have htext : v.kind = .string → ∃ s, p = .text s := by
    intro hkind
    cases v with
    | text s =>
      cases hp
      exact ⟨s, rfl⟩
    | _ => cases hkind
  cases op with
  | eq | ne => trivial
  | gt | ge | lt | le => exact hnull htakes
  | like | notLike => exact htext (of_decide_eq_true htakes)
  | oneOf | noneOf => cases hop

/-- What suits an operator is read behind it as it was written. -/
theorem parameter_of_suits {op : Operator} {p : Parameter} (h : op.Suits p) :
    op.parameter p.toValue = .ok p := by
  refine parameter_eq_ok.2 ⟨?_, p.parameter?_toValue⟩
  cases op with
  | eq | ne => cases p <;> rfl
  | gt | ge | lt | le => exact Parameter.isScalar_toValue h
  | like | notLike =>
    obtain ⟨s, rfl⟩ := h
    rfl
  | oneOf | noneOf => cases h

end Operator

/-- A member of a set is one that a document can say. -/
theorem Element.expressible_of_ofValue {op : Operator} {item : Value} {element : Element}
    (h : ofValue op item = .ok element) : element.Expressible := by
  rcases ofValue_eq_ok.1 h with
    ⟨p, hscalar, hp, rfl⟩ | ⟨inner, operand, p, rfl, hinner, hp, rfl⟩
  · rintro rfl
    cases item with
    | null => cases hscalar
    | _ => cases hp
  · exact ⟨hinner, Operator.suits_of_parameter hinner hp⟩

/-- A comparison that is read is one that a document can say. -/
theorem Comparison.expressible_of_ofValue {op : Operator} {key : Key} {v : Value}
    {c : Comparison} (hkey : key.Expressible) (h : ofValue op key v = .ok c) : c.Expressible := by
  obtain ⟨operand, hoperand, rfl⟩ := ofValue_eq_ok.1 h
  rcases Operand.ofValue_eq_ok.1 hoperand with
    ⟨items, elements, hop, rfl, hitems, helements, rfl⟩ | ⟨p, hop, hp, rfl⟩
  · refine ⟨hkey, hop, ?_, fun element hmem => ?_⟩
    · rintro rfl
      cases helements
      exact hitems rfl
    · obtain ⟨item, -, hitem⟩ := exists_of_mapM_eq_ok (mapM_eq_ok.2 helements) hmem
      exact Element.expressible_of_ofValue hitem
  · exact ⟨hkey, hop, Operator.suits_of_parameter hop hp⟩

namespace Selection

/-- Selections that a document can say, joined as the entries of an object are: what selects
every row is dropped, and a group is made only of what is left. -/
theorem expressible_conjunction {parts : List Selection}
    (h : ∀ part ∈ parts, part.Expressible) : (conjunction parts).Expressible := by
  unfold conjunction
  split
  · trivial
  · next hsome =>
    refine .and (by simpa using hsome) fun node hnode => ?_
    obtain ⟨part, hpart, hnode⟩ := List.mem_filterMap.1 hnode
    cases part with
    | everything => cases hnode
    | matching inner =>
      cases hnode
      exact h _ hpart

theorem expressible_disjunction {parts : List Selection} (hne : parts ≠ [])
    (h : ∀ part ∈ parts, part.Expressible) : (disjunction parts).Expressible := by
  unfold disjunction
  split
  · trivial
  · next hall =>
    refine .or ?_ fun node hnode => ?_
    · obtain ⟨part, rest, rfl⟩ := List.exists_cons_of_ne_nil hne
      cases part with
      | everything => simp [isEverything] at hall
      | matching node => simp [node?]
    · obtain ⟨part, hpart, hnode⟩ := List.mem_filterMap.1 hnode
      cases part with
      | everything => cases hnode
      | matching inner =>
        cases hnode
        exact h _ hpart

/-- The joined entries of a document are a selection that it can say. -/
theorem expressible_joined {parts : List Selection} (h : ∀ part ∈ parts, part.Expressible) :
    (joined parts).Expressible := by
  rcases parts with _ | ⟨only, _ | ⟨second, rest⟩⟩
  · exact expressible_conjunction h
  · exact h only (by simp)
  · exact expressible_conjunction h

/-- Under a field that a document can name, a document is read as an expressible selection. -/
theorem expressible_of_ofSelector {field : Option Key} {v : Value} {sel : Selection}
    (hfield : ∀ key ∈ field, key.Expressible) (h : ofSelector field v = .ok sel) :
    sel.Expressible := by
  -- The field around a selector names the column of its comparisons, so it goes through.
  refine ofSelector_induction
    (P := fun field _ sel => (∀ key ∈ field, key.Expressible) → sel.Expressible)
    (E := fun field _ sel => (∀ key ∈ field, key.Expressible) → sel.Expressible)
    ⟨?null, ?array, ?scalar, ?object, ?operator, ?connective, ?narrowed, ?equal⟩
    field v sel h hfield
  case null => exact fun field _ => trivial
  case array =>
    intro field items c hc _
    have hkey : Key.id.Expressible := trivial
    exact .comparison (Comparison.expressible_of_ofValue hkey hc)
  case scalar =>
    intro field v c _ hc _
    have hkey : Key.id.Expressible := trivial
    exact .comparison (Comparison.expressible_of_ofValue hkey hc)
  case object =>
    intro field entries parts hparts hfield
    refine expressible_joined fun part hpart => ?_
    obtain ⟨entry, -, hentry⟩ := exists_of_forall₂ hparts hpart
    exact hentry hfield
  case operator =>
    intro key op v c hc hfield
    exact .comparison (Comparison.expressible_of_ofValue (hfield key rfl) hc)
  case connective =>
    intro field c items parts hitems hparts hfield
    have heach : ∀ part ∈ parts, part.Expressible := by
      intro part hpart
      obtain ⟨item, -, hitem⟩ := exists_of_forall₂ hparts hpart
      exact hitem hfield
    cases c with
    | and => exact expressible_conjunction heach
    | or =>
      refine expressible_disjunction ?_ heach
      rintro rfl
      cases hparts
      exact hitems rfl
  case narrowed =>
    intro field name entries sel hname hsel _
    refine hsel fun key hkey => ?_
    cases hkey
    exact Key.expressible_ofName hname
  case equal =>
    intro field name v c hname _ hc _
    exact .comparison (Comparison.expressible_of_ofValue (Key.expressible_ofName hname) hc)

end Selection

/-! ## Expressible trees are read back -/

/-- A key that a document can say is named there by a field. -/
theorem Key.isFieldName_documentName {key : Key} (h : key.Expressible) :
    isFieldName key.documentName = true := by
  cases key with
  | id => decide
  | column name =>
    have hname : isReserved name = false := h
    simp [documentName, isFieldName, hname]

theorem Key.ofName_documentName {key : Key} (h : key.Expressible) :
    ofName key.documentName = key := by
  cases key with
  | id => rfl
  | column name =>
    have hne : name ≠ idName := by
      rintro rfl
      cases h
    simp [documentName, ofName, hne]

theorem Element.ofValue_toValue (op : Operator) {element : Element} (h : element.Expressible) :
    ofValue op element.toValue = .ok element := by
  refine ofValue_eq_ok.2 ?_
  cases element with
  | literal p =>
    exact .inl ⟨p, Parameter.isScalar_toValue h, p.parameter?_toValue, rfl⟩
  | predicate inner p =>
    exact .inr ⟨inner, p.toValue, p, rfl, h.1, Operator.parameter_of_suits h.2, rfl⟩

/-- A comparison is read back from the document of its operand. -/
theorem Comparison.ofValue_toValue {c : Comparison} (h : c.Expressible) :
    ofValue c.op c.key c.operand.toValue = .ok c := by
  obtain ⟨op, key, operand⟩ := c
  obtain ⟨-, hoperand⟩ := h
  refine ofValue_eq_ok.2 ⟨operand, Operand.ofValue_eq_ok.2 ?_, rfl⟩
  cases operand with
  | value p =>
    exact .inr ⟨p, hoperand.1, Operator.parameter_of_suits hoperand.2, rfl⟩
  | values elements =>
    obtain ⟨hop, hne, helements⟩ := hoperand
    refine .inl ⟨_, elements, hop, rfl, by simpa using hne, ?_, rfl⟩
    rw [List.forall₂_map_left_iff, List.forall₂_same]
    exact fun element hmem => Element.ofValue_toValue op (helements element hmem)

namespace Selection

/-- A group is read from the selectors of its parts. -/
theorem ofSelector_connective (field : Option Key) (c : Connective) {items : List Value}
    {parts : List Selection} (hne : items ≠ [])
    (h : List.Forall₂ (fun item part => ofSelector field item = .ok part) items parts) :
    ofSelector field (.object [(c.name, .array items)]) = .ok (c.join parts) := by
  rw [ofSelector_single, ofEntry_connective field c hne]
  exact map_eq_ok.2 ⟨parts, mapM_eq_ok.2 h, rfl⟩

/-- Selections with trees are joined with all of their trees, in order. -/
theorem filterMap_node?_matching (nodes : List Node) :
    (nodes.map matching).filterMap node? = nodes := by
  rw [List.filterMap_map]
  exact List.filterMap_some

/-- Trees are joined to one group, with nothing dropped. -/
theorem conjunction_matching {nodes : List Node} (h : nodes ≠ []) :
    conjunction (nodes.map matching) = .matching (.and nodes) := by
  rw [conjunction, filterMap_node?_matching]
  split
  · contradiction
  · rfl

theorem disjunction_matching (nodes : List Node) :
    disjunction (nodes.map matching) = .matching (.or nodes) := by
  have hnone : (nodes.map matching).any isEverything = false := by
    simp [isEverything]
  rw [disjunction, hnone, filterMap_node?_matching]
  rfl

/-- Under any field, the document of an expressible tree is read as that tree. -/
theorem ofSelector_toValue {node : Node} (h : node.Expressible) (field : Option Key) :
    ofSelector field node.toValue = .ok (.matching node) := by
  induction h generalizing field with
  | @comparison c hc =>
    rw [Node.toValue, Comparison.toValue,
      ofSelector_compared field (Key.isFieldName_documentName hc.1),
      Key.ofName_documentName hc.1]
    exact map_eq_ok.2 ⟨c, Comparison.ofValue_toValue hc, rfl⟩
  | @and children hne _ ih =>
    have hchildren : List.Forall₂ (fun item part => ofSelector field item = .ok part)
        (children.map Node.toValue) (children.map matching) := by
      rw [List.forall₂_map_left_iff, List.forall₂_map_right_iff, List.forall₂_same]
      exact fun child hmem => ih child hmem field
    rw [Node.toValue, Node.toValues_eq_map,
      ofSelector_connective field .and (by simpa using hne) hchildren]
    exact congrArg Except.ok (conjunction_matching hne)
  | @or children hne _ ih =>
    have hchildren : List.Forall₂ (fun item part => ofSelector field item = .ok part)
        (children.map Node.toValue) (children.map matching) := by
      rw [List.forall₂_map_left_iff, List.forall₂_map_right_iff, List.forall₂_same]
      exact fun child hmem => ih child hmem field
    rw [Node.toValue, Node.toValues_eq_map,
      ofSelector_connective field .or (by simpa using hne) hchildren]
    exact congrArg Except.ok (disjunction_matching children)

/-- A document is only ever read as an expressible tree, and every expressible tree is read from
the document that writes it: the trees of documents are the expressible ones. -/
theorem expressible_and_reread :
    (∀ (v : Value) (node : Node), ofValue v = .ok (.matching node) → node.Expressible) ∧
      ∀ node : Node, node.Expressible → ofValue node.toValue = .ok (.matching node) := by
  constructor
  · intro v node h
    have hnode : (matching node).Expressible := expressible_of_ofSelector (by simp) h
    exact hnode
  · intro node h
    exact ofSelector_toValue h none

/-- A group of one in a choice, and a set whose comparison stands in front of its literal. -/
def grouped : Node :=
  .or
    [.and [.comparison ⟨.noneOf, .id, .values [.predicate .like (.text "a%"), .literal (.int 1)]⟩],
      .comparison ⟨.eq, .column "", .value .null⟩]

/-- The tree is read back, with its conjunction of one member and its field without a name. -/
theorem grouped_reread :
    grouped.Expressible ∧ ofValue grouped.toValue = .ok (.matching grouped) := by
  obtain ⟨hread, hwritten⟩ := expressible_and_reread
  have hdocument : ofValue (.object [("$or", .array
      [.object [("$and", .array [.object [("$id", .object [("$nin", .array
        [.object [("$like", .text "a%")], .int 1])])]])], .object [("", .null)]])])
      = .ok (.matching grouped) := rfl
  have hgrouped := hread _ _ hdocument
  exact ⟨hgrouped, hwritten _ hgrouped⟩

end Selection

end DocumentQuery
