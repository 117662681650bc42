import DocumentQuery.Proofs.Connective
import DocumentQuery.Proofs.Selection.Induction

/-!
# Documents of the same shape

Two documents of the same shape differ in nothing but their scalars, and these pairwise are of the
same kind. Read as selections, both have the same fault, or both give trees that differ only in
their parameters: no step of reading looks further into a scalar than its kind.
-/

namespace DocumentQuery
set_option autoImplicit false

/-! ## Kinds of parameters -/

namespace Parameter

/-- The kind of the value that a parameter was made of. -/
def kind : Parameter → Kind
  | .null => .null
  | .bool _ => .boolean
  | .int _ => .number
  | .float _ => .number
  | .text _ => .string
  | .timestamp _ => .date
  | .blob _ => .buffer

/-- A reading of "of the same kind". The coarsest is to have the kind that messages name, where
integers and floats are one; it may be finer than that. -/
structure SameKind (same : Parameter → Parameter → Prop) : Prop where
  refl : ∀ p, same p p
  kind_eq : ∀ p q, same p q → p.kind = q.kind

/-- To have the same kind is the coarsest relation that keeps kinds. -/
theorem sameKind_kind : SameKind fun p q => p.kind = q.kind := ⟨fun _ => rfl, fun _ _ h => h⟩

/-- Null is the only parameter of its kind. -/
theorem eq_null_iff_kind {p : Parameter} : p = .null ↔ p.kind = .null := by
  cases p <;> simp [kind]

end Parameter

variable {same : Parameter → Parameter → Prop}

/-! ## Shapes -/

/-- Documents of the same shape: both null, scalars of the same kind, arrays of equal length with
items of the same shape, or objects with the same keys in order and values of the same shape. -/
inductive Value.SameShape (same : Parameter → Parameter → Prop) : Value → Value → Prop where
  | null : SameShape same .null .null
  | scalar {v w : Value} {p q : Parameter} (hv : v.isScalar = true) (hw : w.isScalar = true)
      (hp : v.parameter? = some p) (hq : w.parameter? = some q) (h : same p q) :
      SameShape same v w
  | array {items others : List Value} (h : List.Forall₂ (SameShape same) items others) :
      SameShape same (.array items) (.array others)
  | object {entries others : List (String × Value)}
      (keys : entries.map (·.1) = others.map (·.1))
      (values : List.Forall₂ (SameShape same) (entries.map (·.2)) (others.map (·.2))) :
      SameShape same (.object entries) (.object others)

/-- Entries of the same key and shape. -/
def SameEntry (same : Parameter → Parameter → Prop) (entry other : String × Value) : Prop :=
  entry.1 = other.1 ∧ entry.2.SameShape same other.2

/-- Objects of the same shape agree entry by entry. -/
theorem sameEntry_of_object {entries others : List (String × Value)}
    (keys : entries.map (·.1) = others.map (·.1))
    (values : List.Forall₂ (Value.SameShape same) (entries.map (·.2)) (others.map (·.2))) :
    List.Forall₂ (SameEntry same) entries others := by
  rw [← List.forall₂_eq_eq_eq] at keys
  exact forall₂_of_maps keys values

namespace Value

theorem isNull_congr {v w : Value} (h : v.kind = w.kind) : v.isNull = w.isNull := by
  cases v <;> cases w <;> first | rfl | cases h

theorem isScalar_congr {v w : Value} (h : v.kind = w.kind) : v.isScalar = w.isScalar := by
  cases v <;> cases w <;> first | rfl | cases h

/-- A scalar has the kind of its parameter. -/
theorem kind_of_parameter? {v : Value} {p : Parameter} (h : v.parameter? = some p) :
    v.kind = p.kind := by
  cases v <;> cases h <;> rfl

namespace SameShape

variable (hsame : Parameter.SameKind same) {v w : Value}
include hsame

/-- Values of the same shape are of the same kind. -/
theorem kind_eq (h : v.SameShape same w) : v.kind = w.kind := by
  cases h with
  | null => rfl
  | array h => rfl
  | object keys values => rfl
  | scalar hv hw hp hq h =>
    rw [kind_of_parameter? hp, kind_of_parameter? hq]
    exact hsame.kind_eq _ _ h

/-- Values of the same shape give parameters of the same kind, or none. -/
theorem parameter? (h : v.SameShape same w) : Option.Rel same v.parameter? w.parameter? := by
  cases h with
  | null => exact .some (hsame.refl .null)
  | array h => exact .none
  | object keys values => exact .none
  | scalar hv hw hp hq h =>
    rw [hp, hq]
    exact .some h

end SameShape

end Value

/-! ## Trees that differ in their parameters -/

/-- The same member of a set, but for its parameter. -/
inductive Element.Alike (same : Parameter → Parameter → Prop) : Element → Element → Prop where
  | literal {p q : Parameter} (h : same p q) : Alike same (.literal p) (.literal q)
  | predicate {op : Operator} {p q : Parameter} (h : same p q) :
      Alike same (.predicate op p) (.predicate op q)

inductive Operand.Alike (same : Parameter → Parameter → Prop) : Operand → Operand → Prop where
  | value {p q : Parameter} (h : same p q) : Alike same (.value p) (.value q)
  | values {elements others : List Element}
      (h : List.Forall₂ (Element.Alike same) elements others) :
      Alike same (.values elements) (.values others)

/-- Comparisons by the same operator, of keys that `keyed` relates. -/
structure Comparison.Rel (keyed : Key → Key → Prop) (same : Parameter → Parameter → Prop)
    (c c' : Comparison) : Prop where
  op : c.op = c'.op
  key : keyed c.key c'.key
  operand : c.operand.Alike same c'.operand

/-- Comparisons of the same key by the same operator. -/
abbrev Comparison.Alike (same : Parameter → Parameter → Prop) : Comparison → Comparison → Prop :=
  Comparison.Rel Eq same

/-- Trees of the same form, with related comparisons in the same places. -/
inductive Node.Rel (r : Comparison → Comparison → Prop) : Node → Node → Prop where
  | comparison {c c' : Comparison} (h : r c c') : Rel r (.comparison c) (.comparison c')
  | and {nodes others : List Node} (h : List.Forall₂ (Rel r) nodes others) :
      Rel r (.and nodes) (.and others)
  | or {nodes others : List Node} (h : List.Forall₂ (Rel r) nodes others) :
      Rel r (.or nodes) (.or others)

/-- What a group is related to is a group of the same connective, part by part. -/
theorem Node.rel_node {r : Comparison → Comparison → Prop} {k : Connective} {nodes : List Node}
    {other : Node} :
    Node.Rel r (k.node nodes) other ↔
      ∃ others, other = k.node others ∧ List.Forall₂ (Node.Rel r) nodes others := by
  cases k with
  | and =>
    constructor
    · intro h
      cases h with
      | and hparts => exact ⟨_, rfl, hparts⟩
    · rintro ⟨others, rfl, hparts⟩
      exact .and hparts
  | or =>
    constructor
    · intro h
      cases h with
      | or hparts => exact ⟨_, rfl, hparts⟩
    · rintro ⟨others, rfl, hparts⟩
      exact .or hparts

inductive Selection.Rel (r : Comparison → Comparison → Prop) : Selection → Selection → Prop where
  | everything : Rel r .everything .everything
  | matching {node other : Node} (h : node.Rel r other) : Rel r (.matching node) (.matching other)

/-- Trees of the same form with the same keys and operators. -/
abbrev Node.Alike (same : Parameter → Parameter → Prop) : Node → Node → Prop :=
  Node.Rel (Comparison.Alike same)

abbrev Selection.Alike (same : Parameter → Parameter → Prop) : Selection → Selection → Prop :=
  Selection.Rel (Comparison.Alike same)

namespace Selection

variable {r : Comparison → Comparison → Prop} {parts others : List Selection}

/-- Related selections restrict by related trees, or both by none. -/
theorem rel_node? {sel other : Selection} (h : sel.Rel r other) :
    Option.Rel (Node.Rel r) sel.node? other.node? := by
  cases h with
  | everything => exact .none
  | matching h => exact .some h

/-- The conjunctions of related parts are related: they drop the same parts. -/
theorem rel_conjunction (h : List.Forall₂ (Rel r) parts others) :
    (conjunction parts).Rel r (conjunction others) := by
  have hnodes : List.Forall₂ (Node.Rel r) (parts.filterMap node?) (others.filterMap node?) :=
    List.rel_filterMap (fun _ _ hrel => rel_node? hrel) h
  unfold conjunction
  generalize parts.filterMap node? = nodes, others.filterMap node? = nodes' at hnodes ⊢
  cases hnodes with
  | nil => exact .everything
  | cons hfirst hrest => exact .matching (.and (.cons hfirst hrest))

/-- The disjunctions of related parts are related: the same part makes them ask nothing. -/
theorem rel_disjunction (h : List.Forall₂ (Rel r) parts others) :
    (disjunction parts).Rel r (disjunction others) := by
  have hnodes : List.Forall₂ (Node.Rel r) (parts.filterMap node?) (others.filterMap node?) :=
    List.rel_filterMap (fun _ _ hrel => rel_node? hrel) h
  have hany : parts.any isEverything = others.any isEverything := by
    clear hnodes
    induction h with
    | nil => rfl
    | cons hfirst _ ih =>
      rw [List.any_cons, List.any_cons, ih]
      cases hfirst <;> rfl
  unfold disjunction
  rw [hany]
  split
  · exact .everything
  · exact .matching (.or hnodes)

theorem rel_join (c : Connective) (h : List.Forall₂ (Rel r) parts others) :
    (c.join parts).Rel r (c.join others) := by
  cases c with
  | and => exact rel_conjunction h
  | or => exact rel_disjunction h

theorem rel_joined (h : List.Forall₂ (Rel r) parts others) :
    (joined parts).Rel r (joined others) := by
  cases h with
  | nil => exact .everything
  | cons hfirst hrest =>
    cases hrest with
    | nil => exact hfirst
    | cons hsecond hmore => exact rel_conjunction (.cons hfirst (.cons hsecond hmore))

end Selection

/-! ## Reading documents of the same shape -/

theorem Value.kind_of_isScalar {v : Value} (h : v.isScalar = true) :
    v.kind ≠ .array ∧ v.kind ≠ .object := by
  cases v with
  | null | array items | object entries => cases h
  | _ => exact ⟨by simp [kind], by simp [kind]⟩

/-- Which values an operator takes depends on their kinds only. -/
theorem Operator.takes_congr (op : Operator) {v w : Value} (h : v.kind = w.kind) :
    op.takes v = op.takes w := by
  unfold takes
  rw [Value.isNull_congr h, Value.isScalar_congr h, h]

/-- A membership operator takes nothing but an array. -/
theorem Operand.ofValue_misplaced {op : Operator} (hop : op.isMembership = true) {v : Value}
    (h : v.kind ≠ .array) :
    ofValue op v = .error (.operand op.name "non-empty array" v.kind) := by
  cases v with
  | array items => exact absurd rfl h
  | _ => simp [ofValue, hop]

/-- A connective takes nothing but an array. -/
theorem Selection.ofEntry_misplaced (field : Option Key) (c : Connective) {v : Value}
    (h : v.kind ≠ .array) :
    ofEntry field (c.name, v) = .error (.operand c.name "non-empty array" v.kind) := by
  rw [ofEntry_pair, EntryName.ofName_connective]
  cases v with
  | array items => exact absurd rfl h
  | _ => rfl

section Reading

variable (hsame : Parameter.SameKind same)
include hsame

/-- An operator asks of its value nothing but the kind. -/
theorem Operator.agree_parameter (op : Operator) {v w : Value} (h : v.SameShape same w) :
    Agree same (op.parameter v) (op.parameter w) := by
  have hkind := h.kind_eq hsame
  unfold parameter
  rw [op.takes_congr hkind, hkind]
  cases op.takes w with
  | false => exact .error _
  | true =>
    have hparameter := h.parameter? hsame
    simp only [if_true]
    generalize v.parameter? = p, w.parameter? = q at hparameter ⊢
    cases hparameter with
    | none => exact .error _
    | some h => exact .ok h

/-- Members of the same shape are refused alike or give members alike. -/
theorem Element.agree_ofValue (op : Operator) {v w : Value} (h : v.SameShape same w) :
    Agree (Element.Alike same) (ofValue op v) (ofValue op w) := by
  cases h with
  | null => exact .error _
  | array h => exact .error _
  | scalar hv hw hp hq h =>
    rw [ofValue_eq_ok.2 (.inl ⟨_, hv, hp, rfl⟩), ofValue_eq_ok.2 (.inl ⟨_, hw, hq, rfl⟩)]
    exact .ok (.literal h)
  | object keys values =>
    have hentries := sameEntry_of_object keys values
    cases hentries with
    | nil => exact .error _
    | @cons entry other _ _ hentry hrest =>
    obtain ⟨name, operand⟩ := entry
    obtain ⟨rfl, hoperand⟩ := hentry
    cases hrest with
    | cons hsecond hmore => exact .error _
    | nil =>
      simp only [ofValue]
      split
      · next inner _ =>
        split
        · exact .error _
        · exact (inner.agree_parameter hsame hoperand).map fun _ _ h => .predicate h
      · exact .error _

/-- Operands of the same shape are refused alike or give operands alike. -/
theorem Operand.agree_ofValue (op : Operator) {v w : Value} (h : v.SameShape same w) :
    Agree (Operand.Alike same) (ofValue op v) (ofValue op w) := by
  have hkind := h.kind_eq hsame
  cases hop : op.isMembership with
  | false =>
    simp only [ofValue, hop]
    exact (op.agree_parameter hsame h).map fun _ _ h => .value h
  | true =>
    by_cases harray : v.kind = .array
    · cases h with
      | null => cases harray
      | scalar hv hw hp hq h => exact absurd harray (Value.kind_of_isScalar hv).1
      | object keys values => cases harray
      | array h =>
        simp only [ofValue, hop, if_true]
        cases h with
        | nil => exact .error _
        | cons hfirst hrest =>
          exact (Agree.mapM (.cons hfirst hrest) fun _ _ => Element.agree_ofValue hsame op).map
            fun _ _ h => .values h
    · rw [ofValue_misplaced hop harray, ofValue_misplaced hop (hkind ▸ harray), hkind]
      exact .error _

/-- Behind one operator and key, documents of the same shape give comparisons alike. -/
theorem Comparison.agree_ofValue (op : Operator) (key : Key) {v w : Value}
    (h : v.SameShape same w) :
    Agree (Comparison.Alike same) (ofValue op key v) (ofValue op key w) :=
  (Operand.agree_ofValue hsame op h).map fun _ _ halike => ⟨rfl, rfl, halike⟩

namespace Selection

theorem agree_comparing (op : Operator) (key : Key) {v w : Value} (h : v.SameShape same w) :
    Agree (Alike same) ((Comparison.ofValue op key v).map comparing)
      ((Comparison.ofValue op key w).map comparing) :=
  (Comparison.agree_ofValue hsame op key h).map fun _ _ h => .matching (.comparison h)

/-- A field whose value is not an object, or an operator, compares with its value. -/
theorem agree_ofEntry_leaf (field : Option Key) (name : String) {v w : Value}
    (h : v.SameShape same w) (hobject : v.kind ≠ .object)
    (hjoined : ∀ c : Connective, name = c.name → v.kind ≠ .array) :
    Agree (Alike same) (ofEntry field (name, v)) (ofEntry field (name, w)) := by
  have hkind := h.kind_eq hsame
  rcases EntryName.name_cases name with ⟨op, rfl⟩ | ⟨c, rfl⟩ | hfield | hunknown
  · rw [ofEntry_pair, ofEntry_pair, EntryName.ofName_operator]
    cases field with
    | none => exact .error _
    | some key => exact agree_comparing hsame op key h
  · have harray := hjoined c rfl
    rw [ofEntry_misplaced field c harray, ofEntry_misplaced field c (hkind ▸ harray), hkind]
    exact .error _
  · rw [ofEntry_equal field hfield hobject, ofEntry_equal field hfield (hkind ▸ hobject)]
    exact agree_comparing hsame .eq _ h
  · rw [ofEntry_pair, ofEntry_pair, hunknown]
    exact .error _

end Selection

end Reading

namespace Selection

mutual

/-- Selectors of the same shape have the same fault or give trees that differ only in their
parameters. The recursion is that of the reader, on both documents at once. -/
theorem agree_ofSelector (hsame : Parameter.SameKind same) (field : Option Key) (v w : Value)
    (h : v.SameShape same w) :
    Agree (Alike same) (ofSelector field v) (ofSelector field w) := by
  match v, w, h with
  | _, _, .null => exact .ok .everything
  | _, _, .scalar hv hw hp hq hpq =>
    rw [ofSelector_scalar field hv, ofSelector_scalar field hw]
    exact agree_comparing hsame .eq .id (.scalar hv hw hp hq hpq)
  | .array items, .array others, .array hitems =>
    exact agree_comparing hsame .oneOf .id (.array hitems)
  | .object entries, .object others, .object keys values =>
    rw [ofSelector_object, ofSelector_object]
    exact (agree_ofEntries hsame field entries others (sameEntry_of_object keys values)).map
      fun _ _ => rel_joined

/-- Entries of the same shape agree one by one. -/
theorem agree_ofEntries (hsame : Parameter.SameKind same) (field : Option Key)
    (entries others : List (String × Value)) (h : List.Forall₂ (SameEntry same) entries others) :
    Agree (List.Forall₂ (Alike same)) (ofEntries field entries) (ofEntries field others) := by
  match entries, others, h with
  | [], [], .nil => exact .ok .nil
  | entry :: rest, other :: rest', .cons hentry hrest =>
    rw [ofEntries, ofEntries]
    exact (agree_ofEntry hsame field entry other hentry).bind fun _ _ hpart =>
      (agree_ofEntries hsame field rest rest' hrest).bind fun _ _ hparts => .ok (.cons hpart hparts)

theorem agree_ofEntry (hsame : Parameter.SameKind same) (field : Option Key)
    (entry other : String × Value) (h : SameEntry same entry other) :
    Agree (Alike same) (ofEntry field entry) (ofEntry field other) := by
  match entry, other, h with
  | (name, _), (_, _), ⟨hname, .null⟩ =>
    obtain rfl := hname
    exact agree_ofEntry_leaf hsame field name .null (by simp [Value.kind])
      fun _ _ => by simp [Value.kind]
  | (name, _), (_, _), ⟨hname, .scalar hv hw hp hq hpq⟩ =>
    obtain rfl := hname
    have hkind := Value.kind_of_isScalar hv
    exact agree_ofEntry_leaf hsame field name (.scalar hv hw hp hq hpq) hkind.2 fun _ _ => hkind.1
  | (name, .array items), (_, .array others), ⟨hname, .array hitems⟩ =>
    obtain rfl := hname
    by_cases hname : ∃ c : Connective, name = c.name
    · obtain ⟨c, rfl⟩ := hname
      rw [ofEntry_pair, ofEntry_pair, EntryName.ofName_connective]
      have hread := agree_ofItems hsame field items others hitems
      cases hitems with
      | nil => exact .error _
      | cons hfirst hrest => exact hread.map fun _ _ => rel_join c
    · exact agree_ofEntry_leaf hsame field name (.array hitems) (by simp [Value.kind])
        fun c hc => absurd ⟨c, hc⟩ hname
  | (name, .object entries), (_, .object others), ⟨hname, .object keys values⟩ =>
    obtain rfl := hname
    rcases EntryName.name_cases name with ⟨op, rfl⟩ | ⟨c, rfl⟩ | hfield | hunknown
    · rw [ofEntry_pair, ofEntry_pair, EntryName.ofName_operator]
      cases field with
      | none => exact .error _
      | some key => exact agree_comparing hsame op key (.object keys values)
    · rw [ofEntry_pair, ofEntry_pair, EntryName.ofName_connective]
      exact .error _
    · rw [ofEntry_pair, ofEntry_pair, EntryName.ofName_field hfield]
      exact agree_ofSelector hsame (some (Key.ofName name)) (.object entries) (.object others)
        (.object keys values)
    · rw [ofEntry_pair, ofEntry_pair, hunknown]
      exact .error _

theorem agree_ofItems (hsame : Parameter.SameKind same) (field : Option Key)
    (items others : List Value) (h : List.Forall₂ (Value.SameShape same) items others) :
    Agree (List.Forall₂ (Alike same)) (ofItems field items) (ofItems field others) := by
  match items, others, h with
  | [], [], .nil => exact .ok .nil
  | item :: rest, other :: rest', .cons hitem hrest =>
    rw [ofItems, ofItems]
    exact (agree_ofSelector hsame field item other hitem).bind fun _ _ hpart =>
      (agree_ofItems hsame field rest rest' hrest).bind fun _ _ hparts => .ok (.cons hpart hparts)

end

end Selection

end DocumentQuery
