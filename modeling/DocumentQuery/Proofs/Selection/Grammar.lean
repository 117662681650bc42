import DocumentQuery.Proofs.Selection.Induction

/-!
# The grammar of selectors

Which documents are selectors, told by their form alone. What an entry may be depends on the field
around it, which a field's name sets and everything else passes on. A document is accepted exactly
when it derives from this grammar.
-/

namespace DocumentQuery
set_option autoImplicit false

/-! ## Operands -/

/-- What may stand behind an operator that takes a single value. -/
def Operator.Fits (op : Operator) (v : Value) : Prop :=
  match op with
  | .eq | .ne => v = .null ∨ v.isScalar = true
  | .gt | .ge | .lt | .le => v.isScalar = true
  | .like | .notLike => ∃ s, v = .text s
  | .oneOf | .noneOf => False

/-- What may stand in a set: a scalar, or one comparison that is not about a set itself. -/
inductive Value.Member : Value → Prop where
  | scalar {v : Value} (h : v.isScalar = true) : Member v
  | comparison {op : Operator} {v : Value} (h : op.Fits v) : Member (.object [(op.name, v)])

/-- What may stand behind an operator. -/
inductive Operator.Accepts : Operator → Value → Prop where
  | single {op : Operator} {v : Value} (h : op.Fits v) : Accepts op v
  | set {op : Operator} {items : List Value} (hop : op.isMembership = true)
      (nonempty : items ≠ []) (each : ∀ item ∈ items, item.Member) : Accepts op (.array items)

/-! ## Selectors -/

namespace Value

mutual

/-- A selector under `field`, if it stands under one. -/
inductive Selector : Option Key → Value → Prop where
  | null {field : Option Key} : Selector field .null
  | scalar {field : Option Key} {v : Value} (h : v.isScalar = true) : Selector field v
  | set {field : Option Key} {items : List Value} (nonempty : items ≠ [])
      (each : ∀ item ∈ items, item.Member) : Selector field (.array items)
  | object {field : Option Key} {entries : List (String × Value)}
      (each : ∀ entry ∈ entries, SelectorEntry field entry.1 entry.2) :
      Selector field (.object entries)

/-- An entry of a selector under `field`. -/
inductive SelectorEntry : Option Key → String → Value → Prop where
  | operator {key : Key} {op : Operator} {v : Value} (operand : op.Accepts v) :
      SelectorEntry (some key) op.name v
  | connective {field : Option Key} (c : Connective) {items : List Value} (nonempty : items ≠ [])
      (each : ∀ item ∈ items, Selector field item) : SelectorEntry field c.name (.array items)
  | narrowed {field : Option Key} {name : String} {entries : List (String × Value)}
      (named : Key.isFieldName name = true)
      (object : Selector (some (Key.ofName name)) (.object entries)) :
      SelectorEntry field name (.object entries)
  | equal {field : Option Key} {name : String} {v : Value}
      (named : Key.isFieldName name = true) (plain : v = .null ∨ v.isScalar = true) :
      SelectorEntry field name v

end

end Value

/-! ## Operands are accepted as the grammar says -/

namespace Operator

/-- An operator's value fits it exactly when it is taken. -/
theorem fits_iff_takes {op : Operator} (h : op.isMembership = false) {v : Value} :
    op.Fits v ↔ op.takes v = true := by
  cases op with
  | oneOf | noneOf => cases h
  | gt | ge | lt | le => exact Iff.rfl
  | eq | ne => cases v <;> simp [Fits, takes, Value.isNull, Value.isScalar]
  | like | notLike => cases v <;> simp [Fits, takes, Value.kind]

/-- What an operator takes can be bound. -/
theorem parameter?_of_takes {op : Operator} {v : Value} (h : op.takes v = true) :
    ∃ p, v.parameter? = some p := by
  cases v with
  | array items => cases op <;> cases h
  | object entries => cases op <;> cases h
  | _ => exact ⟨_, rfl⟩

/-- A value that fits an operator is accepted behind it. -/
theorem parameter_of_fits {op : Operator} {v : Value} (h : op.Fits v) :
    op.isMembership = false ∧ ∃ p, op.parameter v = .ok p := by
  have hop : op.isMembership = false := by
    cases op with
    | oneOf | noneOf => cases h
    | _ => rfl
  have htakes := (fits_iff_takes hop).1 h
  obtain ⟨p, hp⟩ := parameter?_of_takes htakes
  exact ⟨hop, p, parameter_eq_ok.2 ⟨htakes, hp⟩⟩

/-- A value that does not fit is refused, with what the operator expects and the kind found. -/
theorem parameter_of_not_fits {op : Operator} (hop : op.isMembership = false) {v : Value}
    (h : ¬ op.Fits v) : op.parameter v = .error (.operand op.name op.expects v.kind) := by
  rw [fits_iff_takes hop] at h
  simp [parameter, h]

end Operator

theorem Element.exists_ofValue_iff {op : Operator} {item : Value} :
    (∃ element, ofValue op item = .ok element) ↔ item.Member := by
  constructor
  · rintro ⟨element, h⟩
    rcases ofValue_eq_ok.1 h with
      ⟨p, hscalar, -, -⟩ | ⟨inner, operand, p, rfl, hinner, hp, -⟩
    · exact .scalar hscalar
    · exact .comparison ((Operator.fits_iff_takes hinner).2 (Operator.parameter_eq_ok.1 hp).1)
  · rintro (hscalar | @⟨inner, v, hfits⟩)
    · have htakes : Operator.gt.takes item = true := hscalar
      obtain ⟨p, hp⟩ := Operator.parameter?_of_takes htakes
      exact ⟨.literal p, ofValue_eq_ok.2 (.inl ⟨p, hscalar, hp, rfl⟩)⟩
    · obtain ⟨hinner, p, hp⟩ := Operator.parameter_of_fits hfits
      exact ⟨.predicate inner p, ofValue_eq_ok.2 (.inr ⟨inner, v, p, rfl, hinner, hp, rfl⟩)⟩

/-- An operand is accepted exactly where the grammar has it. -/
theorem Operand.exists_ofValue_iff {op : Operator} {v : Value} :
    (∃ operand, ofValue op v = .ok operand) ↔ op.Accepts v := by
  constructor
  · rintro ⟨operand, h⟩
    rcases ofValue_eq_ok.1 h with
      ⟨items, elements, hop, rfl, hitems, helements, -⟩ | ⟨p, hop, hp, -⟩
    · have hread := exists_mapM_eq_ok.1 ⟨elements, mapM_eq_ok.2 helements⟩
      exact .set hop hitems fun item hitem => Element.exists_ofValue_iff.1 (hread item hitem)
    · exact .single ((Operator.fits_iff_takes hop).2 (Operator.parameter_eq_ok.1 hp).1)
  · rintro (hfits | @⟨items, hop, hitems, hmembers⟩)
    · obtain ⟨hop, p, hp⟩ := Operator.parameter_of_fits hfits
      exact ⟨.value p, ofValue_eq_ok.2 (.inr ⟨p, hop, hp, rfl⟩)⟩
    · have hread : ∀ item ∈ items, ∃ element, Element.ofValue op item = .ok element :=
        fun item hitem => Element.exists_ofValue_iff.2 (hmembers item hitem)
      obtain ⟨elements, helements⟩ := exists_mapM_eq_ok.2 hread
      exact ⟨.values elements, ofValue_eq_ok.2
        (.inl ⟨_, elements, hop, rfl, hitems, mapM_eq_ok.1 helements, rfl⟩)⟩

theorem Comparison.exists_ofValue_iff {op : Operator} {key : Key} {v : Value} :
    (∃ c, ofValue op key v = .ok c) ↔ op.Accepts v :=
  exists_map_eq_ok.trans Operand.exists_ofValue_iff

/-- An array without members is no operand, and equality takes no array at all. -/
theorem Operator.accepts_oneOf_array {items : List Value} :
    Operator.oneOf.Accepts (.array items) ↔ items ≠ [] ∧ ∀ item ∈ items, item.Member := by
  constructor
  · intro h
    cases h with
    | single hfits => exact hfits.elim
    | set hop nonempty each => exact ⟨nonempty, each⟩
  · rintro ⟨nonempty, each⟩
    exact .set rfl nonempty each

/-- Equality takes null and every scalar. -/
theorem Operator.accepts_eq {v : Value} :
    Operator.eq.Accepts v ↔ v = .null ∨ v.isScalar = true := by
  constructor
  · intro h
    cases h with
    | single hfits => exact hfits
    | set hop nonempty each => cases hop
  · exact fun h => .single h

theorem Value.kind_ne_object {v : Value} (h : v = .null ∨ v.isScalar = true) :
    v.kind ≠ .object := by
  rcases h with rfl | h
  · decide
  · cases v with
    | object entries => cases h
    | _ => simp [kind]

/-! ## Selectors are accepted as the grammar says -/

namespace Selection

/-- What is accepted is in the grammar. -/
theorem selector_of_ofSelector {field : Option Key} {v : Value} {sel : Selection}
    (h : ofSelector field v = .ok sel) : v.Selector field := by
  refine ofSelector_induction (P := fun field v _ => v.Selector field)
    (E := fun field entry _ => Value.SelectorEntry field entry.1 entry.2)
    ⟨?null, ?array, ?scalar, ?object, ?operator, ?connective, ?narrowed, ?equal⟩ field v sel h
  case null => exact fun field => .null
  case array =>
    intro field items c hc
    obtain ⟨hitems, hmembers⟩ :=
      Operator.accepts_oneOf_array.1 (Comparison.exists_ofValue_iff.1 ⟨c, hc⟩)
    exact .set hitems hmembers
  case scalar => exact fun field v c hv _ => .scalar hv
  case object =>
    intro field entries parts hparts
    refine .object fun entry hentry => ?_
    obtain ⟨-, -, hentry⟩ := exists_of_forall₂ (List.Forall₂.flip hparts) hentry
    exact hentry
  case operator =>
    intro key op v c hc
    exact .operator (Comparison.exists_ofValue_iff.1 ⟨c, hc⟩)
  case connective =>
    intro field c items parts hitems hparts
    refine .connective c hitems fun item hitem => ?_
    obtain ⟨-, -, hitem⟩ := exists_of_forall₂ (List.Forall₂.flip hparts) hitem
    exact hitem
  case narrowed => exact fun field name entries sel hname hobject => .narrowed hname hobject
  case equal =>
    intro field name v c hname _ hc
    exact .equal hname (Operator.accepts_eq.1 (Comparison.exists_ofValue_iff.1 ⟨c, hc⟩))

mutual

/-- A derivation tells how to read the document: the recursion is that of the grammar. -/
theorem exists_ofSelector {field : Option Key} {v : Value} (h : v.Selector field) :
    ∃ sel, ofSelector field v = .ok sel := by
  match h with
  | .null => exact ⟨.everything, rfl⟩
  | .scalar hv =>
    rw [ofSelector_scalar field hv, exists_map_eq_ok, Comparison.exists_ofValue_iff]
    exact Operator.accepts_eq.2 (.inr hv)
  | .set nonempty each =>
    rw [ofSelector, exists_map_eq_ok, Comparison.exists_ofValue_iff]
    exact Operator.accepts_oneOf_array.2 ⟨nonempty, each⟩
  | .object each =>
    rw [ofSelector_object, exists_map_eq_ok, ofEntries_eq_mapM, exists_mapM_eq_ok]
    exact fun entry hentry => exists_ofEntry (each entry hentry)

/-- An entry of the grammar is accepted. -/
theorem exists_ofEntry {field : Option Key} {name : String} {v : Value}
    (h : Value.SelectorEntry field name v) : ∃ sel, ofEntry field (name, v) = .ok sel := by
  match h with
  | .operator operand =>
    rw [ofEntry_pair, EntryName.ofName_operator]
    exact exists_map_eq_ok.2 (Comparison.exists_ofValue_iff.2 operand)
  | .connective c nonempty each =>
    rw [ofEntry_connective field c nonempty, exists_map_eq_ok, exists_mapM_eq_ok]
    exact fun item hitem => exists_ofSelector (each item hitem)
  | .narrowed named object =>
    rw [ofEntry_pair, EntryName.ofName_field named]
    exact exists_ofSelector object
  | .equal named plain =>
    rw [ofEntry_equal field named (Value.kind_ne_object plain), exists_map_eq_ok,
      Comparison.exists_ofValue_iff]
    exact Operator.accepts_eq.2 plain

end

end Selection

end DocumentQuery
