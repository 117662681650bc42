import DocumentQuery.Proofs.Selection.Operand
import DocumentQuery.Selection.Selector

/-!
# Induction on selectors

How a document that is accepted as a selection was read. `ofSelector_induction` has a case for
each form of selector and of entry, with the selection that it gives; what it asks of the names of
entries is said by the names alone.
-/

namespace DocumentQuery
set_option autoImplicit false

/-- A name that a selector's entry can give to a field. -/
def Key.isFieldName (name : String) : Bool := name == idName || !isReserved name

namespace Operator

/-- The name of an operator is no field. -/
theorem isFieldName_name (op : Operator) : Key.isFieldName op.name = false := by
  cases op <;> decide

/-- A field is not named like an operator. -/
theorem ofName?_of_isFieldName {name : String} (h : Key.isFieldName name = true) :
    ofName? name = none := by
  cases hop : ofName? name with
  | none => rfl
  | some op =>
    rw [ofName?_eq_some.1 hop, isFieldName_name] at h
    exact absurd h (by decide)

end Operator

namespace EntryName

theorem ofName_operator (op : Operator) : ofName op.name = .operator op := by
  simp [ofName]

theorem ofName_connective (c : Connective) : ofName c.name = .connective c := by
  cases c <;> decide

theorem ofName_field {name : String} (h : Key.isFieldName name = true) :
    ofName name = .key (Key.ofName name) := by
  have hop := Operator.ofName?_of_isFieldName h
  have hand : name ≠ Connective.and.name := by
    rintro rfl
    exact absurd h (by decide)
  have hor : name ≠ Connective.or.name := by
    rintro rfl
    exact absurd h (by decide)
  have hname : (Key.isReserved name && name != Key.idName) = false := by
    cases hres : Key.isReserved name with
    | false => rfl
    | true => simpa [Key.isFieldName, hres] using h
  simp [ofName, hop, hand, hor, hname]

/-- Every entry is named for an operator, a connective or a field, or has a reserved name that is
none of them. -/
theorem name_cases (name : String) :
    (∃ op : Operator, name = op.name) ∨ (∃ c : Connective, name = c.name) ∨
      Key.isFieldName name = true ∨ ofName name = .unknown name := by
  cases hop : Operator.ofName? name with
  | some op => exact .inl ⟨op, Operator.ofName?_eq_some.1 hop⟩
  | none =>
    by_cases hand : name = Connective.and.name
    · exact .inr (.inl ⟨.and, hand⟩)
    by_cases hor : name = Connective.or.name
    · exact .inr (.inl ⟨.or, hor⟩)
    cases hfield : Key.isFieldName name with
    | true => exact .inr (.inr (.inl rfl))
    | false =>
      have hname : (Key.isReserved name && name != Key.idName) = true := by
        simpa [Key.isFieldName, and_comm] using hfield
      exact .inr (.inr (.inr (by simp [ofName, hop, hand, hor, hname])))

end EntryName

namespace Selection

/-- The selection of an object's entries: of a single entry its own, else the conjunction. -/
def joined : List Selection → Selection
  | [only] => only
  | parts => conjunction parts

/-- A document is read entry by entry, and the parts are joined. -/
theorem ofSelector_object (field : Option Key) (entries : List (String × Value)) :
    ofSelector field (.object entries) = (ofEntries field entries).map joined := by
  rw [ofSelector]
  cases ofEntries field entries with
  | error e => rfl
  | ok parts => rcases parts with _ | ⟨only, _ | ⟨second, rest⟩⟩ <;> rfl

/-- An object with one entry is read as that entry is. -/
theorem ofSelector_single (field : Option Key) (name : String) (v : Value) :
    ofSelector field (.object [(name, v)]) = ofEntry field (name, v) := by
  rw [ofSelector_object, ofEntries]
  cases ofEntry field (name, v) <;> rfl

/-- What the name of an entry makes of its value. -/
theorem ofEntry_pair (field : Option Key) (name : String) (value : Value) :
    ofEntry field (name, value) =
      match EntryName.ofName name with
      | .operator op =>
        match field with
        | some key => (Comparison.ofValue op key value).map comparing
        | none => .error (.missingField op.name)
      | .connective c =>
        match value with
        | .array [] => .error (.emptyArray c.name)
        | .array items => (ofItems field items).map c.join
        | other => .error (.operand c.name "non-empty array" other.kind)
      | .unknown name => .error (.unknownOperator name)
      | .key key =>
        match value with
        | .object entries => ofSelector (some key) (.object entries)
        | other => (Comparison.ofValue .eq key other).map comparing := by
  cases value with
  | array items => cases items <;> rfl
  | _ => rfl

/-- The comparison of a field, spelled out, is read as that comparison. -/
theorem ofSelector_compared (field : Option Key) {name : String}
    (h : Key.isFieldName name = true) (op : Operator) (v : Value) :
    ofSelector field (.object [(name, .object [(op.name, v)])])
      = (Comparison.ofValue op (Key.ofName name) v).map comparing := by
  rw [ofSelector_single, ofEntry_pair, EntryName.ofName_field h]
  change ofSelector (some (Key.ofName name)) (.object [(op.name, v)]) = _
  rw [ofSelector_single, ofEntry_pair, EntryName.ofName_operator]

/-- A scalar is an equality of the primary key, whatever the field. -/
theorem ofSelector_scalar (field : Option Key) {v : Value} (h : v.isScalar = true) :
    ofSelector field v = (Comparison.ofValue .eq .id v).map comparing := by
  cases v with
  | null => cases h
  | array items => cases h
  | object entries => cases h
  | _ => rfl

/-- A field with a value other than a document is an equality. -/
theorem ofEntry_equal (field : Option Key) {name : String} (h : Key.isFieldName name = true)
    {v : Value} (hv : v.kind ≠ .object) :
    ofEntry field (name, v) = (Comparison.ofValue .eq (Key.ofName name) v).map comparing := by
  rw [ofEntry_pair, EntryName.ofName_field h]
  cases v with
  | object entries => exact absurd rfl hv
  | _ => rfl

/-- Entries are read one by one up to the first fault. -/
theorem ofEntries_eq_mapM (field : Option Key) (entries : List (String × Value)) :
    ofEntries field entries = entries.mapM (ofEntry field) := by
  induction entries with
  | nil => rfl
  | cons entry rest ih =>
    rw [ofEntries, ih, List.mapM_cons]
    rfl

/-- Members are read one by one up to the first fault. -/
theorem ofItems_eq_mapM (field : Option Key) (items : List Value) :
    ofItems field items = items.mapM (ofSelector field) := by
  induction items with
  | nil => rfl
  | cons item rest ih =>
    rw [ofItems, ih, List.mapM_cons]
    rfl

/-- A connective joins the selections of its items, if there are any. -/
theorem ofEntry_connective (field : Option Key) (c : Connective) {items : List Value}
    (h : items ≠ []) :
    ofEntry field (c.name, .array items) = (items.mapM (ofSelector field)).map c.join := by
  obtain ⟨item, rest, rfl⟩ := List.exists_cons_of_ne_nil h
  rw [← ofItems_eq_mapM, ofEntry_pair, EntryName.ofName_connective]

/-- `P` of a selector under a field and `E` of an entry hold of every way in which they are read;
an object and a connective may use it of their parts. -/
structure Inductive (P : Option Key → Value → Selection → Prop)
    (E : Option Key → String × Value → Selection → Prop) : Prop where
  null : ∀ field, P field .null .everything
  array : ∀ field items c, Comparison.ofValue .oneOf .id (.array items) = .ok c →
    P field (.array items) (comparing c)
  scalar : ∀ field v c, v.isScalar = true → Comparison.ofValue .eq .id v = .ok c →
    P field v (comparing c)
  object : ∀ field entries parts, List.Forall₂ (E field) entries parts →
    P field (.object entries) (joined parts)
  operator : ∀ key (op : Operator) v c, Comparison.ofValue op key v = .ok c →
    E (some key) (op.name, v) (comparing c)
  connective : ∀ field (c : Connective) items parts, items ≠ [] →
    List.Forall₂ (P field) items parts → E field (c.name, .array items) (c.join parts)
  narrowed : ∀ field name entries sel, Key.isFieldName name = true →
    P (some (Key.ofName name)) (.object entries) sel → E field (name, .object entries) sel
  equal : ∀ field name v c, Key.isFieldName name = true → v.kind ≠ .object →
    Comparison.ofValue .eq (Key.ofName name) v = .ok c → E field (name, v) (comparing c)

section Induction

variable {P : Option Key → Value → Selection → Prop}
  {E : Option Key → String × Value → Selection → Prop}

/-- A scalar is a case of its own in the induction. -/
theorem ofSelector_leaf (step : Inductive P E) {field : Option Key} {v : Value} {sel : Selection}
    (hv : v.isScalar = true) (h : ofSelector field v = .ok sel) : P field v sel := by
  rw [ofSelector_scalar field hv] at h
  obtain ⟨c, hc, rfl⟩ := map_eq_ok.1 h
  exact step.scalar field v c hv hc

/-- Entries without selectors in their value. -/
theorem ofEntry_leaf (step : Inductive P E) {field : Option Key} {name : String} {v : Value}
    {sel : Selection} (hobject : v.kind ≠ .object)
    (hjoined : ∀ c : Connective, name = c.name → v.kind ≠ .array)
    (h : ofEntry field (name, v) = .ok sel) : E field (name, v) sel := by
  rcases EntryName.name_cases name with ⟨op, rfl⟩ | ⟨c, rfl⟩ | hfield | hunknown
  · rw [ofEntry_pair, EntryName.ofName_operator] at h
    cases field with
    | none => cases h
    | some key =>
      obtain ⟨c, hc, rfl⟩ := map_eq_ok.1 h
      exact step.operator key op v c hc
  · rw [ofEntry_pair, EntryName.ofName_connective] at h
    cases v with
    | array items => exact absurd rfl (hjoined c rfl)
    | _ => cases h
  · rw [ofEntry_equal field hfield hobject] at h
    obtain ⟨c, hc, rfl⟩ := map_eq_ok.1 h
    exact step.equal field name v c hfield hobject hc
  · rw [ofEntry_pair, hunknown] at h
    cases h

mutual

/-- What holds of every way in which a selector is read holds of every document that is accepted.
The recursion is that of the reader: selectors, entries, and the lists of both. -/
theorem ofSelector_induction (step : Inductive P E) (field : Option Key) (v : Value)
    (sel : Selection) (h : ofSelector field v = .ok sel) : P field v sel := by
  match v with
  | .null =>
    cases h
    exact step.null field
  | .array items =>
    obtain ⟨c, hc, rfl⟩ := map_eq_ok.1 h
    exact step.array field items c hc
  | .object entries =>
    rw [ofSelector_object] at h
    obtain ⟨parts, hparts, rfl⟩ := map_eq_ok.1 h
    exact step.object field entries parts (ofEntries_induction step field entries parts hparts)
  | .bool _ | .int _ | .float _ | .text _ | .date _ | .binary _ =>
    exact ofSelector_leaf step rfl h

/-- What holds for entries by the induction holds for a list of them one by one. -/
theorem ofEntries_induction (step : Inductive P E) (field : Option Key)
    (entries : List (String × Value)) (parts : List Selection)
    (h : ofEntries field entries = .ok parts) :
    List.Forall₂ (E field) entries parts := by
  match entries with
  | [] =>
    cases h
    exact .nil
  | entry :: rest =>
    rw [ofEntries] at h
    obtain ⟨part, hpart, h⟩ := bind_eq_ok.1 h
    obtain ⟨tail, htail, h⟩ := bind_eq_ok.1 h
    cases h
    exact .cons (ofEntry_induction step field entry part hpart)
      (ofEntries_induction step field rest tail htail)

theorem ofEntry_induction (step : Inductive P E) (field : Option Key) (entry : String × Value)
    (sel : Selection) (h : ofEntry field entry = .ok sel) : E field entry sel := by
  match entry with
  | (name, .array items) =>
    by_cases hname : ∃ c : Connective, name = c.name
    · obtain ⟨c, rfl⟩ := hname
      rw [ofEntry_pair, EntryName.ofName_connective] at h
      cases items with
      | nil => cases h
      | cons item rest =>
        obtain ⟨parts, hparts, rfl⟩ := map_eq_ok.1 h
        exact step.connective field c (item :: rest) parts (by simp)
          (ofItems_induction step field (item :: rest) parts hparts)
    · refine ofEntry_leaf step (by simp [Value.kind]) (fun c hc => ?_) h
      exact absurd ⟨c, hc⟩ hname
  | (name, .object entries) =>
    rcases EntryName.name_cases name with ⟨op, rfl⟩ | ⟨c, rfl⟩ | hfield | hunknown
    · rw [ofEntry_pair, EntryName.ofName_operator] at h
      cases field with
      | none => cases h
      | some key =>
        obtain ⟨c, hc, rfl⟩ := map_eq_ok.1 h
        exact step.operator key op (.object entries) c hc
    · rw [ofEntry_pair, EntryName.ofName_connective] at h
      cases h
    · rw [ofEntry_pair, EntryName.ofName_field hfield] at h
      exact step.narrowed field name entries sel hfield
        (ofSelector_induction step (some (Key.ofName name)) (.object entries) sel h)
    · rw [ofEntry_pair, hunknown] at h
      cases h
  | (name, .null) | (name, .bool _) | (name, .int _) | (name, .float _) | (name, .text _)
  | (name, .date _) | (name, .binary _) =>
    exact ofEntry_leaf step (by simp [Value.kind]) (fun _ _ => by simp [Value.kind]) h

/-- What holds for documents by the induction holds for a list of them one by one. -/
theorem ofItems_induction (step : Inductive P E) (field : Option Key) (items : List Value)
    (parts : List Selection) (h : ofItems field items = .ok parts) :
    List.Forall₂ (P field) items parts := by
  match items with
  | [] =>
    cases h
    exact .nil
  | item :: rest =>
    rw [ofItems] at h
    obtain ⟨part, hpart, h⟩ := bind_eq_ok.1 h
    obtain ⟨tail, htail, h⟩ := bind_eq_ok.1 h
    cases h
    exact .cons (ofSelector_induction step field item part hpart)
      (ofItems_induction step field rest tail htail)

end

end Induction

end Selection

end DocumentQuery
