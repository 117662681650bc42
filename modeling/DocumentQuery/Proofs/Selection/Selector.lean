import DocumentQuery.Proofs.Connective
import DocumentQuery.Proofs.Selection.Induction
import DocumentQuery.Proofs.Selection.Meaning

/-!
# Meaning of selectors

What a document says of a row, told by the document alone: nothing is dropped, absorbed or joined
here. The main statement is that a document that is accepted is read as a selection of the same
meaning, at any depth and under any field.
-/

namespace DocumentQuery
set_option autoImplicit false

variable (cmp : Comparer)

/-- What a member of a set in a document says of a column's value `x`. -/
def Value.memberMeaning (x : Parameter) : Value → Truth
  | .object [(name, operand)] =>
    match Operator.ofName? name, operand.parameter? with
    | some op, some p => op.holds cmp x p
    | _, _ => .unknown
  | literal =>
    match literal.parameter? with
    | some p => cmp.truth .equal x p
    | none => .unknown

/-- What an operator and its operand in a document say of a column's value `x`. -/
def Operator.meaning (x : Parameter) (op : Operator) (operand : Value) : Truth :=
  match op, operand with
  | .oneOf, .array items => Truth.any (items.map (Value.memberMeaning cmp x))
  | .noneOf, .array items => (Truth.any (items.map (Value.memberMeaning cmp x))).not
  | _, literal =>
    match literal.parameter? with
    | some p => op.holds cmp x p
    | none => .unknown

namespace Value

variable (row : Row Key)

/-- What an entry without selectors in its value says of a row: an operator is about the innermost
field around it, and any other name is a field that is compared for equality. -/
def leafMeaning (field : Option Key) (name : String) (v : Value) : Truth :=
  match Operator.ofName? name, field with
  | some op, some key => op.meaning cmp (row key) v
  | some _, none => .unknown
  | none, _ => Operator.eq.meaning cmp (row (Key.ofName name)) v

mutual

/-- What a document says of a row, under the field around it. An object is the conjunction of its
entries; a scalar and an array are about the primary key, whatever field is around them. -/
def meaning (field : Option Key) : Value → Truth
  | .null => .yes
  | .array items => Operator.oneOf.meaning cmp (row .id) (.array items)
  | .object entries => Truth.all (entryMeanings field entries)
  | scalar => Operator.eq.meaning cmp (row .id) scalar

def entryMeanings (field : Option Key) : List (String × Value) → List Truth
  | [] => []
  | (name, value) :: rest => entryMeaning field name value :: entryMeanings field rest

/-- What an entry says of a row. The items of a connective are selectors under the same field, and
the object under a field's name is one under that field. -/
def entryMeaning (field : Option Key) (name : String) : Value → Truth
  | .array items =>
    if name = "$and" then Truth.all (itemMeanings field items)
    else if name = "$or" then Truth.any (itemMeanings field items)
    else leafMeaning cmp row field name (.array items)
  | .object entries =>
    if Key.isFieldName name then Truth.all (entryMeanings (some (Key.ofName name)) entries)
    else leafMeaning cmp row field name (.object entries)
  | scalar => leafMeaning cmp row field name scalar

def itemMeanings (field : Option Key) : List Value → List Truth
  | [] => []
  | item :: rest => meaning field item :: itemMeanings field rest

end

theorem entryMeanings_eq_map (field : Option Key) (entries : List (String × Value)) :
    entryMeanings cmp row field entries
      = entries.map fun entry => entryMeaning cmp row field entry.1 entry.2 := by
  induction entries with
  | nil => rfl
  | cons entry rest ih => rw [entryMeanings, ih, List.map_cons]

theorem itemMeanings_eq_map (field : Option Key) (items : List Value) :
    itemMeanings cmp row field items = items.map (meaning cmp row field) := by
  induction items with
  | nil => rfl
  | cons item rest ih => rw [itemMeanings, ih, List.map_cons]

/-- A scalar asks for the primary key to be equal to it. -/
theorem meaning_scalar (field : Option Key) {v : Value} (h : v.isScalar = true) :
    meaning cmp row field v = Operator.eq.meaning cmp (row .id) v := by
  cases v with
  | null => cases h
  | array items => cases h
  | object entries => cases h
  | _ => rfl

/-- An operator asks something of the field in front of it. -/
theorem entryMeaning_operator (key : Key) (op : Operator) (v : Value) :
    entryMeaning cmp row (some key) op.name v = op.meaning cmp (row key) v := by
  have hand : op.name ≠ "$and" := by cases op <;> decide
  have hor : op.name ≠ "$or" := by cases op <;> decide
  have hleaf : leafMeaning cmp row (some key) op.name v = op.meaning cmp (row key) v := by
    simp [leafMeaning]
  cases v <;> simp [entryMeaning, hand, hor, Operator.isFieldName_name, hleaf]

/-- A connective joins what its members ask, under the same field. -/
theorem entryMeaning_connective (field : Option Key) (c : Connective) (items : List Value) :
    entryMeaning cmp row field c.name (.array items)
      = c.truth (items.map (meaning cmp row field)) := by
  cases c <;> simp [entryMeaning, Connective.name, Connective.truth, itemMeanings_eq_map]

theorem entryMeaning_object (field : Option Key) {name : String}
    (h : Key.isFieldName name = true) (entries : List (String × Value)) :
    entryMeaning cmp row field name (.object entries)
      = meaning cmp row (some (Key.ofName name)) (.object entries) := by
  simp [entryMeaning, meaning, h]

theorem entryMeaning_equal (field : Option Key) {name : String}
    (h : Key.isFieldName name = true) {v : Value} (hv : v.kind ≠ .object) :
    entryMeaning cmp row field name v = Operator.eq.meaning cmp (row (Key.ofName name)) v := by
  have hand : name ≠ "$and" := by
    rintro rfl
    exact absurd h (by decide)
  have hor : name ≠ "$or" := by
    rintro rfl
    exact absurd h (by decide)
  have hleaf : leafMeaning cmp row field name v
      = Operator.eq.meaning cmp (row (Key.ofName name)) v := by
    simp [leafMeaning, Operator.ofName?_of_isFieldName h]
  cases v with
  | object entries => exact absurd rfl hv
  | _ => simp [entryMeaning, hand, hor, hleaf]

end Value

/-! ## Comparisons -/

/-- Over a scalar an operator asks for its comparison with the parameter. -/
theorem Operator.meaning_of_parameter {op : Operator} {v : Value} {p : Parameter}
    (h : v.parameter? = some p) (x : Parameter) : op.meaning cmp x v = op.holds cmp x p := by
  cases v with
  | array items => cases h
  | _ => simp [meaning, h]

/-- A member of a set that is read asks what its document asks. -/
theorem Element.holds_of_ofValue {op : Operator} {item : Value} {element : Element}
    (h : ofValue op item = .ok element) (x : Parameter) :
    element.holds cmp x = item.memberMeaning cmp x := by
  rcases ofValue_eq_ok.1 h with
    ⟨p, hscalar, hp, rfl⟩ | ⟨inner, operand, p, rfl, hinner, hp, rfl⟩
  · cases item with
    | object entries => cases hscalar
    | _ => simp [holds, Value.memberMeaning, hp]
  · simp [holds, Value.memberMeaning, (Operator.parameter_eq_ok.1 hp).2]

/-- The members of an accepted set say what the items of the document say. -/
theorem Element.map_holds_of_ofValue {op : Operator} {items : List Value}
    {elements : List Element}
    (h : List.Forall₂ (fun item element => Element.ofValue op item = .ok element) items elements)
    (x : Parameter) :
    elements.map (Element.holds cmp x) = items.map (Value.memberMeaning cmp x) := by
  refine map_eq_of_forall₂ (h.imp fun item element hitem => ?_)
  exact holds_of_ofValue cmp hitem x

/-- An accepted comparison says of a row what its operator and operand say in the document. -/
theorem Comparison.holds_of_ofValue {op : Operator} {key : Key} {v : Value} {c : Comparison}
    (h : Comparison.ofValue op key v = .ok c) (row : Row Key) :
    c.holds cmp row = op.meaning cmp (row key) v := by
  obtain ⟨operand, hoperand, rfl⟩ := ofValue_eq_ok.1 h
  rcases Operand.ofValue_eq_ok.1 hoperand with
    ⟨items, elements, hop, rfl, -, helements, rfl⟩ | ⟨p, hop, hp, rfl⟩
  · have hmembers := Element.map_holds_of_ofValue cmp helements (row key)
    cases op with
    | oneOf => simp [holds, Operator.meaning, hmembers]
    | noneOf => simp [holds, Operator.meaning, hmembers]
    | _ => cases hop
  · exact (Operator.meaning_of_parameter cmp (Operator.parameter_eq_ok.1 hp).2 (row key)).symm

namespace Selection

/-- The joined entries of a document hold where all of them do. -/
theorem holds_joined (row : Row Key) (parts : List Selection) :
    (joined parts).holds cmp row = Truth.all (parts.map (holds cmp row)) := by
  rcases parts with _ | ⟨only, _ | ⟨second, rest⟩⟩
  · exact holds_conjunction cmp row []
  · simp [joined]
  · exact holds_conjunction cmp row (only :: second :: rest)

/-- A connective over parts holds as it joins their truth, match-all parts included. -/
theorem holds_join (row : Row Key) (c : Connective) (parts : List Selection) :
    (c.join parts).holds cmp row = c.truth (parts.map (holds cmp row)) := by
  cases c with
  | and => exact holds_conjunction cmp row parts
  | or => exact holds_disjunction cmp row parts

/-- Under any field, a document is read as a selection of its own meaning. -/
theorem holds_of_ofSelector (row : Row Key) {field : Option Key} {v : Value} {sel : Selection}
    (h : ofSelector field v = .ok sel) : sel.holds cmp row = v.meaning cmp row field := by
  refine ofSelector_induction
    (P := fun field v sel => sel.holds cmp row = v.meaning cmp row field)
    (E := fun field entry sel =>
      sel.holds cmp row = Value.entryMeaning cmp row field entry.1 entry.2)
    ⟨?null, ?array, ?scalar, ?object, ?operator, ?connective, ?narrowed, ?equal⟩ field v sel h
  case null => exact fun field => rfl
  case array =>
    intro field items c hc
    rw [holds_comparing, Comparison.holds_of_ofValue cmp hc, Value.meaning]
  case scalar =>
    intro field v c hv hc
    rw [holds_comparing, Comparison.holds_of_ofValue cmp hc,
      Value.meaning_scalar cmp row field hv]
  case object =>
    intro field entries parts hparts
    rw [holds_joined, map_eq_of_forall₂ hparts, Value.meaning, Value.entryMeanings_eq_map]
  case operator =>
    intro key op v c hc
    rw [holds_comparing, Comparison.holds_of_ofValue cmp hc, Value.entryMeaning_operator]
  case connective =>
    intro field c items parts hitems hparts
    rw [holds_join, map_eq_of_forall₂ hparts, Value.entryMeaning_connective]
  case narrowed =>
    intro field name entries sel hname hsel
    rw [hsel, Value.entryMeaning_object cmp row field hname]
  case equal =>
    intro field name v c hname hv hc
    rw [holds_comparing, Comparison.holds_of_ofValue cmp hc,
      Value.entryMeaning_equal cmp row field hname hv]

/-- A document says of every row what the selection says that it is read as: the conjunctions and
disjunctions of the document lose no meaning where parts of them are dropped or absorbed. -/
theorem holds_ofValue :
    (∀ v sel, ofValue v = .ok sel → ∀ row, sel.holds cmp row = v.meaning cmp row none) ∧
      ∀ (c : Connective) (parts : List Selection) (row : Row Key),
        (c.join parts).holds cmp row = c.truth (parts.map (holds cmp row)) :=
  ⟨fun _ _ h row => holds_of_ofSelector cmp row h, fun c parts row => holds_join cmp row c parts⟩

/-- A choice with an empty branch, and a field that narrows a conjunction. -/
def narrowed : Value :=
  .object
    [("$or", .array [.object [("a", .null)], .object []]),
      ("b", .object [("$and", .array
        [.null, .array [.int 1, .object [("$gt", .int 5)]], .object [("$lt", .int 3)]])])]

theorem narrowed_holds :
    let same : Comparer := fun _ x p => x == p
    let row : Row Key := fun key => if key = .id then .int 1 else .int 3
    ofValue narrowed = .ok (.matching (.and [.and
        [.comparison ⟨.oneOf, .id, .values [.literal (.int 1), .predicate .gt (.int 5)]⟩,
          .comparison ⟨.lt, .column "b", .value (.int 3)⟩]])) ∧
      narrowed.meaning same row none = .yes := by
  intro same row
  have hread : ofValue narrowed = .ok (.matching (.and [.and
      [.comparison ⟨.oneOf, .id, .values [.literal (.int 1), .predicate .gt (.int 5)]⟩,
        .comparison ⟨.lt, .column "b", .value (.int 3)⟩]])) := rfl
  have hmeaning := (holds_ofValue same).1 narrowed _ hread row
  exact ⟨hread, hmeaning.symm.trans (by decide)⟩

end Selection

end DocumentQuery
