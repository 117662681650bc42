import DocumentQuery.Proofs.Clause.Listing

/-!
# Documents of orders

Which documents are orders and what they say: names with directions, one for each element. Of the
others the first bad element is told by its index, and what is wrong with it.
-/

namespace DocumentQuery
set_option autoImplicit false

/-! ## Elements -/

/-- The number that a document gives a direction by. -/
def Direction.flag : Direction → Int
  | .ascending => 1
  | .descending => -1

/-- A flag is read by its value, whether it is an integer or a float. -/
theorem Direction.ofValue?_eq_some {v : Value} {direction : Direction} :
    ofValue? v = some direction ↔ v.rational? = some (direction.flag : ℚ) := by
  rw [← Value.integer?_eq_iff_rational? (by cases direction <;> decide)
    (by cases direction <;> decide), ofValue?]
  cases direction with
  | ascending =>
    rw [flag]
    split <;> simp_all
  | descending =>
    rw [flag]
    split <;> simp_all

/-- No other value is a flag. -/
theorem Direction.ofValue?_eq_none {v : Value} :
    ofValue? v = none ↔ ∀ direction : Direction, v.rational? ≠ some (direction.flag : ℚ) := by
  simp only [Option.eq_none_iff_forall_ne_some, ne_eq, ofValue?_eq_some]

namespace SortTerm

/-- The name and the direction that an element says. -/
inductive Says : Value → String × Direction → Prop where
  | name {name : String} (listable : Key.Listable name) : Says (.text name) (name, .ascending)
  | directed {name : String} {flag : Value} {direction : Direction}
      (listable : Key.Listable name) (h : flag.rational? = some (direction.flag : ℚ)) :
      Says (.object [(name, flag)]) (name, direction)

/-- What is wrong with an element. Its direction is judged before its name. -/
inductive Refuses : Value → SortFault → Prop where
  | name {name : String} (h : ¬ Key.Listable name) : Refuses (.text name) (.columnName name)
  | directed {name : String} {flag : Value} {direction : Direction}
      (directed : flag.rational? = some (direction.flag : ℚ)) (h : ¬ Key.Listable name) :
      Refuses (.object [(name, flag)]) (.columnName name)
  | direction {name : String} {flag : Value}
      (h : ∀ direction : Direction, flag.rational? ≠ some (direction.flag : ℚ)) :
      Refuses (.object [(name, flag)]) (.direction flag.described)
  | keyCount {entries : List (String × Value)} (h : entries.length ≠ 1) :
      Refuses (.object entries) (.keyCount entries.length)
  | kind {v : Value} (text : v.kind ≠ .string) (object : v.kind ≠ .object) :
      Refuses v (.kind v.kind)

/-- The term of a name with its direction. -/
def ofSaid (said : String × Direction) : SortTerm := ⟨Key.ofName said.1, said.2⟩

/-- A name is refused exactly where no clause lists it. -/
theorem ofName_eq (name : String) (direction : Direction) :
    ofName name direction =
      if Key.Listable name then .ok (ofSaid (name, direction)) else .error (.columnName name) := by
  rw [ofName, if_congr Key.isClauseName_iff rfl rfl, ofSaid]

theorem ofValue_of_said {v : Value} {said : String × Direction} (h : Says v said) :
    ofValue v = .ok (ofSaid said) := by
  cases h with
  | name listable => rw [ofValue, ofName_eq, if_pos listable]
  | directed listable h =>
    rw [ofValue, Direction.ofValue?_eq_some.2 h]
    exact (ofName_eq _ _).trans (if_pos listable)

theorem ofValue_of_refuses {v : Value} {fault : SortFault} (h : Refuses v fault) :
    ofValue v = .error fault := by
  cases h with
  | name h => rw [ofValue, ofName_eq, if_neg h]
  | directed directed h =>
    rw [ofValue, Direction.ofValue?_eq_some.2 directed]
    exact (ofName_eq _ _).trans (if_neg h)
  | direction h => rw [ofValue, Direction.ofValue?_eq_none.2 h]
  | @keyCount entries h =>
    match entries, h with
    | [], _ => rfl
    | _ :: _ :: _, _ => rfl
  | @kind v text object =>
    cases v with
    | text name => exact absurd rfl text
    | object entries => exact absurd rfl object
    | _ => rfl

/-- An element says a term or is refused. -/
theorem says_or_refuses (v : Value) : (∃ said, Says v said) ∨ ∃ fault, Refuses v fault := by
  match v with
  | .text name =>
    by_cases h : Key.Listable name
    · exact .inl ⟨_, .name h⟩
    · exact .inr ⟨_, .name h⟩
  | .object [(name, flag)] =>
    cases hdirection : Direction.ofValue? flag with
    | none => exact .inr ⟨_, .direction (Direction.ofValue?_eq_none.1 hdirection)⟩
    | some direction =>
      have hflag := Direction.ofValue?_eq_some.1 hdirection
      by_cases h : Key.Listable name
      · exact .inl ⟨_, .directed h hflag⟩
      · exact .inr ⟨_, .directed hflag h⟩
  | .object [] | .object (_ :: _ :: _) => exact .inr ⟨_, .keyCount (by simp)⟩
  | .null | .bool _ | .int _ | .float _ | .date _ | .binary _ | .array _ =>
    exact .inr ⟨_, .kind (by simp [Value.kind]) (by simp [Value.kind])⟩

/-- An element is accepted exactly where it says a name with a direction. -/
theorem ofValue_eq_ok {v : Value} {term : SortTerm} :
    ofValue v = .ok term ↔ ∃ said, Says v said ∧ ofSaid said = term := by
  constructor
  · intro h
    rcases says_or_refuses v with ⟨said, hsaid⟩ | ⟨fault, hfault⟩
    · rw [ofValue_of_said hsaid] at h
      exact ⟨said, hsaid, Except.ok.inj h⟩
    · rw [ofValue_of_refuses hfault] at h
      cases h
  · rintro ⟨said, hsaid, rfl⟩
    exact ofValue_of_said hsaid

/-- An element is refused exactly where something is wrong with it. -/
theorem ofValue_eq_error {v : Value} {fault : SortFault} :
    ofValue v = .error fault ↔ Refuses v fault := by
  refine ⟨fun h => ?_, ofValue_of_refuses⟩
  rcases says_or_refuses v with ⟨said, hsaid⟩ | ⟨fault', hfault⟩
  · rw [ofValue_of_said hsaid] at h
    cases h
  · rw [ofValue_of_refuses hfault] at h
    cases h
    exact hfault

end SortTerm

/-! ## Documents -/

namespace SortOrder

/-- The names with their directions that a document says, one for each of its elements. -/
inductive Says : Value → List (String × Direction) → Prop where
  | null : Says .null []
  | element {v : Value} {said : String × Direction} (h : SortTerm.Says v said) : Says v [said]
  | array {items : List Value} {said : List (String × Direction)}
      (h : List.Forall₂ SortTerm.Says items said) : Says (.array items) said

/-- What is wrong with a document: the first of its elements that something is wrong with, by its
index, or its kind. -/
inductive Refuses : Value → DocumentError → Prop where
  | element {v : Value} {fault : SortFault} (kind : v.kind = .string ∨ v.kind = .object)
      (h : SortTerm.Refuses v fault) : Refuses v (.ordering 0 fault)
  | array {before after : List Value} {item : Value} {fault : SortFault}
      (accepted : ∀ b ∈ before, ∃ said, SortTerm.Says b said) (h : SortTerm.Refuses item fault) :
      Refuses (.array (before ++ item :: after)) (.ordering before.length fault)
  | kind {v : Value} (h : v.kind ∉ [Kind.null, .array, .string, .object]) :
      Refuses v (.argument "string, object, array or null" v.kind)

/-- The order of names with their directions. -/
def ofSaid : List (String × Direction) → SortOrder
  | [] => .unspecified
  | said => .terms (said.map SortTerm.ofSaid)

/-- Elements at their positions are read as they are without. -/
theorem mapM_ofIndexed_eq_ok {elements : List Value} {terms : List SortTerm} :
    elements.zipIdx.mapM SortTerm.ofIndexed = .ok terms ↔
      ∃ said, List.Forall₂ SortTerm.Says elements said ∧ said.map SortTerm.ofSaid = terms := by
  have hread : ∀ (indexed : Value × Nat) (term : SortTerm),
      SortTerm.ofIndexed indexed = .ok term ↔
        ∃ said, SortTerm.Says indexed.1 said ∧ SortTerm.ofSaid said = term :=
    fun _ _ => mapError_eq_ok.trans SortTerm.ofValue_eq_ok
  rw [mapM_eq_ok, ← exists_forall₂_map]
  simp only [hread]
  conv_rhs => rw [← List.zipIdx_map_fst 0 elements, List.forall₂_map_left_iff]

/-- The fault of the first element that is refused, with its position. -/
def FirstRefused (elements : List Value) (e : DocumentError) : Prop :=
  ∃ before item after fault, elements = before ++ item :: after ∧
    (∀ b ∈ before, ∃ said, SortTerm.Says b said) ∧ SortTerm.Refuses item fault ∧
    e = .ordering before.length fault

/-- A list fails with its first refused element. -/
theorem mapM_ofIndexed_eq_error {elements : List Value} {e : DocumentError} :
    elements.zipIdx.mapM SortTerm.ofIndexed = .error e ↔ FirstRefused elements e := by
  have hread : ∀ indexed : Value × Nat, (∃ term, SortTerm.ofIndexed indexed = .ok term) ↔
      ∃ said, SortTerm.Says indexed.1 said := by
    intro indexed
    simp only [SortTerm.ofIndexed, mapError_eq_ok, SortTerm.ofValue_eq_ok]
    exact ⟨fun ⟨_, said, hsaid, _⟩ => ⟨said, hsaid⟩, fun ⟨said, hsaid⟩ => ⟨_, said, hsaid, rfl⟩⟩
  have hfault : ∀ (item : Value) (index : Nat), SortTerm.ofIndexed (item, index) = .error e ↔
      ∃ fault, SortTerm.Refuses item fault ∧ .ordering index fault = e := by
    intro item index
    simp only [SortTerm.ofIndexed, mapError_eq_error, SortTerm.ofValue_eq_error]
  rw [mapM_eq_error]
  simp only [hread]
  constructor
  · rintro ⟨before, ⟨item, index⟩, after, hsplit, hbefore, hitem⟩
    -- The index beside an element is the number of the elements in front of it.
    obtain ⟨front, back, rfl, rfl, hback⟩ := List.zipIdx_eq_append_iff.1 hsplit
    obtain ⟨first, rest, rfl, hfirst, rfl⟩ := List.zipIdx_eq_cons_iff.1 hback.symm
    cases hfirst
    obtain ⟨fault, hrefuses, rfl⟩ := (hfault _ _).1 hitem
    refine ⟨front, item, rest, fault, rfl, fun b hb => ?_, hrefuses, by rw [Nat.zero_add]⟩
    obtain ⟨indexed, hindexed, rfl⟩ := List.mem_map.1 (List.zipIdx_map_fst 0 front ▸ hb)
    exact hbefore indexed hindexed
  · rintro ⟨before, item, after, fault, rfl, hbefore, hitem, rfl⟩
    refine ⟨before.zipIdx, (item, 0 + before.length), after.zipIdx (0 + before.length + 1), ?_, ?_,
      (hfault _ _).2 ⟨fault, hitem, by rw [Nat.zero_add]⟩⟩
    · rw [List.zipIdx_append, List.zipIdx_cons]
    · intro indexed hindexed
      exact hbefore _ (List.fst_mem_of_mem_zipIdx hindexed)

/-- A list is accepted exactly where each element says something. -/
theorem ofElements_eq_ok {elements : List Value} {order : SortOrder} :
    ofElements elements = .ok order ↔
      ∃ said, List.Forall₂ SortTerm.Says elements said ∧ ofSaid said = order := by
  cases elements with
  | nil => simp [ofElements, ofSaid]
  | cons element rest =>
    rw [ofElements, map_eq_ok]
    · simp only [mapM_ofIndexed_eq_ok]
      constructor
      · rintro ⟨_, ⟨said, hsaid, rfl⟩, rfl⟩
        refine ⟨said, hsaid, ?_⟩
        cases hsaid
        rfl
      · rintro ⟨said, hsaid, rfl⟩
        refine ⟨_, ⟨said, hsaid, rfl⟩, ?_⟩
        cases hsaid
        rfl
    · rintro ⟨⟩

theorem ofElements_eq_error {elements : List Value} {e : DocumentError} :
    ofElements elements = .error e ↔ FirstRefused elements e := by
  rw [← mapM_ofIndexed_eq_error]
  cases elements with
  | nil => exact iff_of_false nofun nofun
  | cons element rest => exact map_eq_error

theorem says_array {items : List Value} {said : List (String × Direction)} :
    Says (.array items) said ↔ List.Forall₂ SortTerm.Says items said := by
  refine ⟨fun h => ?_, .array⟩
  cases h with
  | element h => cases h
  | array h => exact h

/-- A document that is an element itself says what it says as the only one. -/
theorem says_element {v : Value} (h : v.kind = .string ∨ v.kind = .object)
    {said : List (String × Direction)} : Says v said ↔ List.Forall₂ SortTerm.Says [v] said := by
  constructor
  · intro hsaid
    cases hsaid with
    | null => simp [Value.kind] at h
    | element hsaid => exact .cons hsaid .nil
    | array hsaid => simp [Value.kind] at h
  · rintro (_ | ⟨hsaid, ⟨⟩⟩)
    exact .element hsaid

/-- An order is accepted exactly where its document says names with directions. -/
theorem ofValue_eq_ok {v : Value} {order : SortOrder} :
    ofValue v = .ok order ↔ ∃ said, Says v said ∧ ofSaid said = order := by
  cases v with
  | null =>
    constructor
    · rintro ⟨⟩
      exact ⟨[], .null, rfl⟩
    · rintro ⟨said, hsaid | hsaid, rfl⟩
      · rfl
      · cases hsaid
  | array items => simp only [ofValue, ofElements_eq_ok, says_array]
  | text name => simp only [ofValue, ofElements_eq_ok, says_element (v := .text name) (.inl rfl)]
  | object entries =>
    simp only [ofValue, ofElements_eq_ok, says_element (v := .object entries) (.inr rfl)]
  | _ =>
    refine iff_of_false nofun ?_
    rintro ⟨_, hsaid, -⟩
    cases hsaid with
    | element hsaid => cases hsaid

theorem refuses_array {items : List Value} {e : DocumentError} :
    Refuses (.array items) e ↔ FirstRefused items e := by
  constructor
  · intro h
    cases h with
    | element kind => simp [Value.kind] at kind
    | array accepted h => exact ⟨_, _, _, _, rfl, accepted, h, rfl⟩
    | kind h => simp [Value.kind] at h
  · rintro ⟨before, item, after, fault, rfl, accepted, h, rfl⟩
    exact .array accepted h

theorem refuses_element {v : Value} (h : v.kind = .string ∨ v.kind = .object) {e : DocumentError} :
    Refuses v e ↔ FirstRefused [v] e := by
  constructor
  · intro hrefuses
    cases hrefuses with
    | element _ hfault => exact ⟨[], v, [], _, rfl, by simp, hfault, rfl⟩
    | array => simp [Value.kind] at h
    | kind hkind => rcases h with h | h <;> simp [h] at hkind
  · rintro ⟨_ | ⟨b, before⟩, item, after, fault, hsplit, -, hfault, rfl⟩
    · cases hsplit
      exact .element h hfault
    · simp at hsplit

/-- An order is refused exactly with what is wrong with its document. -/
theorem ofValue_eq_error {v : Value} {e : DocumentError} : ofValue v = .error e ↔ Refuses v e := by
  cases v with
  | null =>
    refine iff_of_false nofun ?_
    rintro (⟨h, -⟩ | - | h)
    · simp [Value.kind] at h
    · simp [Value.kind] at h
  | array items => rw [ofValue, ofElements_eq_error, refuses_array]
  | text name => rw [ofValue, ofElements_eq_error, refuses_element (.inl rfl)]
  | object entries => rw [ofValue, ofElements_eq_error, refuses_element (.inr rfl)]
  | _ =>
    constructor
    · rintro ⟨⟩
      exact .kind (by simp [Value.kind])
    · rintro (⟨h, -⟩ | - | -)
      · simp [Value.kind] at h
      · rfl

/-- Only null and an empty array say nothing. -/
theorem Says.eq_nil_iff {v : Value} {said : List (String × Direction)} (h : Says v said) :
    said = [] ↔ v = .null ∨ v = .array [] := by
  cases h with
  | null => simp
  | element h => cases h <;> simp
  | array h =>
    cases h <;> simp

end SortOrder

end DocumentQuery
