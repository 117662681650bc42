import DocumentQuery.Proofs.Selection.Induction

/-!
# Vacuous selectors

The documents that ask nothing of a row, told by their form. A document that is accepted is read
as the selection of every row exactly when it is vacuous.
-/

namespace DocumentQuery
set_option autoImplicit false

namespace Value

mutual

/-- A document that asks nothing of a row. -/
inductive Vacuous : Value → Prop where
  | null : Vacuous .null
  | object {entries : List (String × Value)}
      (each : ∀ entry ∈ entries, VacuousEntry entry.1 entry.2) : Vacuous (.object entries)

/-- An entry that asks nothing of a row. No operator and no plain value does. -/
inductive VacuousEntry : String → Value → Prop where
  | and {items : List Value} (nonempty : items ≠ []) (each : ∀ item ∈ items, Vacuous item) :
      VacuousEntry "$and" (.array items)
  | or {items : List Value} {item : Value} (mem : item ∈ items) (one : Vacuous item) :
      VacuousEntry "$or" (.array items)
  | field {name : String} {entries : List (String × Value)}
      (named : Key.isFieldName name = true) (object : Vacuous (.object entries)) :
      VacuousEntry name (.object entries)

end

/-- A document is vacuous where each of its entries is. -/
theorem vacuous_object_iff {entries : List (String × Value)} :
    Vacuous (.object entries) ↔ ∀ entry ∈ entries, VacuousEntry entry.1 entry.2 := by
  constructor
  · intro h
    cases h with
    | object each => exact each
  · exact Vacuous.object

/-- Scalars other than null and arrays are never vacuous. -/
theorem not_vacuous_of_kind {v : Value} (hnull : v.kind ≠ .null) (hobject : v.kind ≠ .object) :
    ¬ Vacuous v := by
  intro h
  cases h with
  | null => exact hnull rfl
  | object each => exact hobject rfl

/-- A conjunction asks nothing where none of its members does. -/
theorem vacuousEntry_and_iff {items : List Value} (h : items ≠ []) :
    VacuousEntry "$and" (.array items) ↔ ∀ item ∈ items, Vacuous item := by
  constructor
  · intro hentry
    generalize hname : "$and" = name at hentry
    cases hentry with
    | and nonempty each => exact each
    | or mem one => exact absurd hname (by decide)
  · exact VacuousEntry.and h

/-- A choice asks nothing where some member of it does not. -/
theorem vacuousEntry_or_iff {items : List Value} :
    VacuousEntry "$or" (.array items) ↔ ∃ item ∈ items, Vacuous item := by
  constructor
  · intro hentry
    generalize hname : "$or" = name at hentry
    cases hentry with
    | and nonempty each => exact absurd hname (by decide)
    | or mem one => exact ⟨_, mem, one⟩
  · rintro ⟨item, mem, one⟩
    exact .or mem one

/-- An entry named for neither a connective nor a field asks something of a row. -/
theorem not_vacuousEntry_operator (op : Operator) (v : Value) : ¬ VacuousEntry op.name v := by
  intro h
  generalize hname : op.name = name at h
  cases h with
  | and nonempty each => cases op <;> exact absurd hname (by decide)
  | or mem one => cases op <;> exact absurd hname (by decide)
  | field named object =>
    rw [← hname, Operator.isFieldName_name] at named
    cases named

/-- A field asks nothing where it holds a document that asks nothing. -/
theorem vacuousEntry_field_iff {name : String} (h : Key.isFieldName name = true) {v : Value} :
    VacuousEntry name v ↔ v.kind = .object ∧ Vacuous v := by
  constructor
  · intro hentry
    cases hentry with
    | and nonempty each => exact absurd h (by decide)
    | or mem one => exact absurd h (by decide)
    | field named object => exact ⟨rfl, object⟩
  · rintro ⟨hkind, hv⟩
    cases v with
    | object entries => exact .field h hv
    | _ => cases hkind

/-- Over an array only the connectives can ask nothing. -/
theorem vacuousEntry_array_iff {name : String} {items : List Value} :
    VacuousEntry name (.array items) ↔
      (name = "$and" ∧ items ≠ [] ∧ ∀ item ∈ items, Vacuous item) ∨
        (name = "$or" ∧ ∃ item ∈ items, Vacuous item) := by
  constructor
  · intro h
    cases h with
    | and nonempty each => exact .inl ⟨rfl, nonempty, each⟩
    | or mem one => exact .inr ⟨rfl, _, mem, one⟩
  · rintro (⟨rfl, hne, hall⟩ | ⟨rfl, item, hitem, hone⟩)
    · exact .and hne hall
    · exact .or hitem hone

theorem vacuousEntry_object_iff {name : String} {entries : List (String × Value)} :
    VacuousEntry name (.object entries) ↔
      Key.isFieldName name = true ∧ Vacuous (.object entries) := by
  constructor
  · intro h
    cases h with
    | field named object => exact ⟨named, object⟩
  · rintro ⟨hname, hobject⟩
    exact .field hname hobject

/-! ### Testing for vacuity -/

mutual

/-- Whether a document asks nothing of a row. -/
def isVacuous : Value → Bool
  | .null => true
  | .object entries => (vacuousEntries entries).all id
  | _ => false

def vacuousEntries : List (String × Value) → List Bool
  | [] => []
  | (name, v) :: rest => isVacuousEntry name v :: vacuousEntries rest

def isVacuousEntry (name : String) : Value → Bool
  | .array items =>
    if name = "$and" then !items.isEmpty && (vacuousItems items).all id
    else name = "$or" && (vacuousItems items).any id
  | .object entries => Key.isFieldName name && (vacuousEntries entries).all id
  | _ => false

def vacuousItems : List Value → List Bool
  | [] => []
  | item :: rest => isVacuous item :: vacuousItems rest

end

mutual

/-- The test computes vacuity. -/
theorem isVacuous_iff (v : Value) : v.isVacuous = true ↔ v.Vacuous := by
  match v with
  | .null => exact iff_of_true rfl .null
  | .object entries =>
    rw [isVacuous, all_vacuousEntries_iff, vacuous_object_iff]
  | .array _ | .bool _ | .int _ | .float _ | .text _ | .date _ | .binary _ =>
    exact iff_of_false (by simp [isVacuous]) (not_vacuous_of_kind (by simp [kind]) (by simp [kind]))

theorem all_vacuousEntries_iff (entries : List (String × Value)) :
    (vacuousEntries entries).all id = true ↔ ∀ entry ∈ entries, VacuousEntry entry.1 entry.2 := by
  match entries with
  | [] => simp [vacuousEntries]
  | (name, v) :: rest =>
    rw [vacuousEntries, List.all_cons, Bool.and_eq_true, List.forall_mem_cons, id,
      isVacuousEntry_iff, all_vacuousEntries_iff]

theorem isVacuousEntry_iff (name : String) (v : Value) :
    isVacuousEntry name v = true ↔ VacuousEntry name v := by
  match v with
  | .array items =>
    rw [isVacuousEntry, vacuousEntry_array_iff]
    by_cases hand : name = "$and"
    · subst hand
      simp [all_vacuousItems_iff items]
    · simp [hand, any_vacuousItems_iff items]
  | .object entries =>
    rw [isVacuousEntry, vacuousEntry_object_iff, vacuous_object_iff, Bool.and_eq_true,
      all_vacuousEntries_iff]
  | .null | .bool _ | .int _ | .float _ | .text _ | .date _ | .binary _ =>
    exact iff_of_false (by simp [isVacuousEntry]) (fun h => nomatch h)

theorem all_vacuousItems_iff (items : List Value) :
    (vacuousItems items).all id = true ↔ ∀ item ∈ items, item.Vacuous := by
  match items with
  | [] => simp [vacuousItems]
  | item :: rest =>
    rw [vacuousItems, List.all_cons, Bool.and_eq_true, List.forall_mem_cons, id, isVacuous_iff,
      all_vacuousItems_iff]

theorem any_vacuousItems_iff (items : List Value) :
    (vacuousItems items).any id = true ↔ ∃ item ∈ items, item.Vacuous := by
  match items with
  | [] => simp [vacuousItems]
  | item :: rest =>
    rw [vacuousItems, List.any_cons, Bool.or_eq_true, List.exists_mem_cons_iff, id, isVacuous_iff,
      any_vacuousItems_iff]

end

instance : DecidablePred Vacuous := fun v => decidable_of_iff _ v.isVacuous_iff

end Value

namespace Selection

/-- A conjunction selects every row where all of its parts do. -/
theorem conjunction_eq_everything {parts : List Selection} :
    conjunction parts = .everything ↔ ∀ part ∈ parts, part = .everything := by
  unfold conjunction
  cases h : parts.filterMap node? with
  | nil =>
    refine ⟨fun _ part hpart => ?_, fun _ => rfl⟩
    cases part with
    | everything => rfl
    | matching node =>
      have hmem : node ∈ parts.filterMap node? := List.mem_filterMap.2 ⟨_, hpart, rfl⟩
      exact absurd h (List.ne_nil_of_mem hmem)
  | cons node rest =>
    have hnode : node ∈ parts.filterMap node? := by simp [h]
    obtain ⟨part, hpart, hnode⟩ := List.mem_filterMap.1 hnode
    refine ⟨fun heq => (nomatch heq), fun hall => ?_⟩
    rw [hall part hpart] at hnode
    cases hnode

/-- A choice selects every row where one of its parts does. -/
theorem disjunction_eq_everything {parts : List Selection} :
    disjunction parts = .everything ↔ ∃ part ∈ parts, part = .everything := by
  unfold disjunction
  cases h : parts.any isEverything with
  | false =>
    refine ⟨fun heq => (nomatch heq), ?_⟩
    rintro ⟨part, hpart, rfl⟩
    exact absurd rfl (List.any_eq_false.1 h everything hpart)
  | true =>
    obtain ⟨part, hpart, heq⟩ := List.any_eq_true.1 h
    refine ⟨fun _ => ⟨part, hpart, ?_⟩, fun _ => rfl⟩
    cases part with
    | everything => rfl
    | matching node => cases heq

theorem joined_eq_everything {parts : List Selection} :
    joined parts = .everything ↔ ∀ part ∈ parts, part = .everything := by
  rcases parts with _ | ⟨only, _ | ⟨second, rest⟩⟩
  · simp [joined, conjunction]
  · simp [joined]
  · exact conjunction_eq_everything

theorem comparing_ne_everything (c : Comparison) : comparing c ≠ .everything := by
  intro h
  cases h

/-- In every way in which a document is read, every row is selected just when it is vacuous. -/
theorem inductive_vacuous :
    Inductive (fun _ v sel => sel = .everything ↔ v.Vacuous)
      (fun _ entry sel => sel = .everything ↔ Value.VacuousEntry entry.1 entry.2) := by
  refine ⟨?null, ?array, ?scalar, ?object, ?operator, ?connective, ?narrowed, ?equal⟩
  case null =>
    intro field
    exact ⟨fun _ => .null, fun _ => rfl⟩
  case array =>
    intro field items c _
    exact iff_of_false (comparing_ne_everything c)
      (Value.not_vacuous_of_kind (by simp [Value.kind]) (by simp [Value.kind]))
  case scalar =>
    intro field v c hv _
    refine iff_of_false (comparing_ne_everything c) (Value.not_vacuous_of_kind ?_ ?_)
    · cases v <;> simp_all [Value.kind, Value.isScalar]
    · cases v <;> simp_all [Value.kind, Value.isScalar]
  case object =>
    intro field entries parts hparts
    rw [joined_eq_everything, Value.vacuous_object_iff]
    exact forall_mem_iff_of_forall₂ hparts
  case operator =>
    intro key op v c _
    exact iff_of_false (comparing_ne_everything c) (Value.not_vacuousEntry_operator op v)
  case connective =>
    intro field c items parts hitems hparts
    cases c with
    | and =>
      exact conjunction_eq_everything.trans
        ((forall_mem_iff_of_forall₂ hparts).trans (Value.vacuousEntry_and_iff hitems).symm)
    | or =>
      exact disjunction_eq_everything.trans
        ((exists_mem_iff_of_forall₂ hparts).trans Value.vacuousEntry_or_iff.symm)
  case narrowed =>
    intro field name entries sel hname hsel
    rw [hsel, Value.vacuousEntry_field_iff hname]
    exact (and_iff_right rfl).symm
  case equal =>
    intro field name v c hname hv _
    rw [Value.vacuousEntry_field_iff hname]
    exact iff_of_false (comparing_ne_everything c) fun hvac => hv hvac.1

/-- Under any field, a document is read as the selection of every row just when it is vacuous. -/
theorem eq_everything_iff {field : Option Key} {v : Value} {sel : Selection}
    (h : ofSelector field v = .ok sel) : sel = .everything ↔ v.Vacuous :=
  ofSelector_induction inductive_vacuous field v sel h

end Selection

end DocumentQuery
