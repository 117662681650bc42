import DocumentQuery.Proofs.Selection.Shape

/-!
# Renamed selectors

A selector whose fields are renamed is read as the same tree about the renamed columns. Operators,
connectives and the name of the primary key are not names of fields, so they stay, and so does
everything that a document compares with.
-/

namespace DocumentQuery
set_option autoImplicit false

variable {r : String → String → Prop}

/-! ## Names -/

/-- A name in a position that takes the names `accepts` allows: renamed by `r` to another name that
is allowed there. A name that is not allowed stays as it is. -/
inductive NameRenamed (r : String → String → Prop) (accepts : String → Bool) :
    String → String → Prop where
  | renamed {n n' : String} (h : r n n') (hn : accepts n = true) (hn' : accepts n' = true) :
      NameRenamed r accepts n n'
  | kept {n : String} (h : accepts n = false) : NameRenamed r accepts n n

namespace Key

/-- Keys of renamed columns; the primary key is the same. -/
inductive Renamed (r : String → String → Prop) : Key → Key → Prop where
  | id : Renamed r .id .id
  | column {n n' : String} (h : r n n') : Renamed r (.column n) (.column n')

/-- A name that a document can give to a field of its own. -/
def isUnreserved (name : String) : Bool := !isReserved name

/-- A name that nothing is reserved for is the key of its column. -/
theorem ofName_of_unreserved {name : String} (h : isUnreserved name = true) :
    ofName name = .column name := by
  refine if_neg ?_
  rintro rfl
  exact absurd h (by decide)

/-- Where a position takes names that are not reserved, and that of the primary key, a renamed name
that it takes is one that it takes again, and its key is renamed. -/
theorem renamed_of_known {accepts : String → Bool}
    (hunreserved : ∀ n, accepts n = true → isUnreserved n = true) {n n' : String}
    (h : NameRenamed r accepts n n') (hn : (n == idName || accepts n) = true) :
    (n' == idName || accepts n') = true ∧ Renamed r (ofName n) (ofName n') := by
  cases h with
  | renamed h haccepts haccepts' =>
    rw [ofName_of_unreserved (hunreserved _ haccepts),
      ofName_of_unreserved (hunreserved _ haccepts'), haccepts', Bool.or_true]
    exact ⟨rfl, .column h⟩
  | kept hkept =>
    obtain rfl : n = idName := by simpa [hkept] using hn
    exact ⟨hn, .id⟩

/-- A renamed field is a field, with a renamed key. -/
theorem renamed_of_isFieldName {n n' : String} (h : NameRenamed r isUnreserved n n')
    (hn : isFieldName n = true) : isFieldName n' = true ∧ Renamed r (ofName n) (ofName n') :=
  renamed_of_known (fun _ h => h) h hn

end Key

theorem Operator.eq_of_renamed {op : Operator} {n : String}
    (h : NameRenamed r Key.isUnreserved op.name n) : n = op.name := by
  cases h with
  | renamed h hop hn => cases op <;> exact absurd hop (by decide)
  | kept hkept => rfl

theorem Connective.eq_of_renamed {c : Connective} {n : String}
    (h : NameRenamed r Key.isUnreserved c.name n) : n = c.name := by
  cases h with
  | renamed h hc hn => cases c <;> exact absurd hc (by decide)
  | kept hkept => rfl

/-! ## Documents -/

/-- Selectors that differ in the names of their fields: the keys of objects, however deep they
stand, where these are not reserved. -/
inductive Value.Renamed (r : String → String → Prop) : Value → Value → Prop where
  | leaf {v : Value} (harray : v.kind ≠ .array) (hobject : v.kind ≠ .object) : Renamed r v v
  | array {items others : List Value} (h : List.Forall₂ (Renamed r) items others) :
      Renamed r (.array items) (.array others)
  | object {entries others : List (String × Value)}
      (names : List.Forall₂ (NameRenamed r Key.isUnreserved) (entries.map (·.1))
        (others.map (·.1)))
      (values : List.Forall₂ (Renamed r) (entries.map (·.2)) (others.map (·.2))) :
      Renamed r (.object entries) (.object others)

/-- Entries with renamed names and values. -/
def RenamedEntry (r : String → String → Prop) (entry other : String × Value) : Prop :=
  NameRenamed r Key.isUnreserved entry.1 other.1 ∧ entry.2.Renamed r other.2

namespace Value

/-- A document that holds no others has nothing to rename. -/
theorem Renamed.eq_of_leaf {v w : Value} (h : v.Renamed r w) (harray : v.kind ≠ .array)
    (hobject : v.kind ≠ .object) : w = v := by
  cases h with
  | leaf => rfl
  | array h => exact absurd rfl harray
  | object names values => exact absurd rfl hobject

theorem Renamed.eq_of_isScalar {v w : Value} (h : v.Renamed r w) (hv : v.isScalar = true) :
    w = v :=
  h.eq_of_leaf (kind_of_isScalar hv).1 (kind_of_isScalar hv).2

/-- Renaming goes through the entries of a document one by one. -/
theorem renamed_object_iff {entries : List (String × Value)} {w : Value} :
    (Value.object entries).Renamed r w ↔
      ∃ others, w = .object others ∧ List.Forall₂ (RenamedEntry r) entries others := by
  constructor
  · intro h
    cases h with
    | leaf harray hobject => exact absurd rfl hobject
    | object names values => exact ⟨_, rfl, forall₂_of_maps names values⟩
  · rintro ⟨others, rfl, h⟩
    exact .object (List.rel_map (fun _ _ hentry => hentry.1) h)
      (List.rel_map (fun _ _ hentry => hentry.2) h)

theorem renamed_array_iff {items : List Value} {w : Value} :
    (Value.array items).Renamed r w ↔
      ∃ others, w = .array others ∧ List.Forall₂ (Renamed r) items others := by
  constructor
  · intro h
    cases h with
    | leaf harray hobject => exact absurd rfl harray
    | array h => exact ⟨_, rfl, h⟩
  · rintro ⟨others, rfl, h⟩
    exact .array h

end Value

/-! ## Operands -/

/-- An operator that takes a single value takes no array and no object. -/
theorem Operator.kind_of_parameter {op : Operator} {v : Value} {p : Parameter}
    (h : op.parameter v = .ok p) : v.kind ≠ .array ∧ v.kind ≠ .object := by
  obtain ⟨-, hp⟩ := parameter_eq_ok.1 h
  cases v with
  | array items => cases hp
  | object entries => cases hp
  | _ => exact ⟨by simp [Value.kind], by simp [Value.kind]⟩

/-- An accepted member of a set has no name of a column in it. -/
theorem Element.eq_of_renamed {op : Operator} {item other : Value} {element : Element}
    (hread : ofValue op item = .ok element) (h : item.Renamed r other) : other = item := by
  rcases ofValue_eq_ok.1 hread with ⟨_, hscalar, -, -⟩ | ⟨inner, operand, p, rfl, -, hp, -⟩
  · exact h.eq_of_isScalar hscalar
  · obtain ⟨others, rfl, hentries⟩ := Value.renamed_object_iff.1 h
    obtain ⟨other, rest, hentry, hnone, rfl⟩ := List.forall₂_cons_left_iff.1 hentries
    cases hnone
    obtain ⟨name, value⟩ := other
    obtain ⟨hname, hvalue⟩ := hentry
    have hkind := Operator.kind_of_parameter hp
    have hsame := hvalue.eq_of_leaf hkind.1 hkind.2
    have hinner := Operator.eq_of_renamed hname
    simp only at hsame hinner
    rw [hsame, hinner]

/-- There are no fields in what a comparison compares with. -/
theorem Operand.eq_of_renamed {op : Operator} {v w : Value} {operand : Operand}
    (hread : ofValue op v = .ok operand) (h : v.Renamed r w) : w = v := by
  rcases ofValue_eq_ok.1 hread with ⟨items, elements, -, rfl, -, helements, -⟩ | ⟨p, -, hp, -⟩
  · obtain ⟨others, rfl, hothers⟩ := Value.renamed_array_iff.1 h
    congr 1
    clear hread h
    induction helements generalizing others with
    | nil => exact List.forall₂_nil_left_iff.1 hothers
    | cons hfirst _ ih =>
      obtain ⟨other, rest, hitem, hrest, rfl⟩ := List.forall₂_cons_left_iff.1 hothers
      rw [Element.eq_of_renamed hfirst hitem, ih rest hrest]
  · have hkind := Operator.kind_of_parameter hp
    exact h.eq_of_leaf hkind.1 hkind.2

theorem Operand.alike_refl (operand : Operand) : operand.Alike Eq operand := by
  cases operand with
  | value p => exact .value rfl
  | values elements =>
    refine .values (List.forall₂_same.2 fun element _ => ?_)
    cases element with
    | literal p => exact .literal rfl
    | predicate op p => exact .predicate rfl

namespace Selection

/-- Selections of the same form about renamed columns. -/
abbrev Renamed (r : String → String → Prop) : Selection → Selection → Prop :=
  Rel (Comparison.Rel (Key.Renamed r) Eq)

/-- A comparison with the same operand about a renamed key. -/
theorem renamed_comparing {op : Operator} {key key' : Key} (hkey : key.Renamed r key') {v w : Value}
    {c : Comparison} (h : Comparison.ofValue op key v = .ok c) (hvalue : v.Renamed r w) :
    ∃ c', Comparison.ofValue op key' w = .ok c' ∧ (comparing c).Renamed r (comparing c') := by
  obtain ⟨operand, hoperand, rfl⟩ := Comparison.ofValue_eq_ok.1 h
  rw [Operand.eq_of_renamed hoperand hvalue]
  refine ⟨_, Comparison.ofValue_eq_ok.2 ⟨operand, hoperand, rfl⟩, ?_⟩
  exact .matching (.comparison ⟨rfl, hkey, operand.alike_refl⟩)

/-- How a selector carries over under a renamed field, and how an entry does. -/
theorem renamed_inductive :
    Inductive
      (fun field v sel => ∀ field' w, Option.Rel (Key.Renamed r) field field' → v.Renamed r w →
        ∃ sel', ofSelector field' w = .ok sel' ∧ sel.Renamed r sel')
      (fun field entry sel => ∀ field' other, Option.Rel (Key.Renamed r) field field' →
        RenamedEntry r entry other →
        ∃ sel', ofEntry field' other = .ok sel' ∧ sel.Renamed r sel') where
  null field := by
    intro field' w hfield h
    rw [h.eq_of_leaf (by simp [Value.kind]) (by simp [Value.kind])]
    exact ⟨_, rfl, .everything⟩
  array field items c hc := by
    intro field' w hfield h
    obtain ⟨c', hc', hrel⟩ := renamed_comparing .id hc h
    obtain ⟨others, rfl, -⟩ := Value.renamed_array_iff.1 h
    exact ⟨_, map_eq_ok.2 ⟨c', hc', rfl⟩, hrel⟩
  scalar field v c hv hc := by
    intro field' w hfield h
    obtain ⟨c', hc', hrel⟩ := renamed_comparing .id hc h
    rw [h.eq_of_isScalar hv] at hc' ⊢
    rw [ofSelector_scalar field' hv]
    exact ⟨_, map_eq_ok.2 ⟨c', hc', rfl⟩, hrel⟩
  object field entries parts hparts := by
    intro field' w hfield h
    obtain ⟨others, rfl, hothers⟩ := Value.renamed_object_iff.1 h
    have hentries := hparts.imp fun _ _ hentry other => hentry field' other hfield
    obtain ⟨parts', hread, hrel⟩ := exists_mapM_of_forall₂ hentries hothers
    rw [ofSelector_object, ofEntries_eq_mapM]
    exact ⟨_, map_eq_ok.2 ⟨parts', hread, rfl⟩, rel_joined hrel⟩
  operator key op v c hc := by
    rintro _ ⟨name, w⟩ hfield ⟨hname, hvalue⟩
    cases hfield with
    | some hkey =>
    obtain ⟨c', hc', hrel⟩ := renamed_comparing hkey hc hvalue
    obtain rfl : name = op.name := Operator.eq_of_renamed hname
    rw [ofEntry_pair, EntryName.ofName_operator]
    exact ⟨_, map_eq_ok.2 ⟨c', hc', rfl⟩, hrel⟩
  connective field c items parts hitems hparts := by
    rintro field' ⟨name, w⟩ hfield ⟨hname, hvalue⟩
    obtain rfl : name = c.name := Connective.eq_of_renamed hname
    obtain ⟨others, rfl, hothers⟩ := Value.renamed_array_iff.1 hvalue
    have hread := hparts.imp fun _ _ hitem other => hitem field' other hfield
    obtain ⟨parts', hparts', hrel⟩ := exists_mapM_of_forall₂ hread hothers
    have hne : others ≠ [] := by
      rintro rfl
      exact hitems (List.forall₂_nil_right_iff.1 hothers)
    rw [ofEntry_connective field' c hne]
    exact ⟨_, map_eq_ok.2 ⟨parts', hparts', rfl⟩, rel_join c hrel⟩
  narrowed field name entries sel hfieldName hsel := by
    rintro field' ⟨name', w⟩ hfield ⟨hname, hvalue⟩
    obtain ⟨hname', hkey⟩ := Key.renamed_of_isFieldName hname hfieldName
    obtain ⟨others, rfl, -⟩ := Value.renamed_object_iff.1 hvalue
    rw [ofEntry_pair, EntryName.ofName_field hname']
    exact hsel _ _ (.some hkey) hvalue
  equal field name v c hfieldName hv hc := by
    rintro field' ⟨name', w⟩ hfield ⟨hname, hvalue⟩
    obtain ⟨hname', hkey⟩ := Key.renamed_of_isFieldName hname hfieldName
    obtain ⟨c', hc', hrel⟩ := renamed_comparing hkey hc hvalue
    obtain ⟨operand, hoperand, -⟩ := Comparison.ofValue_eq_ok.1 hc
    obtain rfl : w = v := Operand.eq_of_renamed hoperand hvalue
    rw [ofEntry_equal field' hname' hv]
    exact ⟨_, map_eq_ok.2 ⟨c', hc', rfl⟩, hrel⟩

/-- A renamed selector is read as the same tree about the renamed columns. -/
theorem carries_ofValue {v w : Value} (h : v.Renamed r w) :
    Carries (Renamed r) (ofValue v) (ofValue w) := fun sel hsel =>
  ofSelector_induction renamed_inductive none v sel hsel none w .none h

end Selection

end DocumentQuery
