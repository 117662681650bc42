import DocumentQuery.Proofs.Selection.Induction

/-!
# Explicit selectors

A selector says in several ways the same: a plain value stands for a comparison of the primary
key, several entries for a conjunction, a value under a field for equality with it. The explicit
form spells all of it out and has one entry in each object. It is a normal form, and it is read as
the selector is, with the same tree or the same fault, under every field.
-/

namespace DocumentQuery
set_option autoImplicit false

namespace Value

/-! ## The explicit form -/

/-- An object of its entries: with several of them, the conjunction of an object for each. -/
def conjoined : List (String × Value) → Value
  | [] => .object []
  | [entry] => .object [entry]
  | entries => .object [("$and", .array (entries.map fun entry => .object [entry]))]

mutual

/-- The explicit form of a selector. -/
def explicit : Value → Value
  | .null => .object []
  | .array items => .object [("$id", .object [("$in", .array items)])]
  | .object entries => conjoined (explicitEntries entries)
  | scalar => .object [("$id", .object [("$eq", scalar)])]

def explicitEntries : List (String × Value) → List (String × Value)
  | [] => []
  | (name, v) :: rest => (name, explicitEntry name v) :: explicitEntries rest

/-- The value of an entry of the explicit form: the items of a connective and the object of a field
are selectors, any other value of a field is compared for equality, and the rest stays. -/
def explicitEntry (name : String) : Value → Value
  | .array items =>
    if name = "$and" ∨ name = "$or" then .array (explicitItems items)
    else if Key.isFieldName name then .object [("$eq", .array items)]
    else .array items
  | .object entries =>
    if Key.isFieldName name then conjoined (explicitEntries entries) else .object entries
  | plain => if Key.isFieldName name then .object [("$eq", plain)] else plain

def explicitItems : List Value → List Value
  | [] => []
  | item :: rest => explicit item :: explicitItems rest

end

theorem explicitItems_eq_map (items : List Value) : explicitItems items = items.map explicit := by
  induction items with
  | nil => rfl
  | cons item rest ih => rw [explicitItems, ih, List.map_cons]

/-! ### Entries by their names -/

/-- The members of a connective are spelled out one by one. -/
theorem explicitEntry_connective (c : Connective) (items : List Value) :
    explicitEntry c.name (.array items) = .array (items.map explicit) := by
  cases c <;> simp [explicitEntry, Connective.name, explicitItems_eq_map]

/-- A document under a field is spelled out like one outside of it. -/
theorem explicitEntry_object {name : String} (h : Key.isFieldName name = true)
    (entries : List (String × Value)) :
    explicitEntry name (.object entries) = explicit (.object entries) := by
  simp [explicitEntry, explicit, h]

/-- A value under a field is an equality with it. -/
theorem explicitEntry_equal {name : String} (h : Key.isFieldName name = true) {v : Value}
    (hv : v.kind ≠ .object) : explicitEntry name v = .object [("$eq", v)] := by
  have hand : name ≠ "$and" := by
    rintro rfl
    exact absurd h (by decide)
  have hor : name ≠ "$or" := by
    rintro rfl
    exact absurd h (by decide)
  cases v with
  | object entries => exact absurd rfl hv
  | _ => simp [explicitEntry, h, hand, hor]

/-- Under a name that is not that of a field, only the array of a connective is rewritten. -/
theorem explicitEntry_kept {name : String} (h : Key.isFieldName name = false) {v : Value}
    (hv : ∀ c : Connective, name = c.name → v.kind ≠ .array) : explicitEntry name v = v := by
  cases v with
  | array items =>
    have hname : ¬(name = "$and" ∨ name = "$or") := by
      rintro (rfl | rfl)
      · exact hv .and rfl rfl
      · exact hv .or rfl rfl
    simp [explicitEntry, h, hname]
  | _ => simp [explicitEntry, h]

theorem conjoined_eq_object (entries : List (String × Value)) :
    ∃ others, conjoined entries = .object others := by
  rcases entries with _ | ⟨entry, _ | ⟨second, rest⟩⟩ <;> exact ⟨_, rfl⟩

/-! ## A normal form -/

mutual

/-- A selector that says nothing in a way that has another spelling. -/
inductive Explicit : Value → Prop where
  | everything : Explicit (.object [])
  | entry {name : String} {v : Value} (h : ExplicitEntry name v) : Explicit (.object [(name, v)])

inductive ExplicitEntry : String → Value → Prop where
  | connective (c : Connective) {items : List Value} (each : ∀ item ∈ items, Explicit item) :
      ExplicitEntry c.name (.array items)
  | field {name : String} {entries : List (String × Value)} (named : Key.isFieldName name = true)
      (object : Explicit (.object entries)) : ExplicitEntry name (.object entries)
  | kept {name : String} {v : Value} (unnamed : Key.isFieldName name = false)
      (unjoined : ∀ c : Connective, name = c.name → v.kind ≠ .array) : ExplicitEntry name v

end

theorem explicitEntry_operator (op : Operator) (v : Value) : ExplicitEntry op.name v := by
  refine .kept op.isFieldName_name fun c hc => ?_
  cases op <;> cases c <;> exact absurd hc (by decide)

/-- Joining entries that are spelled out gives a document that is. -/
theorem Explicit.conjoined {entries : List (String × Value)}
    (h : ∀ entry ∈ entries, ExplicitEntry entry.1 entry.2) : Explicit (conjoined entries) := by
  rcases entries with _ | ⟨entry, _ | ⟨second, rest⟩⟩
  · exact .everything
  · exact .entry (h entry (by simp))
  · refine .entry (.connective .and fun item hitem => ?_)
    obtain ⟨entry, hentry, rfl⟩ := List.mem_map.1 hitem
    exact .entry (h entry hentry)

/-- The comparison of a field, spelled out. -/
theorem Explicit.compared {name : String} (h : Key.isFieldName name = true) (op : Operator)
    (v : Value) : Explicit (.object [(name, .object [(op.name, v)])]) :=
  .entry (.field h (.entry (explicitEntry_operator op v)))

/-- Entries without selectors in their value. -/
theorem explicitEntry_leaf {name : String} {v : Value} (hobject : v.kind ≠ .object)
    (hjoined : ∀ c : Connective, name = c.name → v.kind ≠ .array) :
    ExplicitEntry name (explicitEntry name v) := by
  cases hfield : Key.isFieldName name with
  | true =>
    rw [explicitEntry_equal hfield hobject]
    exact .field hfield (.entry (explicitEntry_operator .eq v))
  | false =>
    rw [explicitEntry_kept hfield hjoined]
    exact .kept hfield hjoined

mutual

/-- The explicit form is explicit: the recursion is that of the form. -/
theorem explicit_isExplicit (v : Value) : Explicit v.explicit := by
  match v with
  | .null => exact .everything
  | .array items => exact .compared (by decide) .oneOf (.array items)
  | .object entries =>
    rw [explicit]
    exact .conjoined (explicitEntries_isExplicit entries)
  | .bool _ | .int _ | .float _ | .text _ | .date _ | .binary _ =>
    exact .compared (by decide) .eq _

/-- Spelled out entry by entry, a document's entries have no other spelling. -/
theorem explicitEntries_isExplicit (entries : List (String × Value)) :
    ∀ entry ∈ explicitEntries entries, ExplicitEntry entry.1 entry.2 := by
  match entries with
  | [] => simp [explicitEntries]
  | (name, v) :: rest =>
    rw [explicitEntries, List.forall_mem_cons]
    exact ⟨explicitEntry_isExplicit name v, explicitEntries_isExplicit rest⟩

/-- A spelled-out entry has no other spelling, under any name. -/
theorem explicitEntry_isExplicit (name : String) (v : Value) :
    ExplicitEntry name (explicitEntry name v) := by
  match v with
  | .array items =>
    by_cases hname : ∃ c : Connective, name = c.name
    · obtain ⟨c, rfl⟩ := hname
      rw [explicitEntry_connective]
      exact .connective c (explicitItems_isExplicit items)
    · exact explicitEntry_leaf (by simp [kind]) fun c hc => absurd ⟨c, hc⟩ hname
  | .object entries =>
    cases hfield : Key.isFieldName name with
    | true =>
      have hobject := explicit_isExplicit (.object entries)
      rw [explicitEntry_object hfield]
      obtain ⟨others, hothers⟩ := conjoined_eq_object (explicitEntries entries)
      rw [explicit, hothers] at hobject ⊢
      exact .field hfield hobject
    | false =>
      rw [explicitEntry_kept hfield fun _ _ => by simp [kind]]
      exact .kept hfield fun _ _ => by simp [kind]
  | .null | .bool _ | .int _ | .float _ | .text _ | .date _ | .binary _ =>
    exact explicitEntry_leaf (by simp [kind]) fun _ _ => by simp [kind]

theorem explicitItems_isExplicit (items : List Value) :
    ∀ item ∈ items.map explicit, Explicit item := by
  match items with
  | [] => simp
  | item :: rest =>
    rw [List.map_cons, List.forall_mem_cons]
    exact ⟨explicit_isExplicit item, explicitItems_isExplicit rest⟩

end

mutual

/-- An explicit selector is its own explicit form. -/
theorem Explicit.explicit_eq {v : Value} (h : Explicit v) : v.explicit = v := by
  match h with
  | .everything => rfl
  | .entry hentry => rw [explicit, explicitEntries, hentry.explicitEntry_eq]; rfl

/-- Spelling an entry out again changes nothing. -/
theorem ExplicitEntry.explicitEntry_eq {name : String} {v : Value} (h : ExplicitEntry name v) :
    explicitEntry name v = v := by
  match h with
  | .connective c each =>
    have hitems := List.map_congr_left fun item hitem => (each item hitem).explicit_eq
    rw [explicitEntry_connective, hitems, List.map_id']
  | .field named inner => rw [explicitEntry_object named, inner.explicit_eq]
  | .kept unnamed unjoined => exact explicitEntry_kept unnamed unjoined

end

/-! ## Selectors inside selectors -/

/-- Where a selector has selectors: itself, the items of its connectives and the objects of its
fields, and all that these have. -/
inductive Subselector : Value → Value → Prop where
  | self {v : Value} : Subselector v v
  | item {entries : List (String × Value)} {c : Connective} {items : List Value} {item w : Value}
      (entry : (c.name, .array items) ∈ entries) (mem : item ∈ items) (h : Subselector item w) :
      Subselector (.object entries) w
  | field {entries inner : List (String × Value)} {name : String} {w : Value}
      (named : Key.isFieldName name = true) (entry : (name, .object inner) ∈ entries)
      (h : Subselector (.object inner) w) : Subselector (.object entries) w

/-- The entries of a document without other spellings have none either. -/
theorem ExplicitEntry.of_mem {entries : List (String × Value)} (h : Explicit (.object entries))
    {entry : String × Value} (hentry : entry ∈ entries) : ExplicitEntry entry.1 entry.2 := by
  cases h with
  | everything => cases hentry
  | entry h =>
    obtain rfl := List.mem_singleton.1 hentry
    exact h

/-- All selectors inside an explicit one are explicit. -/
theorem Explicit.subselector {v w : Value} (hw : v.Subselector w) (h : Explicit v) :
    Explicit w := by
  induction hw with
  | self => exact h
  | @item entries c items item w hentry hitem _ ih =>
    refine ih ?_
    have hjoined := ExplicitEntry.of_mem h hentry
    generalize hname : c.name = name at hjoined
    cases hjoined with
    | connective c' each => exact each item hitem
    | kept unnamed unjoined => exact absurd rfl (unjoined c hname.symm)
  | field named hentry _ ih =>
    refine ih ?_
    cases ExplicitEntry.of_mem h hentry with
    | field _ inner => exact inner
    | kept unnamed _ =>
      rw [named] at unnamed
      cases unnamed

/-- A document without other spellings has at most one entry. -/
theorem Explicit.length_le_one {entries : List (String × Value)} (h : Explicit (.object entries)) :
    entries.length ≤ 1 := by
  cases h with
  | everything => exact Nat.zero_le 1
  | entry h => exact Nat.le_refl 1

end Value

/-! ## Reading the explicit form -/

namespace Selection

theorem joined_of_several {parts : List Selection} (h : 2 ≤ parts.length) :
    joined parts = conjunction parts := by
  rcases parts with _ | ⟨only, _ | ⟨second, rest⟩⟩
  · rfl
  · simp at h
  · rfl

/-- Several entries are read as the conjunction of an object for each. -/
theorem ofSelector_conjoined (field : Option Key) (entries : List (String × Value)) :
    ofSelector field (Value.conjoined entries) = ofSelector field (.object entries) := by
  rcases entries with _ | ⟨entry, _ | ⟨second, rest⟩⟩
  · rfl
  · rfl
  have hsingle : (ofSelector field ∘ fun entry => .object [entry]) = ofEntry field :=
    funext fun entry => ofSelector_single field entry.1 entry.2
  have hitems : ((entry :: second :: rest).map fun entry => Value.object [entry]).mapM
      (ofSelector field) = ofEntries field (entry :: second :: rest) := by
    rw [List.mapM_map, hsingle, ofEntries_eq_mapM]
  have hand : ofSelector field (Value.conjoined (entry :: second :: rest))
      = (ofEntries field (entry :: second :: rest)).map conjunction := by
    rw [← hitems]
    change ofSelector field (.object [(Connective.and.name, _)]) = _
    rw [ofSelector_single, ofEntry_connective field .and (by simp)]
    rfl
  rw [hand, ofSelector_object]
  cases hparts : ofEntries field (entry :: second :: rest) with
  | error e => rfl
  | ok parts =>
    rw [ofEntries_eq_mapM] at hparts
    have hlength := (mapM_eq_ok.1 hparts).length_eq
    exact congrArg Except.ok (joined_of_several (by simp [← hlength])).symm

/-- Entries without selectors in their value. -/
theorem ofEntry_explicit_leaf (field : Option Key) {name : String} {v : Value}
    (hobject : v.kind ≠ .object) (hjoined : ∀ c : Connective, name = c.name → v.kind ≠ .array) :
    ofEntry field (name, Value.explicitEntry name v) = ofEntry field (name, v) := by
  cases hfield : Key.isFieldName name with
  | true =>
    have hcompared := ofSelector_compared field hfield .eq v
    rw [ofSelector_single] at hcompared
    rw [Value.explicitEntry_equal hfield hobject, ofEntry_equal field hfield hobject]
    exact hcompared
  | false => rw [Value.explicitEntry_kept hfield hjoined]

mutual

/-- Under every field the explicit form is read as the selector is, to the same tree or to the same
fault. -/
theorem ofSelector_explicit (field : Option Key) (v : Value) :
    ofSelector field v.explicit = ofSelector field v := by
  match v with
  | .null => rfl
  | .array items => exact ofSelector_compared field (by decide) .oneOf (.array items)
  | .object entries =>
    rw [Value.explicit, ofSelector_conjoined, ofSelector_object, ofEntries_explicit,
      ofSelector_object]
  | .bool _ | .int _ | .float _ | .text _ | .date _ | .binary _ =>
    exact ofSelector_compared field (by decide) .eq _

/-- Entries are read as before once they are spelled out, with the same first fault. -/
theorem ofEntries_explicit (field : Option Key) (entries : List (String × Value)) :
    ofEntries field (Value.explicitEntries entries) = ofEntries field entries := by
  match entries with
  | [] => rfl
  | (name, v) :: rest =>
    rw [Value.explicitEntries, ofEntries, ofEntries, ofEntry_explicit, ofEntries_explicit]

/-- An entry is read as before once it is spelled out, also where it is refused. -/
theorem ofEntry_explicit (field : Option Key) (name : String) (v : Value) :
    ofEntry field (name, Value.explicitEntry name v) = ofEntry field (name, v) := by
  match v with
  | .array items =>
    by_cases hname : ∃ c : Connective, name = c.name
    · obtain ⟨c, rfl⟩ := hname
      rw [Value.explicitEntry_connective]
      by_cases hitems : items = []
      · rw [hitems]
        rfl
      · rw [ofEntry_connective field c (by simpa using hitems), ofEntry_connective field c hitems,
          ← ofItems_eq_mapM, ofItems_explicit, ofItems_eq_mapM]
    · exact ofEntry_explicit_leaf field (by simp [Value.kind]) fun c hc => absurd ⟨c, hc⟩ hname
  | .object entries =>
    cases hfield : Key.isFieldName name with
    | true =>
      have hread := ofSelector_explicit (some (Key.ofName name)) (.object entries)
      rw [Value.explicitEntry_object hfield]
      obtain ⟨others, hothers⟩ := Value.conjoined_eq_object (Value.explicitEntries entries)
      rw [Value.explicit, hothers] at hread ⊢
      rw [ofEntry_pair, ofEntry_pair, EntryName.ofName_field hfield]
      exact hread
    | false => rw [Value.explicitEntry_kept hfield fun _ _ => by simp [Value.kind]]
  | .null | .bool _ | .int _ | .float _ | .text _ | .date _ | .binary _ =>
    exact ofEntry_explicit_leaf field (by simp [Value.kind]) fun _ _ => by simp [Value.kind]

theorem ofItems_explicit (field : Option Key) (items : List Value) :
    ofItems field (items.map Value.explicit) = ofItems field items := by
  match items with
  | [] => rfl
  | item :: rest => rw [List.map_cons, ofItems, ofItems, ofSelector_explicit, ofItems_explicit]

end

/-- The explicit form has at most one entry in each object that is a selector, it is its own
explicit form, and it is read as the selector is: as the same selection or with the same fault,
whatever field it stands under. -/
theorem explicit_alike (v : Value) :
    (∀ entries, v.explicit.Subselector (.object entries) → entries.length ≤ 1) ∧
      v.explicit.explicit = v.explicit ∧ ofValue v.explicit = ofValue v ∧
      ∀ field, ofSelector field v.explicit = ofSelector field v := by
  have hexplicit := v.explicit_isExplicit
  refine ⟨fun entries h => ?_, hexplicit.explicit_eq, ofSelector_explicit none v, fun field => ?_⟩
  · exact (hexplicit.subselector h).length_le_one
  · exact ofSelector_explicit field v

/-- Two faults in a field of two operators and behind it. -/
def unspelled : Value :=
  .object [("a", .object [("$gt", .int 1), ("$lt", .null)]), ("$or", .array []), ("b", .text "x")]

/-- Its explicit form joins the entries and the two operators, and is refused with the first fault of
the document. -/
theorem unspelled_alike :
    unspelled.explicit.Subselector (.object [("$lt", .null)]) ∧ [("$lt", Value.null)].length ≤ 1 ∧
      unspelled.explicit = .object [("$and", .array
        [.object [("a", .object [("$and", .array
            [.object [("$gt", .int 1)], .object [("$lt", .null)]])])],
          .object [("$or", .array [])], .object [("b", .object [("$eq", .text "x")])]])] ∧
      ofValue unspelled.explicit = .error (.operand "$lt" Operator.lt.expects .null) := by
  obtain ⟨hkeys, -, hread, -⟩ := explicit_alike unspelled
  have hinner : (Value.object [("$and", .array
      [.object [("$gt", .int 1)], .object [("$lt", .null)]])]).Subselector
      (.object [("$lt", .null)]) :=
    .item (c := .and) (List.mem_singleton.2 rfl) (by simp) .self
  have hmem : unspelled.explicit.Subselector (.object [("$lt", .null)]) :=
    .item (c := .and) (List.mem_singleton.2 rfl) (List.mem_cons_self)
      (.field (by decide) (List.mem_singleton.2 rfl) hinner)
  exact ⟨hmem, hkeys _ hmem, rfl, hread.trans rfl⟩

end Selection

end DocumentQuery
