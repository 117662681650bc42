import DocumentQuery.Proofs.Selection.Grammar

/-!
# The first fault of a selector

Where a document fails to be a selector, and why. Every position of a document that offends the
grammar has a path, the positions of the entries and items that lead to it, and one fault. The
lexicographic order of paths is the order of the document, outer positions in front of inner ones,
and a document that is not a selector is refused with the fault of its first offending position.
-/

namespace DocumentQuery
set_option autoImplicit false

/-- The way to a position of a document: an index into the entries or items of every value that
the position stands in. Paths are ordered as the document is written. -/
abbrev Path := List Nat

/-! ## Offending positions -/

namespace Value

/-- A member of the set behind `op` offends by its kind or as a set inside a set, or inside, by
the name or the operand of its comparison. -/
inductive MemberFault (op : Operator) : Value → Path → DocumentError → Prop where
  | kind {v : Value} (scalar : v.isScalar = false) (single : ∀ entry, v ≠ .object [entry]) :
      MemberFault op v []
        (.operand op.name "number, string, boolean, date, buffer or operator object" v.kind)
  | set {inner : Operator} {v : Value} (h : inner.isMembership = true) :
      MemberFault op (.object [(inner.name, v)]) []
        (.operand op.name "number, string, boolean, date, buffer or operator object" .object)
  | unknown {name : String} {v : Value} (h : ∀ inner : Operator, name ≠ inner.name) :
      MemberFault op (.object [(name, v)]) [0] (.unknownOperator name)
  | operand {inner : Operator} {v : Value} (hinner : inner.isMembership = false)
      (h : ¬ inner.Fits v) :
      MemberFault op (.object [(inner.name, v)]) [0] (.operand inner.name inner.expects v.kind)

/-- The operand of `op` offends by its kind or as an empty array, or inside, by a member. -/
inductive OperandFault (op : Operator) : Value → Path → DocumentError → Prop where
  | single {v : Value} (hop : op.isMembership = false) (h : ¬ op.Fits v) :
      OperandFault op v [] (.operand op.name op.expects v.kind)
  | kind {v : Value} (hop : op.isMembership = true) (h : v.kind ≠ .array) :
      OperandFault op v [] (.operand op.name "non-empty array" v.kind)
  | empty (hop : op.isMembership = true) : OperandFault op (.array []) [] (.emptyArray op.name)
  | member {items : List Value} {i : Nat} {item : Value} {path : Path} {e : DocumentError}
      (hop : op.isMembership = true) (mem : items[i]? = some item)
      (h : MemberFault op item path e) : OperandFault op (.array items) (i :: path) e

mutual

/-- A selector under `field` offends as a set of keys, or by an entry. -/
inductive SelectorFault : Option Key → Value → Path → DocumentError → Prop where
  | set {field : Option Key} {items : List Value} {path : Path} {e : DocumentError}
      (h : OperandFault .oneOf (.array items) path e) : SelectorFault field (.array items) path e
  | entry {field : Option Key} {entries : List (String × Value)} {i : Nat} {name : String}
      {v : Value} {path : Path} {e : DocumentError} (mem : entries[i]? = some (name, v))
      (h : EntryFault field name v path e) : SelectorFault field (.object entries) (i :: path) e

/-- An entry under `field` offends by its name, or by what the name makes of its value: an
operand, an array of selectors, or a selector under a field of its own. -/
inductive EntryFault : Option Key → String → Value → Path → DocumentError → Prop where
  | missing {op : Operator} {v : Value} : EntryFault none op.name v [] (.missingField op.name)
  | operand {key : Key} {op : Operator} {v : Value} {path : Path} {e : DocumentError}
      (h : OperandFault op v path e) : EntryFault (some key) op.name v path e
  | kind {field : Option Key} {c : Connective} {v : Value} (h : v.kind ≠ .array) :
      EntryFault field c.name v [] (.operand c.name "non-empty array" v.kind)
  | empty {field : Option Key} {c : Connective} :
      EntryFault field c.name (.array []) [] (.emptyArray c.name)
  | item {field : Option Key} {c : Connective} {items : List Value} {i : Nat} {item : Value}
      {path : Path} {e : DocumentError} (mem : items[i]? = some item)
      (h : SelectorFault field item path e) : EntryFault field c.name (.array items) (i :: path) e
  | unknown {field : Option Key} {name : String} {v : Value}
      (hop : ∀ op : Operator, name ≠ op.name) (hc : ∀ c : Connective, name ≠ c.name)
      (hfield : Key.isFieldName name = false) : EntryFault field name v [] (.unknownOperator name)
  | narrowed {field : Option Key} {name : String} {entries : List (String × Value)} {path : Path}
      {e : DocumentError} (named : Key.isFieldName name = true)
      (h : SelectorFault (some (Key.ofName name)) (.object entries) path e) :
      EntryFault field name (.object entries) path e
  | equal {field : Option Key} {name : String} {v : Value} {path : Path} {e : DocumentError}
      (named : Key.isFieldName name = true) (hv : v.kind ≠ .object)
      (h : OperandFault .eq v path e) : EntryFault field name v path e

end

end Value

/-! ## First faults -/

variable {α β γ : Type} {F G : Path → DocumentError → Prop} {e : DocumentError}

/-- `e` stands at a position in front of all others that offend. -/
def FirstFault (F : Path → DocumentError → Prop) (e : DocumentError) : Prop :=
  ∃ path, F path e ∧ ∀ other e', F other e' → path < other ∨ path = other ∧ e = e'

/-- There is one first fault at most. -/
theorem FirstFault.unique {e' : DocumentError} (h : FirstFault F e) (h' : FirstFault F e') :
    e = e' := by
  obtain ⟨path, hpath, hfirst⟩ := h
  obtain ⟨other, hother, hfirst'⟩ := h'
  rcases hfirst other e' hother with hlt | ⟨-, heq⟩
  · rcases hfirst' path e hpath with hlt' | ⟨-, heq⟩
    · exact absurd hlt' (List.lt_asymm hlt)
    · exact heq.symm
  · exact heq

/-- A reading that ends well where nothing offends, and otherwise with the first fault. -/
def Judged (F : Path → DocumentError → Prop) (result : Except DocumentError α) : Prop :=
  match result with
  | .ok _ => ∀ path e, ¬ F path e
  | .error e => FirstFault F e

/-- A judged reading fails with the first fault and nothing else. -/
theorem Judged.eq_error_iff {result : Except DocumentError α} (h : Judged F result) :
    result = .error e ↔ FirstFault F e := by
  cases result with
  | ok a =>
    refine iff_of_false (by simp) ?_
    rintro ⟨path, hpath, -⟩
    exact h path e hpath
  | error first =>
    rw [Except.error.injEq]
    constructor
    · rintro rfl
      exact h
    · exact h.unique

theorem Judged.map {result : Except DocumentError α} (h : Judged F result) (f : α → β) :
    Judged F (result.map f) := by
  cases result <;> exact h

/-- A judgement depends on the faults only, not on how they are described. -/
theorem Judged.congr {result : Except DocumentError α} (h : Judged F result)
    (heq : ∀ path e, F path e ↔ G path e) : Judged G result := by
  have hsame : F = G := funext fun path => funext fun e => propext (heq path e)
  exact hsame ▸ h

/-- Where one position offends, in one way, its fault is the first. -/
theorem judged_only {path : Path} (h : F path e)
    (only : ∀ other e', F other e' → other = path ∧ e' = e) :
    Judged F (.error e : Except DocumentError α) := by
  refine ⟨path, h, fun other e' hother => .inr ?_⟩
  obtain ⟨rfl, rfl⟩ := only other e' hother
  exact ⟨rfl, rfl⟩

/-! ## Faults in lists -/

/-- The faults in the members of a list, each behind the position of its member. -/
inductive Among (F : α → Path → DocumentError → Prop) (xs : List α) :
    Path → DocumentError → Prop where
  | intro {i : Nat} {x : α} {path : Path} {e : DocumentError} (mem : xs[i]? = some x)
      (h : F x path e) : Among F xs (i :: path) e

section Among

variable {F : α → Path → DocumentError → Prop} {x : α} {xs : List α}

/-- A fault of a list is one of its first member, or one of the others at a position that is one
higher. -/
theorem among_cons {path : Path} {e : DocumentError} :
    Among F (x :: xs) path e ↔
      (∃ p, path = 0 :: p ∧ F x p e) ∨ ∃ i p, path = (i + 1) :: p ∧ Among F xs (i :: p) e := by
  constructor
  · intro h
    cases h with
    | @intro i y p _ mem h =>
      cases i with
      | zero =>
        cases mem
        exact .inl ⟨p, rfl, h⟩
      | succ i => exact .inr ⟨i, p, rfl, .intro mem h⟩
  · rintro (⟨p, rfl, h⟩ | ⟨i, p, rfl, ⟨mem, h⟩⟩)
    · exact .intro rfl h
    · exact .intro (by simpa using mem) h

theorem judged_nil (b : β) : Judged (Among F []) (.ok b) := by
  rintro path e ⟨mem, -⟩
  simp at mem

/-- The first fault of a list is that of its first member, or else that of the rest. -/
theorem judged_cons {first : Except DocumentError β} {rest : Except DocumentError γ}
    {δ : Type} (f : β → γ → δ) (hfirst : Judged (F x) first) (hrest : Judged (Among F xs) rest) :
    Judged (Among F (x :: xs)) (first >>= fun b => rest >>= fun c => .ok (f b c)) := by
  cases first with
  | error e =>
    obtain ⟨path, hpath, hleast⟩ := hfirst
    refine ⟨0 :: path, among_cons.2 (.inl ⟨path, rfl, hpath⟩), fun other e' hother => ?_⟩
    rcases among_cons.1 hother with ⟨p, rfl, hp⟩ | ⟨i, p, rfl, -⟩
    · rcases hleast p e' hp with hlt | ⟨rfl, rfl⟩
      · exact .inl (List.cons_lt_cons_iff.2 (.inr ⟨rfl, hlt⟩))
      · exact .inr ⟨rfl, rfl⟩
    · exact .inl (List.cons_lt_cons_iff.2 (.inl (Nat.succ_pos i)))
  | ok b =>
    cases rest with
    | error e =>
      obtain ⟨_, hpath, hleast⟩ := hrest
      cases hpath with | @intro i y p _ mem hp =>
      refine ⟨(i + 1) :: p, among_cons.2 (.inr ⟨i, p, rfl, .intro mem hp⟩),
        fun other e' hother => ?_⟩
      rcases among_cons.1 hother with ⟨q, rfl, hq⟩ | ⟨j, q, rfl, hq⟩
      · exact absurd hq (hfirst q e')
      · rcases hleast _ _ hq with hlt | ⟨heq, rfl⟩
        · refine .inl (List.cons_lt_cons_iff.2 ?_)
          rcases List.cons_lt_cons_iff.1 hlt with hij | ⟨rfl, hpq⟩
          · exact .inl (Nat.succ_lt_succ hij)
          · exact .inr ⟨rfl, hpq⟩
        · cases heq
          exact .inr ⟨rfl, rfl⟩
    | ok c =>
      intro path e hfault
      rcases among_cons.1 hfault with ⟨p, rfl, hp⟩ | ⟨i, p, rfl, hp⟩
      · exact hfirst p e hp
      · exact hrest _ _ hp

/-- A list that is read member by member fails with the first fault of its first bad member. -/
theorem judged_mapM {f : α → Except DocumentError β} (h : ∀ x ∈ xs, Judged (F x) (f x)) :
    Judged (Among F xs) (xs.mapM f) := by
  induction xs with
  | nil => exact judged_nil []
  | cons x rest ih =>
    rw [List.mapM_cons]
    exact judged_cons List.cons (h x (by simp))
      (ih fun other hmem => h other (List.mem_cons_of_mem x hmem))

end Among

/-! ## Operands -/

open Value (EntryFault MemberFault OperandFault SelectorFault)

/-- An operator that is no membership refuses exactly the values that it cannot be written with. -/
theorem Operator.judged_parameter {op : Operator} (hop : op.isMembership = false) (v : Value) :
    Judged (OperandFault op v) (op.parameter v) := by
  by_cases hfits : op.Fits v
  · obtain ⟨-, p, hp⟩ := parameter_of_fits hfits
    rw [hp]
    intro path e h
    cases h with
    | single _ h => exact h hfits
    | kind hop' _ | empty hop' | member hop' _ _ => simp [hop] at hop'
  · rw [parameter_of_not_fits hop hfits]
    refine judged_only (.single hop hfits) fun path e h => ?_
    cases h with
    | single _ _ => exact ⟨rfl, rfl⟩
    | kind hop' _ | empty hop' | member hop' _ _ => simp [hop] at hop'

theorem Operator.ofName?_eq_none {name : String} (h : ∀ op : Operator, name ≠ op.name) :
    ofName? name = none :=
  Option.eq_none_iff_forall_ne_some.2 fun op hop => h op (ofName?_eq_some.1 hop)

/-- How an object with one entry offends in a set, by what the name of its entry says. -/
theorem memberFault_cases {op : Operator} {name : String} {operand : Value} {path : Path}
    {e : DocumentError} (h : MemberFault op (.object [(name, operand)]) path e) :
    match Operator.ofName? name with
    | none => path = [0] ∧ e = .unknownOperator name
    | some inner =>
      inner.isMembership = true ∧ path = [] ∧ e = .operand op.name
          "number, string, boolean, date, buffer or operator object" .object ∨
        inner.isMembership = false ∧ ¬ inner.Fits operand ∧ path = [0] ∧
          e = .operand inner.name inner.expects operand.kind := by
  cases h with
  | kind _ single => exact absurd rfl (single _)
  | set hinner =>
    rw [Operator.ofName?_name]
    exact .inl ⟨hinner, rfl, rfl⟩
  | unknown hne =>
    rw [Operator.ofName?_eq_none hne]
    exact ⟨rfl, rfl⟩
  | operand hinner hfits =>
    rw [Operator.ofName?_name]
    exact .inr ⟨hinner, hfits, rfl, rfl⟩

/-- A document with one entry in a set is judged by its operator, then by its operand. -/
theorem Element.judged_single (op : Operator) (name : String) (operand : Value) :
    Judged (MemberFault op (.object [(name, operand)]))
      (ofValue op (.object [(name, operand)])) := by
  have hcases := @memberFault_cases op name operand
  by_cases hname : ∃ inner : Operator, name = inner.name
  · obtain ⟨inner, rfl⟩ := hname
    rw [Operator.ofName?_name] at hcases
    cases hinner : inner.isMembership with
    | true =>
      rw [show ofValue op (.object [(inner.name, operand)]) = .error (.operand op.name
          "number, string, boolean, date, buffer or operator object" .object) by
        simp [ofValue, hinner, Value.kind]]
      refine judged_only (.set hinner) fun path e h => ?_
      rcases hcases h with ⟨-, hfault⟩ | ⟨hother, -⟩
      · exact hfault
      · simp [hinner] at hother
    | false =>
      rw [show ofValue op (.object [(inner.name, operand)])
          = (inner.parameter operand).map (.predicate inner) by simp [ofValue, hinner]]
      have hoperand : ∀ {path e}, MemberFault op (.object [(inner.name, operand)]) path e →
          ¬ inner.Fits operand ∧ path = [0] ∧
            e = .operand inner.name inner.expects operand.kind := by
        intro path e h
        rcases hcases h with ⟨hother, -⟩ | ⟨-, hfault⟩
        · simp [hinner] at hother
        · exact hfault
      by_cases hfits : inner.Fits operand
      · obtain ⟨-, p, hp⟩ := Operator.parameter_of_fits hfits
        rw [hp]
        exact fun path e h => (hoperand h).1 hfits
      · rw [Operator.parameter_of_not_fits hinner hfits]
        exact judged_only (.operand hinner hfits) fun path e h => (hoperand h).2
  · have hne : ∀ inner : Operator, name ≠ inner.name := fun inner h => hname ⟨inner, h⟩
    have hnone := Operator.ofName?_eq_none hne
    rw [hnone] at hcases
    rw [show ofValue op (.object [(name, operand)]) = .error (.unknownOperator name) by
      simp [ofValue, hnone]]
    exact judged_only (.unknown hne) fun path e h => hcases h

/-- A member of a set is accepted exactly where nothing in it offends. -/
theorem Element.judged_ofValue (op : Operator) (item : Value) :
    Judged (MemberFault op item) (ofValue op item) := by
  cases item with
  | null =>
    refine judged_only (.kind rfl (by simp)) fun path e h => ?_
    cases h
    exact ⟨rfl, rfl⟩
  | array items =>
    refine judged_only (.kind rfl (by simp)) fun path e h => ?_
    cases h
    exact ⟨rfl, rfl⟩
  | object entries =>
    rcases entries with _ | ⟨⟨name, operand⟩, _ | ⟨second, rest⟩⟩
    · refine judged_only (.kind rfl (by simp)) fun path e h => ?_
      cases h
      exact ⟨rfl, rfl⟩
    · exact judged_single op name operand
    · refine judged_only (.kind rfl (by simp)) fun path e h => ?_
      cases h
      exact ⟨rfl, rfl⟩
  | _ =>
    intro path e h
    cases h with
    | kind scalar _ => cases scalar

/-- The operand of a membership operator offends by its members, where it has some. -/
theorem operandFault_array_iff {op : Operator} (hop : op.isMembership = true)
    {items : List Value} (hne : items ≠ []) {path : Path} {e : DocumentError} :
    OperandFault op (.array items) path e ↔ Among (MemberFault op) items path e := by
  constructor
  · intro h
    cases h with
    | single hop' _ => simp [hop] at hop'
    | kind _ hkind => exact absurd rfl hkind
    | empty _ => exact absurd rfl hne
    | member _ mem h => exact .intro mem h
  · rintro ⟨mem, h⟩
    exact .member hop mem h

/-- An operand is accepted exactly where nothing in it offends. -/
theorem Operand.judged_ofValue (op : Operator) (v : Value) :
    Judged (OperandFault op v) (ofValue op v) := by
  unfold ofValue
  cases hop : op.isMembership with
  | false => exact (Operator.judged_parameter hop v).map _
  | true =>
    have honly : ∀ {v : Value}, v.kind ≠ .array → Judged (OperandFault op v)
        (.error (.operand op.name "non-empty array" v.kind) : Except DocumentError Operand) := by
      intro v hkind
      refine judged_only (.kind hop hkind) fun path e h => ?_
      cases h with
      | single hop' _ => simp [hop] at hop'
      | kind _ _ => exact ⟨rfl, rfl⟩
      | empty _ | member _ _ _ => exact absurd rfl hkind
    cases v with
    | array items =>
      rcases items with _ | ⟨item, rest⟩
      · refine judged_only (.empty hop) fun path e h => ?_
        cases h with
        | single hop' _ => simp [hop] at hop'
        | kind _ hkind => exact absurd rfl hkind
        | empty _ => exact ⟨rfl, rfl⟩
        | member _ mem _ => simp at mem
      · refine Judged.map (Judged.congr (judged_mapM fun item _ => Element.judged_ofValue op item)
          fun path e => ?_) _
        exact (operandFault_array_iff hop (by simp)).symm
    | _ => exact honly (by simp [Value.kind])

theorem Comparison.judged_ofValue (op : Operator) (key : Key) (v : Value) :
    Judged (OperandFault op v) (ofValue op key v) :=
  (Operand.judged_ofValue op v).map _

/-! ## Selectors -/

/-- A name of none of the kinds of entries. -/
theorem EntryName.ofName_unknown {name : String} (hop : ∀ op : Operator, name ≠ op.name)
    (hc : ∀ c : Connective, name ≠ c.name) (hfield : Key.isFieldName name = false) :
    ofName name = .unknown name := by
  rcases name_cases name with ⟨op, h⟩ | ⟨c, h⟩ | h | h
  · exact absurd h (hop op)
  · exact absurd h (hc c)
  · rw [hfield] at h
    cases h
  · exact h

/-- How an entry offends, by what its name says about its value. -/
theorem entryFault_cases {field : Option Key} {name : String} {v : Value} {path : Path}
    {e : DocumentError} (h : EntryFault field name v path e) :
    match EntryName.ofName name, field with
    | .operator op, none => path = [] ∧ e = .missingField op.name
    | .operator op, some _ => OperandFault op v path e
    | .connective c, _ =>
      v.kind ≠ .array ∧ path = [] ∧ e = .operand c.name "non-empty array" v.kind ∨
        v = .array [] ∧ path = [] ∧ e = .emptyArray c.name ∨
        ∃ items, v = .array items ∧ Among (SelectorFault field) items path e
    | .unknown name, _ => path = [] ∧ e = .unknownOperator name
    | .key key, _ =>
      v.kind = .object ∧ SelectorFault (some key) v path e ∨
        v.kind ≠ .object ∧ OperandFault .eq v path e := by
  cases h with
  | missing =>
    rw [EntryName.ofName_operator]
    exact ⟨rfl, rfl⟩
  | operand h =>
    rw [EntryName.ofName_operator]
    exact h
  | kind hkind =>
    rw [EntryName.ofName_connective]
    exact .inl ⟨hkind, rfl, rfl⟩
  | empty =>
    rw [EntryName.ofName_connective]
    exact .inr (.inl ⟨rfl, rfl, rfl⟩)
  | item mem h =>
    rw [EntryName.ofName_connective]
    exact .inr (.inr ⟨_, rfl, .intro mem h⟩)
  | unknown hop hc hfield =>
    rw [EntryName.ofName_unknown hop hc hfield]
    exact ⟨rfl, rfl⟩
  | narrowed named h =>
    rw [EntryName.ofName_field named]
    exact .inl ⟨rfl, h⟩
  | equal named hv h =>
    rw [EntryName.ofName_field named]
    exact .inr ⟨hv, h⟩

namespace Selection

/-- An operator needs a field in front of it and is then judged by its operand. -/
theorem judged_operator (field : Option Key) (op : Operator) (v : Value) :
    Judged (EntryFault field op.name v) (ofEntry field (op.name, v)) := by
  have hcases := @entryFault_cases field op.name v
  rw [ofEntry_pair]
  rw [EntryName.ofName_operator] at hcases ⊢
  cases field with
  | none => exact judged_only .missing fun path e h => hcases h
  | some key =>
    refine Judged.map (Judged.congr (Comparison.judged_ofValue op key v) fun path e => ?_) _
    exact ⟨.operand, hcases⟩

/-- An entry of a connective is judged by its items, where it has some. -/
theorem judged_connective {field : Option Key} (c : Connective) {v : Value}
    (hitems : ∀ items, v = .array items →
      Judged (Among (SelectorFault field) items) (ofItems field items)) :
    Judged (EntryFault field c.name v) (ofEntry field (c.name, v)) := by
  have hcases := @entryFault_cases field c.name v
  rw [EntryName.ofName_connective] at hcases
  have hkind : v.kind ≠ .array → Judged (EntryFault field c.name v)
      (.error (.operand c.name "non-empty array" v.kind) : Except DocumentError Selection) := by
    intro hkind
    refine judged_only (.kind hkind) fun path e h => ?_
    rcases hcases h with ⟨-, hfault⟩ | ⟨rfl, -⟩ | ⟨items, rfl, -⟩
    · exact hfault
    · exact absurd rfl hkind
    · exact absurd rfl hkind
  rw [ofEntry_pair, EntryName.ofName_connective]
  cases v with
  | array items =>
    rcases items with _ | ⟨item, rest⟩
    · refine judged_only .empty fun path e h => ?_
      rcases hcases h with ⟨harray, -⟩ | ⟨-, hfault⟩ | ⟨items, heq, hamong⟩
      · exact absurd rfl harray
      · exact hfault
      · cases heq
        cases hamong with | intro mem _ => simp at mem
    · refine Judged.map (Judged.congr (hitems _ rfl) fun path e => ⟨?_, fun h => ?_⟩) _
      · rintro ⟨mem, h⟩
        exact .item mem h
      · rcases hcases h with ⟨harray, -⟩ | ⟨heq, -⟩ | ⟨items, heq, hamong⟩
        · exact absurd rfl harray
        · cases heq
        · cases heq
          exact hamong
  | _ => exact hkind (by simp [Value.kind])

/-- An entry of a field is judged by the selector under that field, or as an operand. -/
theorem judged_field {field : Option Key} {name : String} (hfield : Key.isFieldName name = true)
    {v : Value} (hobject : v.kind = .object →
      Judged (SelectorFault (some (Key.ofName name)) v) (ofSelector (some (Key.ofName name)) v)) :
    Judged (EntryFault field name v) (ofEntry field (name, v)) := by
  have hcases := @entryFault_cases field name v
  rw [EntryName.ofName_field hfield] at hcases
  by_cases hv : v.kind = .object
  · have hread : ofEntry field (name, v) = ofSelector (some (Key.ofName name)) v := by
      rw [ofEntry_pair, EntryName.ofName_field hfield]
      cases v with
      | object entries => rfl
      | _ => cases hv
    rw [hread]
    refine Judged.congr (hobject hv) fun path e => ⟨fun h => ?_, fun h => ?_⟩
    · cases v with
      | object entries => exact .narrowed hfield h
      | _ => cases hv
    · rcases hcases h with ⟨-, h⟩ | ⟨hne, -⟩
      · exact h
      · exact absurd hv hne
  · rw [ofEntry_equal field hfield hv]
    refine Judged.map (Judged.congr (Comparison.judged_ofValue .eq _ v) fun path e => ?_) _
    refine ⟨.equal hfield hv, fun h => ?_⟩
    rcases hcases h with ⟨hobject, -⟩ | ⟨-, h⟩
    · exact absurd hobject hv
    · exact h

/-- A name that is neither a field nor known is a fault wherever it stands. -/
theorem judged_unknown (field : Option Key) {name : String}
    (h : EntryName.ofName name = .unknown name) (v : Value) :
    Judged (EntryFault field name v) (ofEntry field (name, v)) := by
  have hcases := @entryFault_cases field name v
  have hne : ∀ known, EntryName.unknown name ≠ known → ∀ other, EntryName.ofName other = known →
      name ≠ other := by
    rintro known hne other hother rfl
    exact hne (h.symm.trans hother)
  have hop : ∀ op : Operator, name ≠ op.name := fun op =>
    hne _ (by simp) _ (EntryName.ofName_operator op)
  have hc : ∀ c : Connective, name ≠ c.name := fun c =>
    hne _ (by simp) _ (EntryName.ofName_connective c)
  have hfield : Key.isFieldName name = false := by
    cases hfield : Key.isFieldName name with
    | false => rfl
    | true => exact absurd rfl (hne _ (by simp) _ (EntryName.ofName_field hfield))
  rw [ofEntry_pair]
  rw [h] at hcases ⊢
  exact judged_only (.unknown hop hc hfield) fun path e h => hcases h

/-- An entry is judged by its name, once the selectors in its value are. -/
theorem judged_entry {field : Option Key} (name : String) {v : Value}
    (hitems : ∀ items, v = .array items →
      Judged (Among (SelectorFault field) items) (ofItems field items))
    (hobject : v.kind = .object →
      ∀ key, Judged (SelectorFault (some key) v) (ofSelector (some key) v)) :
    Judged (EntryFault field name v) (ofEntry field (name, v)) := by
  rcases EntryName.name_cases name with ⟨op, rfl⟩ | ⟨c, rfl⟩ | hfield | hunknown
  · exact judged_operator field op v
  · exact judged_connective c hitems
  · exact judged_field hfield fun hv => hobject hv _
  · exact judged_unknown field hunknown v

mutual

/-- A document under any field is read as a selection where nothing offends, and is refused with
its first fault otherwise. The recursion is that of the reader. -/
theorem judged_ofSelector (field : Option Key) (v : Value) :
    Judged (SelectorFault field v) (ofSelector field v) := by
  match v with
  | .null =>
    intro path e h
    cases h
  | .array items =>
    refine Judged.map (Judged.congr (Comparison.judged_ofValue .oneOf .id (.array items))
      fun path e => ⟨.set, fun h => ?_⟩) _
    cases h with | set h => exact h
  | .object entries =>
    rw [ofSelector_object]
    refine Judged.map (Judged.congr (judged_ofEntries field entries) fun path e => ?_) _
    constructor
    · rintro ⟨mem, h⟩
      exact .entry mem h
    · intro h
      cases h with | entry mem h => exact .intro mem h
  | .bool _ | .int _ | .float _ | .text _ | .date _ | .binary _ =>
    intro path e h
    cases h

/-- Entries fail with the first fault of the first one that has any. -/
theorem judged_ofEntries (field : Option Key) (entries : List (String × Value)) :
    Judged (Among (fun entry => EntryFault field entry.1 entry.2) entries)
      (ofEntries field entries) := by
  match entries with
  | [] => exact judged_nil []
  | entry :: rest =>
    rw [ofEntries]
    exact judged_cons List.cons (judged_ofEntry field entry) (judged_ofEntries field rest)

theorem judged_ofEntry (field : Option Key) (entry : String × Value) :
    Judged (EntryFault field entry.1 entry.2) (ofEntry field entry) := by
  match entry with
  | (name, .array items) =>
    refine judged_entry name (fun _ heq => ?_) (by simp [Value.kind])
    cases heq
    exact judged_ofItems field items
  | (name, .object entries) =>
    exact judged_entry name (by simp) fun _ key => judged_ofSelector (some key) (.object entries)
  | (name, .null) | (name, .bool _) | (name, .int _) | (name, .float _) | (name, .text _)
  | (name, .date _) | (name, .binary _) =>
    exact judged_entry name (by simp) (by simp [Value.kind])

theorem judged_ofItems (field : Option Key) (items : List Value) :
    Judged (Among (SelectorFault field) items) (ofItems field items) := by
  match items with
  | [] => exact judged_nil []
  | item :: rest =>
    rw [ofItems]
    exact judged_cons List.cons (judged_ofSelector field item) (judged_ofItems field rest)

end

/-- A document is accepted as a selector exactly when it derives from the grammar, and is refused
with `e` exactly when `e` is the fault of its first offending position. -/
theorem accepted_or_first_fault :
    (∀ v : Value, (∃ selection, ofValue v = .ok selection) ↔ v.Selector none) ∧
      ∀ (v : Value) (e : DocumentError),
        ofValue v = .error e ↔ FirstFault (SelectorFault none v) e := by
  constructor
  · intro v
    constructor
    · rintro ⟨selection, h⟩
      exact selector_of_ofSelector h
    · exact exists_ofSelector
  · exact fun v e => (judged_ofSelector none v).eq_error_iff

end Selection

end DocumentQuery
