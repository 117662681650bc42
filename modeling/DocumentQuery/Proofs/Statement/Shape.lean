import DocumentQuery.Catalog
import DocumentQuery.Proofs.Statement.Related

/-!
# Values do not reach the text

Two calls whose selectors and values have the same shape, and which agree in everything else, have
the same fault or give the same text; their parameters are of the same kinds in the same order. So
a value that comes from outside can change what a statement binds, but never what it says.
-/

namespace DocumentQuery
set_option autoImplicit false

open Draft

variable {same : Parameter → Parameter → Prop}

/-! ## Assigned values -/

/-- The same columns in order, with values of the same kind. -/
abbrev Assignments.Alike (same : Parameter → Parameter → Prop) : Assignments → Assignments → Prop :=
  Assignments.Rel Eq same

namespace Assignments

/-- Every value that can be bound can be assigned, so no more than its kind is asked for. -/
theorem agree_ofValue (hsame : Parameter.SameKind same) {v w : Value} (h : v.SameShape same w) :
    Agree (Alike same) (ofValue v) (ofValue w) := by
  have hkind := h.kind_eq hsame
  cases h with
  | null => exact .error _
  | array h => exact .error _
  | scalar hv hw hp hq h =>
    have herror : ∀ {v : Value}, v.isScalar = true →
        ofValue v = .error (.argument "object" v.kind) := by
      intro v hv
      cases v with
      | object entries => cases hv
      | _ => rfl
    rw [herror hv, herror hw, hkind]
    exact .error _
  | object keys values =>
    refine Agree.mapM (sameEntry_of_object keys values) ?_
    rintro ⟨name, v⟩ ⟨_, w⟩ ⟨rfl, hvalue⟩
    refine Agree.bind_same _ fun column => ?_
    have hparameter := hvalue.parameter? hsame
    rw [hvalue.kind_eq hsame]
    generalize v.parameter? = p, w.parameter? = q at hparameter ⊢
    cases hparameter with
    | none => exact .error _
    | some hpq => exact .ok ⟨rfl, hpq⟩

end Assignments

/-! ## Statements -/

/-- Statements that differ in nothing but their parameters. -/
inductive Statement.Alike (same : Parameter → Parameter → Prop) : Statement → Statement → Prop where
  | select (s : Select) {selection : Selection} (h : s.selection.Alike same selection) :
      Alike same (.select s) (.select { s with selection })
  | count (s : Count) {selection : Selection} (h : s.selection.Alike same selection) :
      Alike same (.count s) (.count { s with selection })
  | delete (s : Delete) {selection : Selection} (h : s.selection.Alike same selection) :
      Alike same (.delete s) (.delete { s with selection })
  | insert (s : Insert) {values : Assignments} (h : s.values.Alike same values) :
      Alike same (.insert s) (.insert { s with values })
  | upsert {s s' : Upsert} (hcolumns : s.updateColumns = s'.updateColumns)
      (hvalues : s.values.Alike same s'.values)
      (hselection : Option.Rel (Selection.Alike same) s.updateSelection s'.updateSelection) :
      Alike same (.upsert s) (.upsert s')

/-- Options whose selectors and values have the same shape, and which agree in all other fields. -/
structure Document.SameShape (same : Parameter → Parameter → Prop) (options others : Document) :
    Prop where
  equal : ∀ name ∈ ["columns", "order", "limit", "offset", "updateColumns"],
    options.field name = others.field name
  shape : ∀ name ∈ ["selector", "updateSelector", "values"],
    (options.field name).SameShape same (others.field name)

section Options

variable (hsame : Parameter.SameKind same)
include hsame

theorem Upsert.agree_selectionOfValue {v w : Value} (h : v.SameShape same w) :
    Agree (Option.Rel (Selection.Alike same)) (selectionOfValue v) (selectionOfValue w) := by
  unfold selectionOfValue
  rw [Value.isNull_congr (h.kind_eq hsame)]
  split
  · exact .ok .none
  · exact (Selection.agree_ofSelector hsame none v w h).map fun _ _ halike => .some halike

/-- Options of the same shape are refused alike or give statements alike. -/
theorem Statement.agree_ofOptions (m : Method) {options others : Document}
    (h : options.SameShape same others) :
    Agree (Alike same) (ofOptions m options) (ofOptions m others) := by
  have hselector := Selection.agree_ofSelector hsame none _ _ (h.shape "selector" (by decide))
  have hvalues := Assignments.agree_ofValue hsame (h.shape "values" (by decide))
  have horder := h.equal "order" (by decide)
  have hlimit := h.equal "limit" (by decide)
  have hoffset := h.equal "offset" (by decide)
  cases m with
  | select =>
    have hread : Agree (fun s s' : Select => Alike same (.select s) (.select s'))
        (Select.ofOptions options) (Select.ofOptions others) := by
      unfold Select.ofOptions
      rw [h.equal "columns" (by decide), horder, hlimit, hoffset]
      refine Agree.bind_same _ fun projection => hselector.bind fun _ _ hselection => ?_
      refine Agree.bind_same _ fun order => Agree.bind_same _ fun limit => ?_
      exact Agree.bind_same _ fun offset => .ok (.select _ hselection)
    exact hread.map fun _ _ halike => halike
  | count =>
    have hread : Agree (fun s s' : Count => Alike same (.count s) (.count s'))
        (Count.ofOptions options) (Count.ofOptions others) := by
      unfold Count.ofOptions
      rw [hlimit, hoffset]
      refine hselector.bind fun _ _ hselection => Agree.bind_same _ fun limit => ?_
      exact Agree.bind_same _ fun offset => .ok (.count _ hselection)
    exact hread.map fun _ _ halike => halike
  | delete =>
    have hread : Agree (fun s s' : Delete => Alike same (.delete s) (.delete s'))
        (Delete.ofOptions options) (Delete.ofOptions others) := by
      unfold Delete.ofOptions
      rw [horder, hlimit]
      refine hselector.bind fun _ _ hselection => Agree.bind_same _ fun order => ?_
      exact Agree.bind_same _ fun limit => .ok (.delete _ hselection)
    exact hread.map fun _ _ halike => halike
  | insert =>
    have hread : Agree (fun s s' : Insert => Alike same (.insert s) (.insert s'))
        (Insert.ofOptions options) (Insert.ofOptions others) :=
      hvalues.bind fun _ _ halike => .ok (.insert _ halike)
    exact hread.map fun _ _ halike => halike
  | upsert =>
    have hread : Agree (fun s s' : Upsert => Alike same (.upsert s) (.upsert s'))
        (Upsert.ofOptions options) (Upsert.ofOptions others) := by
      have hupdate := Upsert.agree_selectionOfValue hsame (h.shape "updateSelector" (by decide))
      unfold Upsert.ofOptions
      rw [h.equal "updateColumns" (by decide)]
      refine hupdate.bind fun _ _ hselection => hvalues.bind fun _ _ halike => ?_
      exact Agree.bind_same _ fun updateColumns => .ok (.upsert rfl halike hselection)
    exact hread.map fun _ _ halike => halike

end Options

/-! ## Drafts -/

/-- The values of an update are found by the names of their columns. -/
theorem Upsert.agree_updates (t : Table) {s s' : Upsert}
    (hcolumns : s.updateColumns = s'.updateColumns) (hvalues : s.values.Alike same s'.values) :
    Agree (Assignments.Alike same) (s.updates t) (s'.updates t) := by
  have hnames : Relator.BiUnique (Eq : String → String → Prop) :=
    ⟨fun _ _ _ h h' => h.trans h'.symm, fun _ _ _ h h' => h.symm.trans h'⟩
  unfold updates
  rw [hcolumns]
  split
  · exact .ok hvalues
  · exact .error _
  · next columns _ _ =>
    refine Agree.mapM (r := Eq) (List.forall₂_refl columns) ?_
    rintro column _ rfl
    have hfound := Assignments.Rel.rel_get? hvalues hnames (Eq.refl column)
    unfold updateOf
    generalize Entries.get? column s.values = p, Entries.get? column s'.values = q at hfound ⊢
    cases hfound with
    | none => exact .error _
    | some hpq => exact .ok ⟨rfl, hpq⟩

/-- Statements that differ only in their parameters have the same names in all clauses. -/
theorem Statement.Alike.rel (t : Table) {s s' : Statement} (h : Alike same s s') :
    s.Rel Eq Eq same t t s' := by
  cases h with
  | select s h =>
    refine .select ?_ h s.order.rel_refl rfl rfl
    exact (Agree.refl (s.projection.columns t)).imp fun columns _ _ _ hsame => by
      rw [← hsame, List.forall₂_eq_eq_eq]
      cases columns with
      | none => exact .none
      | some columns => exact .some rfl
  | count s h => exact .count h rfl rfl
  | delete s h => exact .delete h s.order.rel_refl rfl
  | insert s h => exact .insert h
  | upsert hcolumns hvalues hselection =>
    exact .upsert hvalues (Upsert.agree_updates t hcolumns hvalues) hselection

/-- Statements alike have the same fault, or the same text and parameters alike. -/
theorem Statement.agree_compile (hsame : Parameter.SameKind same) (d : Dialect) (t : Table)
    {s s' : Statement} (h : Alike same s s') :
    Agree (Query.Alike same) (s.compile d t) (s'.compile d t) :=
  agree_query d (related_draft t.rel_refl hsame d (h.rel t))

namespace Catalog

/-- Calls with options of the same shape have the same fault, or the same text and parameters that
are pairwise of the same kind. -/
theorem query_sameShape (hsame : Parameter.SameKind same) (catalog : Catalog) (m : Method)
    (table : String) {options others : Document} (h : options.SameShape same others) :
    (∃ e, catalog.query m table options = .error e ∧ catalog.query m table others = .error e) ∨
      ∃ q q', catalog.query m table options = .ok q ∧ catalog.query m table others = .ok q' ∧
        q.sql = q'.sql ∧ List.Forall₂ same q.parameters q'.parameters := by
  have hagree : Agree (Query.Alike same) (catalog.query m table options)
      (catalog.query m table others) := by
    have hread := Statement.agree_ofOptions hsame m h
    refine (hread.mapError Failure.document).bind fun s s' halike => ?_
    exact (Statement.agree_compile hsame _ _ halike).mapError Failure.statement
  generalize catalog.query m table options = result,
    catalog.query m table others = result' at hagree ⊢
  cases hagree with
  | error e => exact .inl ⟨e, rfl, rfl⟩
  | ok halike => exact .inr ⟨_, _, rfl, rfl, halike.sql, halike.parameters⟩

/-- The options of an upsert for one user, by a name and an age that the caller supplies. -/
def upsertOptions (name : String) (age : Int64) : Document :=
  [("values", .object [("name", .text name), ("age", .int age), ("note", .null)]),
    ("updateSelector", .object
      [("name", .object [("$nin", .array [.object [("$like", .text name)], .text name])]),
        ("$or", .array [.object [("age", .int age)], .object [("age", .null)]])])]

theorem sameShape_upsertOptions (name name' : String) (age age' : Int64) :
    (upsertOptions name age).SameShape (fun p q => p.kind = q.kind) (upsertOptions name' age') := by
  have htext : Value.SameShape (fun p q => p.kind = q.kind) (.text name) (.text name') :=
    .scalar rfl rfl rfl rfl rfl
  have hint : Value.SameShape (fun p q => p.kind = q.kind) (.int age) (.int age') :=
    .scalar rfl rfl rfl rfl rfl
  have hsingle : ∀ {key : String} {v w : Value}, v.SameShape (fun p q => p.kind = q.kind) w →
      (Value.object [(key, v)]).SameShape (fun p q => p.kind = q.kind) (.object [(key, w)]) :=
    fun h => .object rfl (.cons h .nil)
  constructor
  · simp only [List.forall_mem_cons]
    exact ⟨rfl, rfl, rfl, rfl, rfl, by simp⟩
  · simp only [List.forall_mem_cons]
    refine ⟨.null, ?_, ?_, by simp⟩
    · refine .object rfl (.cons ?_ (.cons ?_ .nil))
      · exact hsingle (.array (.cons (hsingle htext) (.cons htext .nil)))
      · exact .array (.cons (hsingle hint) (.cons (hsingle .null) .nil))
    · exact .object rfl (.cons htext (.cons hint (.cons .null .nil)))

/-- A value with a quote in it reaches no text. -/
theorem injected_sameText :
    ∃ q q', query ⟨.postgres, []⟩ .upsert "users" (upsertOptions "Ann" 41) = .ok q ∧
      query ⟨.postgres, []⟩ .upsert "users" (upsertOptions "' OR 1 = 1" (-1)) = .ok q' ∧
      q.sql = q'.sql ∧ q.parameters ≠ q'.parameters := by
  have hshape := sameShape_upsertOptions "Ann" "' OR 1 = 1" 41 (-1)
  rcases query_sameShape Parameter.sameKind_kind ⟨.postgres, []⟩ .upsert "users" hshape with
    ⟨e, he, -⟩ | ⟨q, q', hq, hq', hsql, -⟩
  · cases he
  · refine ⟨q, q', hq, hq', hsql, ?_⟩
    cases hq
    cases hq'
    decide

end Catalog

end DocumentQuery
