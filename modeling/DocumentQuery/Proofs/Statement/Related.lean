import DocumentQuery.Proofs.Draft.Related
import DocumentQuery.Statement.Sql

/-!
# Statements side by side

Two statements of the same kind, related clause by clause on tables that are related, are drafted
side by side: the same text, with related names and parameters in the same places. What may be
related is left open. It can be the parameters only, or the names only.
-/

namespace DocumentQuery
set_option autoImplicit false

open Draft

variable {keyed : Key → Key → Prop} {named : String → String → Prop}
  {same : Parameter → Parameter → Prop}

/-! ## Assigned values -/

/-- Related columns in order, with related values. -/
abbrev Assignments.Rel (named : String → String → Prop) (same : Parameter → Parameter → Prop)
    (values others : Assignments) : Prop :=
  List.Forall₂ (fun a b : String × Parameter => named a.1 b.1 ∧ same a.2 b.2) values others

namespace Assignments

variable {values others : Assignments} (h : Rel named same values others)
include h

theorem Rel.columns : List.Forall₂ named (values.map (·.1)) (others.map (·.1)) :=
  List.rel_map (fun _ _ hentry => hentry.1) h

theorem Rel.parameters : List.Forall₂ same (values.map (·.2)) (others.map (·.2)) :=
  List.rel_map (fun _ _ hentry => hentry.2) h

theorem Rel.isEmpty_eq : values.isEmpty = others.isEmpty := by
  cases h <;> rfl

/-- Values are found by the names of their columns, as long as the relation keeps names apart. -/
theorem Rel.rel_get? (hnamed : Relator.BiUnique named) {column column' : String}
    (hcolumn : named column column') :
    Option.Rel same (Entries.get? column values) (Entries.get? column' others) := by
  induction h with
  | nil => exact .none
  | @cons a b _ _ hentry _ ih =>
    have hfound : a.1 = column ↔ b.1 = column' := Relator.rel_eq hnamed hentry.1 hcolumn
    rw [Entries.get?, Entries.get?]
    by_cases heq : a.1 = column
    · rw [if_pos heq, if_pos (hfound.1 heq)]
      exact .some hentry.2
    · rw [if_neg heq, if_neg (mt hfound.2 heq)]
      exact ih

end Assignments

/-! ## Statements -/

/-- Statements of the same kind with related clauses. -/
inductive Statement.Rel (keyed : Key → Key → Prop) (named : String → String → Prop)
    (same : Parameter → Parameter → Prop) (t t' : Table) : Statement → Statement → Prop where
  | select {s s' : Select}
      (hprojection : Agree (Option.Rel (List.Forall₂ named)) (s.projection.columns t)
        (s'.projection.columns t'))
      (hselection : s.selection.Rel (Comparison.Rel keyed same) s'.selection)
      (horder : s.order.Rel keyed s'.order) (hlimit : s.limit = s'.limit)
      (hoffset : s.offset = s'.offset) :
      Rel keyed named same t t' (.select s) (.select s')
  | count {s s' : Count} (hselection : s.selection.Rel (Comparison.Rel keyed same) s'.selection)
      (hlimit : s.limit = s'.limit) (hoffset : s.offset = s'.offset) :
      Rel keyed named same t t' (.count s) (.count s')
  | delete {s s' : Delete} (hselection : s.selection.Rel (Comparison.Rel keyed same) s'.selection)
      (horder : s.order.Rel keyed s'.order) (hlimit : s.limit = s'.limit) :
      Rel keyed named same t t' (.delete s) (.delete s')
  | insert {s s' : Insert} (hvalues : s.values.Rel named same s'.values) :
      Rel keyed named same t t' (.insert s) (.insert s')
  | upsert {s s' : Upsert} (hvalues : s.values.Rel named same s'.values)
      (hupdates : Agree (Assignments.Rel named same) (s.updates t) (s'.updates t'))
      (hselection : Option.Rel (Selection.Rel (Comparison.Rel keyed same)) s.updateSelection
        s'.updateSelection) :
      Rel keyed named same t t' (.upsert s) (.upsert s')

section Drafts

variable {t t' : Table} (htable : t.Rel keyed named t')
include htable

/-- A name that is not one of a column stands in both drafts. -/
theorem related_kept (same : Parameter → Parameter → Prop) {n : String}
    (hn : n ∈ t.keptNames) :
    Related (Piece.Rel named same) Eq (name n) (name n) :=
  related_name (htable.kept n hn)

theorem related_tableName (same : Parameter → Parameter → Prop) :
    Related (Piece.Rel named same) Eq (name t.name) (name t'.name) :=
  htable.name ▸ related_kept htable same (by simp [Table.keptNames])

/-- Selections with related clauses have related drafts. -/
theorem Select.related_draft (hsame : Parameter.SameKind same) (d : Dialect) {s s' : Select}
    (hprojection : Agree (Option.Rel (List.Forall₂ named)) (s.projection.columns t)
      (s'.projection.columns t'))
    (hselection : s.selection.Rel (Comparison.Rel keyed same) s'.selection)
    (horder : s.order.Rel keyed s'.order) (hlimit : s.limit = s'.limit)
    (hoffset : s.offset = s'.offset) :
    Related (Piece.Rel named same) Eq (s.draft d t) (s'.draft d t') := by
  have hrows := related_rows htable hsame d hselection horder s.limit s.offset
  unfold draft
  rw [← hlimit, ← hoffset]
  refine related_raw_bind .raw _ (related_seq (related_projected hprojection) ?_)
  exact related_raw_bind .raw _ hrows

theorem Count.related_draft (hsame : Parameter.SameKind same) (d : Dialect) {s s' : Count}
    (hselection : s.selection.Rel (Comparison.Rel keyed same) s'.selection)
    (hlimit : s.limit = s'.limit) (hoffset : s.offset = s'.offset) :
    Related (Piece.Rel named same) Eq (s.draft d t) (s'.draft d t') := by
  have hrows := related_rows htable hsame d hselection .unspecified s.limit s.offset
  have hcount := related_kept htable same (n := "count") (by simp [Table.keptNames])
  have hbounded := related_kept htable same (n := "bounded") (by simp [Table.keptNames])
  unfold draft
  rw [← hlimit, ← hoffset]
  refine related_raw_bind .raw _ (related_seq hcount (related_raw_bind .raw _ ?_))
  split
  · exact hrows
  · exact related_raw_bind .raw _ (related_seq hrows (related_raw_bind .raw _ hbounded))

/-- Deletions with related clauses have related drafts, in the form of either dialect. -/
theorem Delete.related_draft (hsame : Parameter.SameKind same) (d : Dialect) {s s' : Delete}
    (hselection : s.selection.Rel (Comparison.Rel keyed same) s'.selection)
    (horder : s.order.Rel keyed s'.order) (hlimit : s.limit = s'.limit) :
    Related (Piece.Rel named same) Eq (s.draft d t) (s'.draft d t') := by
  have hrows : ∀ (d : Dialect) {order order' : SortOrder}, order.Rel keyed order' →
      Related (Piece.Rel named same) Eq (rows d t s.selection order s.limit ⟨none⟩)
        (rows d t' s'.selection order' s.limit ⟨none⟩) := fun d _ _ h =>
    related_rows htable hsame d hselection h s.limit ⟨none⟩
  cases d with
  | mysql =>
    simp only [draft, plainDraft, ← hlimit]
    exact related_raw_bind .raw _ (hrows .mysql horder)
  | postgres =>
    simp only [draft, ← hlimit]
    split
    · exact related_raw_bind .raw _ (hrows .postgres .unspecified)
    · have hsubselect : Related (Piece.Rel named same) Eq (s.subselect .postgres t "ctid")
          (s'.subselect .postgres t' "ctid") := by
        unfold subselect
        rw [← hlimit]
        exact related_raw_bind .raw _ (related_raw_bind .raw _
          (related_raw_bind .raw _ (hrows .postgres horder)))
      refine related_raw_bind .raw _ (related_seq (related_tableName htable same) ?_)
      exact related_raw_bind .raw _ (related_seq hsubselect (related_append (.raw ")")))

theorem Insert.related_valuesDraft {values others : Assignments}
    (h : values.Rel named same others) :
    Related (Piece.Rel named same) Eq (valuesDraft t values) (valuesDraft t' others) := by
  refine related_raw_bind .raw _ (related_seq (related_tableName htable same) ?_)
  refine related_raw_bind .raw _ (related_seq (related_names (Assignments.Rel.columns h)) ?_)
  refine related_raw_bind .raw _ (related_seq (related_placeholders h.parameters) ?_)
  exact related_append (.raw ")")

/-- Insertions of related values have related drafts, also where there is no value. -/
theorem Insert.related_draft (d : Dialect) {s s' : Insert}
    (h : s.values.Rel named same s'.values) :
    Related (Piece.Rel named same) Eq (s.draft d t) (s'.draft d t') := by
  simp only [draft, Assignments.Rel.isEmpty_eq h]
  split
  · refine related_raw_bind .raw _ (related_seq (related_tableName htable same) ?_)
    exact related_append (.raw _)
  · exact related_valuesDraft htable h

namespace Upsert

variable {s s' : Upsert} (hvalues : s.values.Rel named same s'.values)
  (hupdates : Agree (Assignments.Rel named same) (s.updates t) (s'.updates t'))
include hvalues hupdates

/-- The upserts of MySQL are related where their values and updates are. -/
theorem related_duplicateKeyDraft :
    Related (Piece.Rel named same) Eq (s.duplicateKeyDraft t) (s'.duplicateKeyDraft t') := by
  refine related_bind (related_lift hupdates) fun updates updates' h => ?_
  refine related_seq (Insert.related_valuesDraft htable hvalues) (related_raw_bind .raw _ ?_)
  refine related_separated_map .raw ", " h fun _ _ hentry => ?_
  refine related_seq (related_name hentry.1) (related_raw_bind .raw _ ?_)
  exact related_seq (related_name hentry.1) (related_append (.raw ")"))

omit hvalues hupdates in
/-- Related upserts find their row by related selections, or both lack one. -/
theorem agree_target (d : Dialect)
    (h : Option.Rel (Selection.Rel (Comparison.Rel keyed same)) s.updateSelection
      s'.updateSelection) :
    Agree (Selection.Rel (Comparison.Rel keyed same)) (s.target d t) (s'.target d t') := by
  unfold target
  rw [htable.name]
  generalize s.updateSelection = selection, s'.updateSelection = selection' at h ⊢
  cases h with
  | none => exact .error _
  | some h =>
    cases h with
    | everything => exact .error _
    | matching h => exact .ok (.matching h)

/-- The upserts of PostgreSQL are related where their values, updates and selections are. -/
theorem related_updateOrInsertDraft (hsame : Parameter.SameKind same)
    (h : Option.Rel (Selection.Rel (Comparison.Rel keyed same)) s.updateSelection
      s'.updateSelection) :
    Related (Piece.Rel named same) Eq (s.updateOrInsertDraft t) (s'.updateOrInsertDraft t') := by
  have hcomparison : ∀ c c' : Comparison, c.Rel keyed same c' →
      Related (Piece.Rel named same) Eq (comparison t c) (comparison t' c') := fun _ _ h =>
    related_comparison hsame h.op (htable.column _ _ h.key) h.operand
  have htableName := related_tableName htable same
  have hupdated := related_kept htable same (n := "updated") (by simp [Table.keptNames])
  have hinserted := related_kept htable same (n := "inserted") (by simp [Table.keptNames])
  refine related_bind (related_lift (agree_target htable .postgres h)) fun _ _ hselection => ?_
  refine related_bind (related_lift hupdates) fun updates updates' hentries => ?_
  refine related_raw_bind .raw _ (related_seq hupdated (related_raw_bind .raw _ ?_))
  refine related_seq htableName (related_raw_bind .raw _ ?_)
  refine related_seq (related_separated_map .raw ", " hentries fun _ _ hentry => ?_) ?_
  · refine related_seq (related_name hentry.1) (related_raw_bind .raw _ ?_)
    exact related_append (.placeholder hentry.2)
  refine related_seq (related_restriction hcomparison hselection) (related_raw_bind .raw _ ?_)
  refine related_seq hinserted (related_raw_bind .raw _ (related_seq htableName ?_))
  refine related_raw_bind .raw _ (related_seq (related_names (Assignments.Rel.columns hvalues)) ?_)
  refine related_raw_bind .raw _ (related_seq (related_placeholders hvalues.parameters) ?_)
  refine related_raw_bind .raw _ (related_seq hupdated (related_raw_bind .raw _ ?_))
  exact related_seq hupdated (related_raw_bind .raw _ hinserted)

/-- Related upserts have related drafts in either dialect. -/
theorem related_draft (hsame : Parameter.SameKind same) (d : Dialect)
    (h : Option.Rel (Selection.Rel (Comparison.Rel keyed same)) s.updateSelection
      s'.updateSelection) :
    Related (Piece.Rel named same) Eq (s.draft d t) (s'.draft d t') := by
  simp only [draft, Assignments.Rel.isEmpty_eq hvalues, htable.name]
  split
  · exact related_lift (.error _)
  · refine related_bind (related_lift hupdates) fun _ _ _ => ?_
    cases d with
    | mysql => exact related_duplicateKeyDraft htable hvalues hupdates
    | postgres => exact related_updateOrInsertDraft htable hvalues hupdates hsame h

end Upsert

/-- Statements with related clauses on related tables are drafted side by side. -/
theorem Statement.related_draft (hsame : Parameter.SameKind same) (d : Dialect)
    {s s' : Statement} (h : s.Rel keyed named same t t' s') :
    Related (Piece.Rel named same) Eq (s.draft d t) (s'.draft d t') := by
  cases h with
  | select hprojection hselection horder hlimit hoffset =>
    exact Select.related_draft htable hsame d hprojection hselection horder hlimit hoffset
  | count hselection hlimit hoffset =>
    exact Count.related_draft htable hsame d hselection hlimit hoffset
  | delete hselection horder hlimit =>
    exact Delete.related_draft htable hsame d hselection horder hlimit
  | insert hvalues => exact Insert.related_draft htable d hvalues
  | upsert hvalues hupdates hselection =>
    exact Upsert.related_draft htable hvalues hupdates hsame d hselection

end Drafts

end DocumentQuery
