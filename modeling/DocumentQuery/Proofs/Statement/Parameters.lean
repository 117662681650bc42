import DocumentQuery.Proofs.Draft.Parameters

/-!
# Parameters of statements

Which parameters a statement binds: those of its clauses, in the order in which the dialect writes
the clauses.
-/

namespace DocumentQuery
set_option autoImplicit false

open Draft

/-- The row to update is found by the selection of the upsert. -/
theorem Upsert.eq_some_of_target {d : Dialect} {t : Table} {s : Upsert} {selection : Selection}
    (h : s.target d t = .ok selection) : s.updateSelection = some selection := by
  unfold Upsert.target at h
  split at h
  · cases h
  · cases h
  · next hselection =>
    cases h
    exact hselection

namespace Statement

/-- The parameters of a statement's clauses, in the order in which the dialect writes them. The
update of PostgreSQL binds the values twice, around the selection of the row. -/
def parameters (d : Dialect) (t : Table) : Statement → List Parameter
  | .select s => s.selection.parameters
  | .count s => s.selection.parameters
  | .delete s => s.selection.parameters
  | .insert s => s.values.map (·.2)
  | .upsert s =>
    match d, s.updates t with
    | .postgres, .ok updates =>
      updates.map (·.2) ++ (s.updateSelection.getD .everything).parameters ++ s.values.map (·.2)
    | _, _ => s.values.map (·.2)

theorem binds_select (d : Dialect) (t : Table) (s : Select) :
    Binds (s.draft d t) s.selection.parameters :=
  binds_skip (binds_raw _) fun _ _ => binds_skip (binds_projected t _) fun _ _ =>
    binds_skip (binds_raw _) fun _ _ => binds_rows d t _ _ _ _

theorem binds_count (d : Dialect) (t : Table) (s : Count) :
    Binds (s.draft d t) s.selection.parameters := by
  refine binds_skip (binds_raw _) fun _ _ => binds_skip (binds_name _) fun _ _ =>
    binds_skip (binds_raw _) fun _ _ => ?_
  split
  · exact binds_rows d t _ _ _ _
  · refine binds_skip (binds_raw _) fun _ _ => binds_last (binds_rows d t _ _ _ _) ?_
    exact binds_skip (binds_raw _) fun _ _ => binds_name _

/-- A deletion binds the parameters of its selector, in both of its forms. -/
theorem binds_delete (d : Dialect) (t : Table) (s : Delete) :
    Binds (s.draft d t) s.selection.parameters := by
  cases d with
  | mysql => exact binds_skip (binds_raw _) fun _ _ => binds_rows .mysql t _ _ _ _
  | postgres =>
    rw [Delete.draft]
    split
    · exact binds_skip (binds_raw _) fun _ _ => binds_rows .postgres t s.selection _ _ _
    · have hsubselect : Binds (s.subselect .postgres t "ctid") s.selection.parameters :=
        binds_skip (binds_raw _) fun _ _ => binds_skip (binds_raw _) fun _ _ =>
          binds_skip (binds_raw _) fun _ _ => binds_rows .postgres t _ _ _ _
      exact binds_skip (binds_raw _) fun _ _ => binds_skip (binds_name _) fun _ _ =>
        binds_skip (binds_raw _) fun _ _ => binds_last hsubselect (binds_raw _)

theorem binds_values (t : Table) (values : Assignments) :
    Binds (Insert.valuesDraft t values) (values.map (·.2)) :=
  binds_skip (binds_raw _) fun _ _ => binds_skip (binds_name _) fun _ _ =>
    binds_skip (binds_raw _) fun _ _ => binds_skip (binds_names _) fun _ _ =>
      binds_skip (binds_raw _) fun _ _ => binds_last (binds_placeholders _) (binds_raw _)

theorem binds_insert (d : Dialect) (t : Table) (s : Insert) :
    Binds (s.draft d t) (s.values.map (·.2)) := by
  unfold Insert.draft
  split
  · next hnone =>
    rw [List.isEmpty_iff.1 hnone]
    exact binds_skip (binds_raw _) fun _ _ => binds_skip (binds_name _) fun _ _ => binds_raw _
  · exact binds_values t s.values

/-- MySQL binds the values once: its update refers to them by their columns. -/
theorem binds_duplicateKey (t : Table) (s : Upsert) :
    Binds (s.duplicateKeyDraft t) (s.values.map (·.2)) := by
  refine binds_skip (binds_lift _) fun updates _ => binds_last (binds_values t s.values) ?_
  refine binds_skip (binds_raw _) fun _ _ => ?_
  exact binds_separated_none ", " updates fun _ _ =>
    binds_skip (binds_name _) fun _ _ => binds_skip (binds_raw _) fun _ _ =>
      binds_skip (binds_name _) fun _ _ => binds_raw _

/-- The upsert of PostgreSQL binds the updates, the selection and the values. -/
theorem binds_updateOrInsert {t : Table} {s : Upsert} {updates : Assignments}
    (hupdates : s.updates t = .ok updates) :
    Binds (s.updateOrInsertDraft t)
      (updates.map (·.2) ++ (s.updateSelection.getD .everything).parameters
        ++ s.values.map (·.2)) := by
  refine binds_skip (binds_lift _) fun selection htarget => ?_
  refine binds_skip (binds_lift _) fun updates' hupdates' => ?_
  obtain rfl : updates = updates' := Except.ok.inj (hupdates.symm.trans hupdates')
  rw [Upsert.eq_some_of_target htarget, Option.getD_some, List.append_assoc]
  refine binds_skip (binds_raw _) fun _ _ => binds_skip (binds_name _) fun _ _ => ?_
  refine binds_skip (binds_raw _) fun _ _ => binds_skip (binds_name _) fun _ _ => ?_
  refine binds_skip (binds_raw _) fun _ _ => ?_
  refine binds_seq (binds_separated_each ", " updates fun _ _ => ?_) ?_
  · exact binds_skip (binds_name _) fun _ _ => binds_skip (binds_raw _) fun _ _ =>
      binds_placeholder _
  refine binds_seq (binds_restriction t selection) ?_
  refine binds_skip (binds_raw _) fun _ _ => binds_skip (binds_name _) fun _ _ => ?_
  refine binds_skip (binds_raw _) fun _ _ => binds_skip (binds_name _) fun _ _ => ?_
  refine binds_skip (binds_raw _) fun _ _ => binds_skip (binds_names _) fun _ _ => ?_
  refine binds_skip (binds_raw _) fun _ _ => binds_last (binds_placeholders _) ?_
  refine binds_skip (binds_raw _) fun _ _ => binds_skip (binds_name _) fun _ _ => ?_
  refine binds_skip (binds_raw _) fun _ _ => binds_skip (binds_name _) fun _ _ => ?_
  exact binds_skip (binds_raw _) fun _ _ => binds_name _

/-- A statement binds the parameters of its clauses in their order. -/
theorem binds_draft (d : Dialect) (t : Table) (s : Statement) :
    Binds (s.draft d t) (s.parameters d t) := by
  cases s with
  | select s => exact binds_select d t s
  | count s => exact binds_count d t s
  | delete s => exact binds_delete d t s
  | insert s => exact binds_insert d t s
  | upsert s =>
    change Binds (s.draft d t) _
    unfold Upsert.draft
    split
    · rintro _ ⟨⟩
    · refine binds_skip (binds_lift _) fun updates hupdates => ?_
      cases d with
      | mysql => exact binds_duplicateKey t s
      | postgres =>
        have hupdates : s.updates t = .ok updates := hupdates
        simp only [parameters, hupdates]
        exact binds_updateOrInsert hupdates

end Statement

end DocumentQuery
