import DocumentQuery.Proofs.Draft.Tokens
import DocumentQuery.Proofs.Statement.Placeholders

/-!
# Tokens of statements

The pieces of every statement are apart from each other, so on names without the dialect's quote
the tokens of a compiled statement are those of its pieces, and the semicolon behind them: each
name is one token, and each placeholder is.
-/

namespace DocumentQuery
set_option autoImplicit false

open Draft

namespace Statement

/-- The keywords of a selection have blanks around them. -/
theorem spaced_select (d : Dialect) (t : Table) (s : Select) : Spaced (s.draft d t) := by
  have hrows := spaced_rows d t s.selection s.order s.limit s.offset
  exact ((spaced_projected t s.projection).seq (hrows.behind_raw (by decide))).after_raw (by decide)

/-- A count keeps its pieces apart in both of its forms. -/
theorem spaced_count (d : Dialect) (t : Table) (s : Count) : Spaced (s.draft d t) := by
  have hrows := spaced_rows d t s.selection .unspecified s.limit s.offset
  have hend : Behind (raw ") AS " >>= fun _ => name "bounded") :=
    (spaced_name "bounded").behind_raw (by decide)
  refine Spaced.after_raw (by decide) ((spaced_name "count").seq ?_)
  refine Spaced.behind_raw (by decide) ?_
  split
  · exact hrows
  · exact (hrows.seq hend).after_raw (by decide)

theorem spaced_subselect (d : Dialect) (t : Table) (s : Delete) :
    Spaced (s.subselect d t "ctid") := by
  have hrows := spaced_rows d t s.selection s.order s.limit ⟨none⟩
  have hfrom : Behind (raw " FROM " >>= fun _ => rows d t s.selection s.order s.limit ⟨none⟩) :=
    hrows.behind_raw (by decide)
  exact ((spaced_raw "ctid").seq hfrom).after_raw (by decide)

theorem spaced_plainDelete (d : Dialect) (t : Table) (s : Delete) : Spaced (s.plainDraft d t) :=
  (spaced_rows d t s.selection s.order s.limit ⟨none⟩).after_raw (by decide)

/-- A deletion keeps its pieces apart in both of its forms. -/
theorem spaced_delete (d : Dialect) (t : Table) (s : Delete) : Spaced (s.draft d t) := by
  cases d with
  | mysql => exact spaced_plainDelete .mysql t s
  | postgres =>
    rw [Delete.draft]
    split
    · exact spaced_plainDelete .postgres t { s with order := .unspecified }
    · have hclosing : Behind (raw ")") := behind_raw (by decide)
      have hselected := (spaced_subselect .postgres t s).seq hclosing
      exact ((spaced_name t.name).seq (hselected.behind_raw (by decide))).after_raw (by decide)

theorem spaced_values (t : Table) (values : Assignments) :
    Spaced (Insert.valuesDraft t values) := by
  have hvalues : Spaced (placeholders (values.map (·.2)) >>= fun _ => raw ")") :=
    (spaced_placeholders _).seq (behind_raw (by decide))
  have hbehind : Behind (raw ") VALUES (" >>= fun _ =>
      placeholders (values.map (·.2)) >>= fun _ => raw ")") := hvalues.behind_raw (by decide)
  have hcolumns := (spaced_names (values.map (·.1))).seq hbehind
  exact ((spaced_name t.name).seq (hcolumns.behind_raw (by decide))).after_raw (by decide)

theorem spaced_insert (d : Dialect) (t : Table) (s : Insert) : Spaced (s.draft d t) := by
  unfold Insert.draft
  split
  · refine Spaced.after_raw (by decide) ((spaced_name t.name).seq (behind_raw ?_))
    cases d <;> decide
  · exact spaced_values t s.values

theorem spaced_duplicateKey (t : Table) (s : Upsert) : Spaced (s.duplicateKeyDraft t) := by
  refine spaced_lift fun updates _ =>
    (spaced_values t s.values).seq (Spaced.behind_raw (by decide) ?_)
  refine spaced_listed updates fun (column, _) => (spaced_name column).seq ?_
  exact ((spaced_name column).seq (behind_raw (by decide))).behind_raw (by decide)

theorem spaced_updateOrInsert (t : Table) (s : Upsert) : Spaced (s.updateOrInsertDraft t) := by
  refine spaced_lift fun selection _ => spaced_lift fun updates _ => ?_
  have hwrites : Spaced (separated ", " (updates.map fun u => do
      name u.1
      raw " = "
      placeholder u.2)) :=
    spaced_listed updates fun u =>
      (spaced_name u.1).seq ((spaced_placeholder u.2).behind_raw (by decide))
  refine Spaced.after_raw (by decide) ((spaced_name "updated").seq ?_)
  refine Spaced.behind_raw (by decide) ((spaced_name t.name).seq ?_)
  refine Spaced.behind_raw (by decide) (hwrites.seq ((behind_restriction t selection).seq ?_))
  refine Spaced.behind_raw (by decide) ((spaced_name "inserted").seq ?_)
  refine Spaced.behind_raw (by decide) ((spaced_name t.name).seq ?_)
  refine Spaced.behind_raw (by decide) ((spaced_names _).seq ?_)
  refine Spaced.behind_raw (by decide) ((spaced_placeholders _).seq ?_)
  refine Spaced.behind_raw (by decide) ((spaced_name "updated").seq ?_)
  refine Spaced.behind_raw (by decide) ((spaced_name "updated").seq ?_)
  exact (spaced_name "inserted").behind_raw (by decide)

/-- The pieces of every statement are apart from each other. -/
theorem spaced_draft (d : Dialect) (t : Table) (s : Statement) : Spaced (s.draft d t) := by
  cases s with
  | select s => exact spaced_select d t s
  | count s => exact spaced_count d t s
  | delete s => exact spaced_delete d t s
  | insert s => exact spaced_insert d t s
  | upsert s =>
    change Spaced (s.draft d t)
    unfold Upsert.draft
    split
    · exact .nil
    · refine spaced_lift fun _ _ => ?_
      cases d with
      | mysql => exact spaced_duplicateKey t s
      | postgres => exact spaced_updateOrInsert t s

/-- The tokens of a compiled statement on clean names. -/
theorem lex_compile {d : Dialect} {t : Table} {s : Statement} {q : Query}
    (htable : ∀ n ∈ t.names, d.quote ∉ n.toList) (hnames : ∀ n ∈ s.usedNames, d.quote ∉ n.toList)
    (h : s.compile d t = .ok q) : Sql.lex d q.sql = (s.draft d t).tokens d ++ [.symbol ';'] := by
  obtain ⟨_, -, rfl⟩ := map_eq_ok.1 h
  exact Query.lex_finished (s.clean_draft htable hnames) (s.spaced_draft d t)

end Statement

end DocumentQuery
