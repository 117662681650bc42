import DocumentQuery.Options
import DocumentQuery.Proofs.Draft.Outcome
import DocumentQuery.Proofs.Selection.Vacuous
import DocumentQuery.Proofs.Statement.Filters

/-!
# Restricted statements

When a statement restricts its rows. Of the clauses of a statement only the restriction writes
the keyword in front of a selection, so whether it is written depends on the selection alone; and
a selection that was read from a document restricts exactly when the document is not vacuous. No
document deletes every row of a table by accident.
-/

namespace DocumentQuery
set_option autoImplicit false

namespace Draft

variable {α : Type}

/-- A draft that restricts its rows to those of a selection. -/
def Restricts (draft : Draft α) : Prop := .raw " WHERE " ∈ draft.pieces

theorem not_restricts_of_every {draft : Draft α} (h : Every (· ≠ .raw " WHERE ") draft) :
    ¬ Restricts draft :=
  fun hmem => h _ hmem rfl

/-- An order restricts nothing, whatever its names are. -/
theorem not_restricts_ordering (t : Table) (order : SortOrder) :
    ¬ Restricts (ordering t order) := by
  refine not_restricts_of_every (every_ordering ?_ fun n _ => by simp)
  simp [orderingTexts]

/-- A page restricts nothing. -/
theorem not_restricts_paging (d : Dialect) (limit : Limit) (offset : Offset) :
    ¬ Restricts (paging d limit offset) := by
  refine not_restricts_of_every (every_paging fun clause h => ?_)
  -- The keyword differs from every paging clause in its second character.
  have hne : (" " ++ clause).toList ≠ " WHERE ".toList := by
    obtain ⟨n, m, rfl | rfl | rfl⟩ := Dialect.paging?_eq_some h <;> simp
  intro heq
  exact hne (congrArg String.toList (Piece.raw.inj heq))

theorem not_restricts_projected (t : Table) (projection : Projection) :
    ¬ Restricts (projected t projection) :=
  not_restricts_of_every (every_projected (by simp) (by simp) fun n _ => by simp)

/-- The clauses that pick rows restrict them unless every row is selected, also where they fail. -/
theorem restricts_rows (d : Dialect) (t : Table) (selection : Selection) (order : SortOrder)
    (limit : Limit) (offset : Offset) :
    Restricts (rows d t selection order limit offset) ↔ selection ≠ .everything := by
  rw [rows, name_bind, Restricts, List.mem_cons, mem_pieces_bind]
  cases selection with
  | matching node => simp [restriction]
  | everything =>
    simp only [restriction, mem_pieces_bind]
    have hordering := not_restricts_ordering t order
    have hpaging := not_restricts_paging d limit offset
    simp only [Restricts] at hordering hpaging
    simp [hordering, hpaging]

end Draft

/-! ## Statements -/

open Draft

/-- A selection with a text restricts its rows unless its selector asks for every row. -/
theorem Select.restricts_iff {d : Dialect} {t : Table} {s : Select}
    (h : (s.draft d t).outcome = .ok ()) :
    Restricts (s.draft d t) ↔ s.selection ≠ .everything := by
  have hprojected : (projected t s.projection).outcome = .ok () := by
    rw [Select.draft, raw_bind, outcome_bind] at h
    obtain ⟨a, ha, -⟩ := bind_eq_ok.1 h
    exact ha
  have hcolumns := not_restricts_projected t s.projection
  rw [Restricts] at hcolumns
  rw [← restricts_rows d t s.selection s.order s.limit s.offset]
  simp [Select.draft, Restricts, bind_of_ok hprojected, hcolumns]

theorem Count.restricts_iff (d : Dialect) (t : Table) (s : Count) :
    Restricts (s.draft d t) ↔ s.selection ≠ .everything := by
  rw [← restricts_rows d t s.selection .unspecified s.limit s.offset]
  cases hpaged : s.limit.rows.isNone && s.offset.rows.isNone with
  | true => simp [Count.draft, Restricts, hpaged]
  | false => simp [Count.draft, Restricts, hpaged, mem_pieces_bind]

theorem Delete.restricts_plainDraft (d : Dialect) (t : Table) (s : Delete) :
    Restricts (s.plainDraft d t) ↔ s.selection ≠ .everything := by
  rw [← restricts_rows d t s.selection s.order s.limit ⟨none⟩]
  simp [Delete.plainDraft, Restricts]

/-- The filter by row identifiers is no restriction to the selector. -/
theorem Delete.restricts_iff (d : Dialect) (t : Table) (s : Delete) :
    Restricts (s.draft d t) ↔ s.selection ≠ .everything := by
  cases d with
  | mysql => exact restricts_plainDraft .mysql t s
  | postgres =>
    by_cases hlimit : s.limit.rows.isNone
    · rw [Delete.draft, if_pos hlimit]
      exact restricts_plainDraft .postgres t { s with order := .unspecified }
    · rw [← restricts_rows .postgres t s.selection s.order s.limit ⟨none⟩]
      simp [Delete.draft, Delete.subselect, Restricts, hlimit, mem_pieces_bind]

/-- A statement that has SQL restricts its rows unless it is about every row. -/
theorem Statement.restricts_iff {d : Dialect} {t : Table} {s : Statement} {q : Query}
    {selection : Selection} (hselection : s.selection? = some selection)
    (h : s.compile d t = .ok q) : Restricts (s.draft d t) ↔ selection ≠ .everything := by
  cases s with
  | select s =>
    cases hselection
    obtain ⟨_, houtcome, -⟩ := map_eq_ok.1 h
    exact s.restricts_iff houtcome
  | count s =>
    cases hselection
    exact s.restricts_iff d t
  | delete s =>
    cases hselection
    exact s.restricts_iff d t
  | insert s => cases hselection
  | upsert s => cases hselection

/-! ## Refused updates -/

namespace Upsert

/-- The update of PostgreSQL fails without a row to update, with its columns, or with the
condition of the row. -/
theorem outcome_updateOrInsertDraft (t : Table) (s : Upsert) :
    (s.updateOrInsertDraft t).outcome
      = s.target .postgres t >>= fun selection => s.updates t >>= fun _ =>
          t.single selection.keys := by
  rw [updateOrInsertDraft, outcome_bind, outcome_lift]
  congr
  funext selection
  rw [outcome_bind, outcome_lift]
  congr
  funext updates
  -- Between the texts of the statement only the condition of the row can fail.
  simp only [outcome_bind, outcome_raw, outcome_name, outcome_names, outcome_placeholders,
    outcome_restriction, ok_bind]
  rw [outcome_separated_map fun _ _ => rfl, ok_bind]
  cases t.single selection.keys <;> rfl

/-- The update selector that a document gives selects every row exactly where the document is
vacuous and not null, which gives none. -/
theorem updateSelection_eq_everything {v : Value} {selection : Option Selection}
    (h : selectionOfValue v = .ok selection) :
    selection = some .everything ↔ v ≠ .null ∧ v.Vacuous := by
  unfold selectionOfValue at h
  cases hnull : v.isNull with
  | true =>
    rw [if_pos hnull] at h
    cases h
    cases v with
    | null => simp
    | _ => cases hnull
  | false =>
    rw [if_neg (by simp [hnull])] at h
    obtain ⟨inner, hinner, rfl⟩ := map_eq_ok.1 h
    have hne : v ≠ .null := by
      rintro rfl
      cases hnull
    rw [Option.some_inj, Selection.eq_everything_iff hinner]
    exact (and_iff_right hne).symm

/-- Where the values and the columns of an update stand, PostgreSQL asks for no more than a row
to update exactly where there is a selection of every row. -/
theorem compile_eq_missingTarget {t : Table} {s : Upsert} (hvalues : s.values ≠ [])
    {updates : Assignments} (hupdates : s.updates t = .ok updates) :
    (Statement.upsert s).compile .postgres t = .error (.missingTarget t.name) ↔
      s.updateSelection = some .everything := by
  have hdraft : (s.draft .postgres t).outcome
      = s.target .postgres t >>= fun selection => t.single selection.keys := by
    rw [Upsert.draft, if_neg (by simpa using hvalues), outcome_bind, outcome_lift, hupdates]
    change (s.updateOrInsertDraft t).outcome = _
    rw [outcome_updateOrInsertDraft, hupdates]
    rfl
  have hcompile : (Statement.upsert s).compile .postgres t = .error (.missingTarget t.name) ↔
      (s.draft .postgres t).outcome = .error (.missingTarget t.name) := by
    change (s.draft .postgres t).outcome.map _ = _ ↔ _
    cases (s.draft .postgres t).outcome <;> simp [Except.map]
  rw [hcompile, hdraft, target]
  rcases s.updateSelection with _ | _ | node
  · refine iff_of_false (fun h => ?_) (by simp)
    cases h
  · exact iff_of_true rfl rfl
  · refine iff_of_false (fun h => ?_) (by simp)
    have hsingle : t.single (Selection.matching node).keys = .error (.missingTarget t.name) := h
    rcases Table.error_of_single hsingle with he | he
    · cases he
    · cases he

end Upsert

/-! ## Selectors -/

namespace Selection

/-- A selector that is accepted selects every row exactly where it is vacuous. Exactly then a
statement that reads or deletes rows does not restrict them, its text has no filter beyond its
own, and exactly then PostgreSQL refuses to update where the selector finds the row, unless it is
null. -/
theorem unrestricted_iff_vacuous {v : Value} {selection : Selection}
    (h : ofValue v = .ok selection) :
    (selection = .everything ↔ v.Vacuous) ∧
      (∀ (d : Dialect) (t : Table) (s : Statement) (q : Query), s.selection? = some selection →
        s.compile d t = .ok q → (¬ Restricts (s.draft d t) ↔ v.Vacuous)) ∧
      (∀ (d : Dialect) (t : Table) (s : Statement) (q : Query), s.selection? = some selection →
        s.compile d t = .ok q → (∀ n ∈ t.names, d.quote ∉ n.toList) →
        (∀ n ∈ s.usedNames, d.quote ∉ n.toList) →
        ((Sql.lex d q.sql).count (.word "WHERE") = s.ownFilters d ↔ v.Vacuous)) ∧
      ∀ (t : Table) (s : Upsert) (updates : Assignments),
        Upsert.selectionOfValue v = .ok s.updateSelection → s.values ≠ [] →
        s.updates t = .ok updates →
        ((Statement.upsert s).compile .postgres t = .error (.missingTarget t.name) ↔
          v ≠ .null ∧ v.Vacuous) := by
  have hvacuous := eq_everything_iff h
  refine ⟨hvacuous, ?_, ?_, ?_⟩
  · intro d t s q hselection hcompile
    rw [Statement.restricts_iff hselection hcompile, not_not]
    exact hvacuous
  · intro d t s q hselection hcompile htable hnames
    have hcount := Statement.count_where_compile hselection htable hnames hcompile
    rw [hcount, Nat.add_eq_left, filters_eq_zero]
    exact hvacuous
  · intro t s updates hs hvalues hupdates
    rw [Upsert.compile_eq_missingTarget hvalues hupdates]
    exact Upsert.updateSelection_eq_everything hs

/-- Two conjuncts that ask nothing: a choice with an empty branch, and a field that is not
compared. -/
def absorbed : Value :=
  .object [("$and", .array
    [.object [("$or", .array [.object [("a", .int 1)], .null])], .object [("b", .object [])]])]

/-- The document asks nothing: a deletion with it has no filter, and an upsert of PostgreSQL is
refused. -/
theorem absorbed_unrestricted :
    absorbed.Vacuous ∧ ¬ Restricts ((Statement.delete {}).draft .mysql { name := "t" }) ∧
      (Sql.lex .mysql "DELETE FROM \x60t\x60;").count (.word "WHERE") = 0 ∧
      (Statement.upsert { values := [("a", .null)], updateSelection := some .everything }).compile
        .postgres { name := "t" } = .error (.missingTarget "t") := by
  have hread : ofValue absorbed = .ok .everything := rfl
  obtain ⟨hselection, hrows, htext, hupdate⟩ := unrestricted_iff_vacuous hread
  have hvacuous : absorbed.Vacuous := hselection.1 rfl
  have hcompile : (Statement.delete {}).compile .mysql { name := "t" }
      = .ok { sql := "DELETE FROM \x60t\x60;", parameters := [] } := rfl
  refine ⟨hvacuous, (hrows .mysql _ (.delete {}) _ rfl hcompile).2 hvacuous,
    (htext .mysql _ (.delete {}) _ rfl hcompile (by decide) (by decide)).2 hvacuous, ?_⟩
  exact (hupdate _ _ _ rfl (by simp) rfl).2 ⟨by simp [absorbed], hvacuous⟩

end Selection

end DocumentQuery
