import DocumentQuery.Proofs.Draft.Refusal
import DocumentQuery.Proofs.Draft.Text
import DocumentQuery.Proofs.Statement.Answer

/-!
# Texts of selections

A selection is its select list in front of the text of its rows, whatever its names are, and can be
written just where its columns can be told and its clauses can be written.
-/

namespace DocumentQuery
set_option autoImplicit false

open Draft

/-- The text of a select list. -/
def Dialect.selectList (d : Dialect) : Option (List String) → String
  | none => "*"
  | some columns => ", ".intercalate (columns.map d.quoted)

section Queries

variable {d : Dialect} {t : Table}

/-- A projection is written as its select list. -/
theorem Draft.sql_projected {projection : Projection} {columns : Option (List String)}
    (h : projection.columns t = .ok columns) :
    (projected t projection).sql d = d.selectList columns := by
  rw [projected, sql_lift_bind h]
  cases columns with
  | none => exact sql_raw "*"
  | some columns => exact sql_names columns

/-- A selection is its select list and the rows behind it. -/
theorem Select.sql_draft {s : Select} {columns : Option (List String)}
    (h : s.projection.columns t = .ok columns) :
    (s.draft d t).sql d = "SELECT " ++ d.selectList columns ++ " FROM "
      ++ (rows d t s.selection s.order s.limit s.offset).sql d := by
  have hprojected : (projected t s.projection).outcome = .ok () := by
    rw [outcome_projected, h]
    rfl
  rw [draft, sql_raw_bind, sql_bind hprojected, sql_raw_bind, sql_projected h]
  simp only [String.append_assoc]

/-- A selection has a text where its columns and its clauses stand. -/
theorem Select.outcome_eq_ok {s : Select} :
    (s.draft d t).outcome = .ok () ↔
      ∃ columns, s.projection.columns t = .ok columns ∧
        (clauses d t s.selection s.order s.limit s.offset).outcome = .ok () := by
  rw [outcome_draft, bind_eq_ok, outcome_projected]
  simp only [map_eq_ok]
  constructor
  · rintro ⟨_, ⟨columns, hcolumns, -⟩, hclauses⟩
    exact ⟨columns, hcolumns, hclauses⟩
  · rintro ⟨columns, hcolumns, hclauses⟩
    exact ⟨(), ⟨columns, hcolumns, trivial⟩, hclauses⟩

/-- A query has its select list, its rows and the parameters of its selection. -/
theorem Select.compile_eq_ok {s : Select} {q : Query} :
    (Statement.select s).compile d t = .ok q ↔
      ∃ columns, s.projection.columns t = .ok columns ∧
        (clauses d t s.selection s.order s.limit s.offset).outcome = .ok () ∧
        q = ⟨"SELECT " ++ d.selectList columns ++ " FROM "
          ++ (rows d t s.selection s.order s.limit s.offset).sql d ++ ";",
          s.selection.parameters⟩ := by
  have hbound : (s.draft d t).outcome = .ok () →
      (s.draft d t).parameters = s.selection.parameters := Statement.binds_select d t s ()
  rw [Statement.compile, Statement.draft, query_eq_ok]
  constructor
  · rintro ⟨houtcome, rfl⟩
    obtain ⟨columns, hcolumns, hclauses⟩ := outcome_eq_ok.1 houtcome
    exact ⟨columns, hcolumns, hclauses, by rw [hbound houtcome, sql_draft hcolumns]⟩
  · rintro ⟨columns, hcolumns, hclauses, rfl⟩
    have houtcome := outcome_eq_ok.2 ⟨columns, hcolumns, hclauses⟩
    exact ⟨houtcome, by rw [hbound houtcome, sql_draft hcolumns]⟩

end Queries

end DocumentQuery
