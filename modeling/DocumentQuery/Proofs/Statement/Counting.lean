import DocumentQuery.Proofs.Sql.Counting
import DocumentQuery.Proofs.Statement.Dialects
import DocumentQuery.Proofs.Statement.Text

/-!
# Counts and selections

A count is refused where the selection with the same parts is, and otherwise has the same text
behind FROM with the same parameters, in a table of its own where there is a page. So it answers
the number of the rows that the selection answers, for every table and whatever the names are.
-/

namespace DocumentQuery
set_option autoImplicit false

open Draft
open Sql (Database)

section Counts

variable {d : Dialect} {t : Table} {selection : Selection} {limit : Limit} {offset : Offset}

/-- The text of rows begins with the name of their table. -/
theorem Draft.head?_rows (order : SortOrder) :
    ((rows d t selection order limit offset).sql d).toList.head? = some d.quote := by
  rw [rows_eq_clauses, sql_name_bind]
  simp [Dialect.quoted]

/-- A selection of all columns is the text of its rows. -/
theorem Select.sql_everything :
    (Select.draft d t { selection, limit, offset }).sql d ++ ";"
      = Sql.selectText ((rows d t selection .unspecified limit offset).sql d) := by
  have hwords : "SELECT " ++ "*" ++ " FROM " = "SELECT * FROM " := by decide
  have hsql := Select.sql_draft (d := d) (t := t) (s := { selection, limit, offset }) rfl
  unfold Sql.selectText
  rw [hsql, Dialect.selectList, hwords]

/-- A count has the text of the rows that it counts, wherever that stands. -/
theorem Count.sql_draft {s : Count}
    (h : (rows d t s.selection .unspecified s.limit s.offset).outcome = .ok ()) :
    (s.draft d t).sql d ++ ";"
      = Sql.countText d (s.limit.rows.isSome || s.offset.rows.isSome)
          ((rows d t s.selection .unspecified s.limit s.offset).sql d) := by
  have hpaged : (s.limit.rows.isSome || s.offset.rows.isSome)
      = !(s.limit.rows.isNone && s.offset.rows.isNone) := by
    rw [Bool.not_and, Option.not_isNone, Option.not_isNone]
  by_cases hpage : (s.limit.rows.isNone && s.offset.rows.isNone) = true
  · rw [hpaged, hpage, draft, if_pos hpage, sql_raw_bind, sql_name_bind, sql_raw_bind,
      Sql.countText, if_neg (by decide)]
    simp only [← String.append_assoc]
  · have hwords : " FROM (SELECT 1 FROM " = " FROM " ++ "(SELECT 1 FROM " := by decide
    rw [hpaged, Bool.eq_false_of_not_eq_true hpage, draft, if_neg hpage, sql_raw_bind,
      sql_name_bind, sql_raw_bind, sql_raw_bind, sql_bind h, sql_raw_bind, sql_name,
      Sql.countText, if_pos (by decide), hwords]
    simp only [String.append_assoc]

/-- How the query of a count belongs to the query of the selection with the same parts. -/
structure Counts (d : Dialect) (paged : Bool) (selected counted : Query) : Prop where
  parameters : counted.parameters = selected.parameters
  text : ∃ rest, selected.sql = Sql.selectText rest ∧ counted.sql = Sql.countText d paged rest
  number : ∀ {α : Type} (db : Database α),
    Sql.answer? db counted.parameters (Sql.lex d counted.sql)
      = (Sql.answer? db selected.parameters (Sql.lex d selected.sql)).map Sql.Answer.counted

theorem Select.outcome_everything :
    (Select.draft d t { selection, limit, offset }).outcome
      = (clauses d t selection .unspecified limit offset).outcome := by
  rw [outcome_draft]
  rfl

theorem Count.agree_compile :
    Agree (Counts d (limit.rows.isSome || offset.rows.isSome))
      ((Statement.select { selection, limit, offset }).compile d t)
      ((Statement.count { selection, limit, offset }).compile d t) := by
  have hselect : (Select.draft d t { selection, limit, offset }).outcome
      = (clauses d t selection .unspecified limit offset).outcome := Select.outcome_everything
  have hcount := outcome_draft d t { selection, limit, offset }
  simp only [Statement.compile, Statement.draft]
  cases hclauses : (clauses d t selection .unspecified limit offset).outcome with
  | error e =>
    rw [query, query, hselect, hcount, hclauses]
    exact .error e
  | ok _ =>
    rw [hclauses] at hselect hcount
    have hbound : (Select.draft d t { selection, limit, offset }).parameters
        = selection.parameters := Statement.binds_select d t _ () hselect
    have hbound' : (Count.draft d t { selection, limit, offset }).parameters
        = selection.parameters := Statement.binds_count d t _ () hcount
    have hcounted := sql_draft (d := d) (t := t) (s := { selection, limit, offset }) hclauses
    rw [query_eq_ok.2 ⟨hselect, rfl⟩, query_eq_ok.2 ⟨hcount, rfl⟩, Select.sql_everything,
      hcounted, hbound, hbound']
    exact .ok ⟨rfl, ⟨_, rfl, rfl⟩, fun db => Sql.answer?_count_eq_counted db _ (head?_rows _) _⟩

/-- On clean names a well-formed selection is answered by rows of all columns. -/
theorem Select.exists_rows
    (hclean : ∀ n ∈ t.names ++ selection.keys.flatMap Key.names, d.quote ∉ n.toList)
    (hwell : selection.WellFormed) {q : Query}
    (hq : (Statement.select { selection, limit, offset }).compile d t = .ok q) {α : Type}
    (db : Database α) :
    ∃ rows, Sql.answer? db q.parameters (Sql.lex d q.sql) = some (.rows [.symbol '*'] rows) := by
  have htable : ∀ n ∈ t.names, d.quote ∉ n.toList :=
    fun n hn => hclean n (List.mem_append_left _ hn)
  have hkeys : ∀ n ∈ selection.keys.flatMap Key.names, d.quote ∉ n.toList :=
    fun n hn => hclean n (List.mem_append_right _ hn)
  have hnames : ∀ n ∈ (Statement.select { selection, limit, offset }).usedNames,
      d.quote ∉ n.toList := by
    simpa [Statement.usedNames, Projection.keys, SortOrder.keys] using hkeys
  obtain ⟨houtcome, -⟩ := query_eq_ok.1 hq
  have hsingle := single_of_clauses (outcome_everything.symm.trans houtcome)
  obtain ⟨c, hc⟩ := Option.isSome_iff_exists.1
    (Statement.isSome_condition? htable hkeys hsingle hwell)
  have hstar : (projected t .everything).tokens d = [.symbol '*'] := by cases d <;> rfl
  rw [answer?_compile htable db hnames hq, hc, Option.map_some, hstar]
  exact ⟨_, rfl⟩

end Counts

/-- A count and the selection with the same parts have the same fault, or queries of which the count
answers the number of the rows that the selection answers. On names without the quote every
well-formed selection has such an answer. -/
theorem Count.counts_selected (d : Dialect) (t : Table) (selection : Selection) (limit : Limit)
    (offset : Offset) :
    Agree (Counts d (limit.rows.isSome || offset.rows.isSome))
        ((Statement.select { selection, limit, offset }).compile d t)
        ((Statement.count { selection, limit, offset }).compile d t) ∧
      ((∀ n ∈ t.names ++ selection.keys.flatMap Key.names, d.quote ∉ n.toList) →
        selection.WellFormed →
        ∀ q, (Statement.select { selection, limit, offset }).compile d t = .ok q →
          ∀ {α : Type} (db : Database α), ∃ rows,
            Sql.answer? db q.parameters (Sql.lex d q.sql) = some (.rows [.symbol '*'] rows)) :=
  ⟨agree_compile, fun hclean hwell _ hq _ db => Select.exists_rows hclean hwell hq db⟩

/-- The events of one kind. -/
def ofKind : Selection := .matching (.comparison ⟨.eq, .column "kind", .value (.int 7)⟩)

/-- Events told by their kind, in the order in which they came. -/
def kinds : Database Int64 where
  rows _ := [7, 8, 7, 7]
  value kind _ := .int kind
  compare _ x p := x == p
  sorted _ rows := rows
  perm _ rows := .refl rows

/-- A page of events is counted in a table of its own, and the count is the length of the page. -/
theorem ofKind_counted :
    ∃ q q' rows,
      (Statement.select { selection := ofKind, limit := ⟨some 2⟩ }).compile .postgres
          { name := "events" } = .ok q ∧
        (Statement.count { selection := ofKind, limit := ⟨some 2⟩ }).compile .postgres
            { name := "events" } = .ok q' ∧
        q'.sql = "SELECT COUNT(*) AS \"count\" FROM "
          ++ "(SELECT 1 FROM \"events\" WHERE \"kind\" = ? LIMIT 2) AS \"bounded\";" ∧
        Sql.answer? kinds q.parameters (Sql.lex .postgres q.sql)
          = some (.rows [.symbol '*'] rows) ∧
        Sql.answer? kinds q'.parameters (Sql.lex .postgres q'.sql)
          = some (.number rows.length) := by
  obtain ⟨hagree, hanswered⟩ :=
    Count.counts_selected .postgres { name := "events" } ofKind ⟨some 2⟩ ⟨none⟩
  obtain ⟨rows, hrows⟩ := hanswered (by decide) trivial _ rfl kinds
  cases hagree with
  | ok hcounts =>
    refine ⟨_, _, rows, rfl, rfl, by decide, hrows, ?_⟩
    rw [hcounts.number kinds, hrows]
    rfl

end DocumentQuery
