import DocumentQuery.Proofs.Clause.SortOrder
import DocumentQuery.Proofs.Draft.Refusal
import DocumentQuery.Proofs.Draft.Text
import DocumentQuery.Proofs.Statement.Deletion
import DocumentQuery.Proofs.Statement.Names

/-!
# Order clauses

From the document of an order to the clause in the text of a statement: the columns that stand
behind ORDER BY one by one. A statement with an order is the statement without it and the clause put in.
-/

namespace DocumentQuery
set_option autoImplicit false

open Draft

/-! ## Clauses -/

/-- The columns of a table that a name with its direction sorts by. -/
def Table.sorted (t : Table) (said : String × Direction) : List (String × Direction) :=
  (t.listed said.1).map fun column => (column, said.2)

theorem SortTerm.columns_ofSaid (t : Table) (said : String × Direction) :
    (ofSaid said).columns t = t.sorted said := by
  rw [Table.sorted, ← t.columns_ofName, columns, ofSaid]
  cases Key.ofName said.1 with
  | column name => rfl
  | id =>
    rw [Table.columnsOf, Key.columns]
    cases t.primaryKey <;> rfl

/-- An order sorts by the columns of its names one after the other. -/
theorem SortOrder.columns_ofSaid (t : Table) (said : List (String × Direction)) :
    (ofSaid said).columns t = said.flatMap t.sorted := by
  cases said with
  | nil => rfl
  | cons first rest =>
    rw [ofSaid, columns, List.flatMap_map]
    · exact congrArg (first :: rest).flatMap (funext (SortTerm.columns_ofSaid t))
    · rintro ⟨⟩

/-- A column in an order clause. -/
def Dialect.sortColumn (d : Dialect) : String × Direction → String
  | (column, direction) => d.quoted column ++ " " ++ direction.sql

/-- An order clause, absent without columns. -/
def Dialect.orderClause (d : Dialect) (columns : List (String × Direction)) : String :=
  if columns = [] then "" else " ORDER BY " ++ ", ".intercalate (columns.map d.sortColumn)

namespace Draft

variable {d : Dialect} {t : Table}

/-- The columns of a term are written with its direction behind each. -/
theorem sql_directed (direction : Direction) (columns : List String) :
    (directed direction columns).sql d
      = ", ".intercalate ((columns.map fun column => (column, direction)).map d.sortColumn) := by
  rw [directed, sql_separated fun _ _ => rfl, List.map_map]
  refine congrArg (", ".intercalate) (List.map_congr_left fun column _ => ?_)
  rw [sql_name_bind, sql_raw_bind, sql_raw, Function.comp, Dialect.sortColumn, String.append_assoc]

/-- A term is its columns, with a comma in front if others stand before. -/
theorem sql_sortTerms_cons {more : Bool} {term : SortTerm} {columns : List String}
    (h : t.columnsOf term.key = .ok columns) (rest : List SortTerm) :
    (sortTerms t more (term :: rest)).sql d
      = (if more then ", " else "") ++ ", ".intercalate ((term.columns t).map d.sortColumn)
        ++ (sortTerms t true rest).sql d := by
  have hdirected : (directed term.direction columns >>= fun _ => sortTerms t true rest).sql d
      = ", ".intercalate ((term.columns t).map d.sortColumn) ++ (sortTerms t true rest).sql d := by
    rw [sql_bind (outcome_directed _ _), sql_directed, SortTerm.columns, h]
  rw [sortTerms, sql_lift_bind h, String.append_assoc, ← hdirected]
  cases more with
  | false => exact String.empty_append.symm
  | true => exact sql_raw_bind ", " _

/-- Terms that can be written have some columns. -/
theorem flatMap_columns_ne_nil {terms : List SortTerm} (hterms : terms ≠ []) {columns : List String}
    (h : t.columnsOfAll (terms.map (·.key)) = .ok columns) :
    terms.flatMap (SortTerm.columns t) ≠ [] := by
  cases terms with
  | nil => exact absurd rfl hterms
  | cons term rest =>
    rw [List.map_cons, Table.columnsOfAll_cons] at h
    obtain ⟨first, hfirst, -⟩ := bind_eq_ok.1 h
    have hterm : term.columns t ≠ [] := by
      simpa [SortTerm.columns, hfirst] using Table.columnsOf_ne_nil hfirst
    exact List.append_ne_nil_of_left_ne_nil hterm _

/-- Terms are their columns in a row. -/
theorem sql_sortTerms {more : Bool} {terms : List SortTerm} (hterms : terms ≠ [])
    {columns : List String} (h : t.columnsOfAll (terms.map (·.key)) = .ok columns) :
    (sortTerms t more terms).sql d
      = (if more then ", " else "")
        ++ ", ".intercalate ((terms.flatMap (SortTerm.columns t)).map d.sortColumn) := by
  induction terms generalizing more columns with
  | nil => exact absurd rfl hterms
  | cons term rest ih =>
    rw [List.map_cons, Table.columnsOfAll_cons] at h
    obtain ⟨first, hfirst, h⟩ := bind_eq_ok.1 h
    obtain ⟨others, hothers, -⟩ := map_eq_ok.1 h
    rw [sql_sortTerms_cons hfirst, List.flatMap_cons]
    -- A comma is written by the term behind it, so the last term has none to write.
    by_cases hrest : rest = []
    · rw [hrest, sortTerms, sql_pure, List.flatMap_nil, List.append_nil, String.append_empty]
    · have hterm : term.columns t ≠ [] := by
        simpa [SortTerm.columns, hfirst] using Table.columnsOf_ne_nil hfirst
      have hmore := flatMap_columns_ne_nil hrest hothers
      rw [ih hrest hothers, List.map_append, String.intercalate_append_of_ne_nil
        (by simpa using hterm) (by simpa using hmore), if_pos rfl]
      simp only [String.append_assoc]

/-- An order is written as the clause over its columns. -/
theorem sql_ordering {order : SortOrder} (h : (ordering t order).outcome = .ok ()) :
    (ordering t order).sql d = d.orderClause (order.columns t) := by
  rcases order with _ | ⟨_ | ⟨term, rest⟩⟩
  · rfl
  · rfl
  · rw [outcome_ordering] at h
    obtain ⟨columns, hcolumns, -⟩ := map_eq_ok.1 h
    have hterms := List.cons_ne_nil term rest
    have hordering : ordering t (.terms (term :: rest))
        = raw " ORDER BY " >>= fun _ => sortTerms t false (term :: rest) := rfl
    rw [hordering, sql_raw_bind, sql_sortTerms hterms hcolumns, Dialect.orderClause,
      SortOrder.columns, if_neg (flatMap_columns_ne_nil hterms hcolumns), if_neg (by decide),
      String.empty_append]

/-- The clause is left out only where there is nothing to sort by. -/
theorem orderClause_eq_empty {columns : List (String × Direction)} :
    d.orderClause columns = "" ↔ columns = [] := by
  rw [Dialect.orderClause]
  by_cases h : columns = []
  · simp [h]
  · rw [if_neg h]
    refine iff_of_false (fun hempty => ?_) h
    have hwords : " ORDER BY " = "" := (String.append_eq_empty_iff.1 hempty).1
    exact absurd hwords (by decide)

/-! ## Clauses in drafts -/

/-- Where `whole` can be written, so can `rest`, which lacks the text of the clause and nothing
else. -/
def Adds (d : Dialect) (clause whole rest : Draft Unit) : Prop :=
  whole.outcome = .ok () → clause.outcome = .ok () ∧ rest.outcome = .ok () ∧
    ∃ before after, whole.sql d = before ++ clause.sql d ++ after ∧ rest.sql d = before ++ after

variable {clause whole rest : Draft Unit}

theorem adds_self (clause : Draft Unit) : Adds d clause clause (pure ()) :=
  fun h => ⟨h, rfl, "", "", by simp, rfl⟩

theorem adds_nothing (draft : Draft Unit) : Adds d (pure ()) draft draft :=
  fun h => ⟨rfl, h, draft.sql d, "", by rw [sql_pure, String.append_empty, String.append_empty],
    String.append_empty.symm⟩

/-- A step in front. -/
theorem Adds.behind (h : Adds d clause whole rest) (first : Draft Unit) :
    Adds d clause (first >>= fun _ => whole) (first >>= fun _ => rest) := by
  intro houtcome
  rw [outcome_bind] at houtcome
  obtain ⟨⟨⟩, hfirst, hwhole⟩ := bind_eq_ok.1 houtcome
  obtain ⟨hclause, hrest, before, after, hsql, hsql'⟩ := h hwhole
  refine ⟨hclause, (outcome_bind_of_ok hfirst _).trans hrest, first.sql d ++ before, after, ?_, ?_⟩
  · rw [sql_bind hfirst, hsql]
    simp only [String.append_assoc]
  · rw [sql_bind hfirst, hsql', String.append_assoc]

/-- A step behind. -/
theorem Adds.before (h : Adds d clause whole rest) (last : Draft Unit) :
    Adds d clause (whole >>= fun _ => last) (rest >>= fun _ => last) := by
  intro houtcome
  rw [outcome_bind] at houtcome
  obtain ⟨⟨⟩, hwhole, hlast⟩ := bind_eq_ok.1 houtcome
  obtain ⟨hclause, hrest, before, after, hsql, hsql'⟩ := h hwhole
  refine ⟨hclause, (outcome_bind_of_ok hrest _).trans hlast, before, after ++ last.sql d, ?_, ?_⟩
  · rw [sql_bind hwhole, hsql]
    simp only [String.append_assoc]
  · rw [sql_bind hrest, hsql', String.append_assoc]

/-- Rows in order are the rows without it and the clause behind the restriction. -/
theorem adds_rows (selection : Selection) (order : SortOrder) (limit : Limit) (offset : Offset) :
    Adds d (ordering t order) (rows d t selection order limit offset)
      (rows d t selection .unspecified limit offset) :=
  (((adds_self (ordering t order)).before (paging d limit offset)).behind
    (restriction t selection)).behind (name t.name)

end Draft

namespace Statement

/-- The order that the dialect writes in a statement. -/
def writtenOrder (d : Dialect) : Statement → SortOrder
  | .select s => s.order
  | .delete s => s.writtenOrder d
  | .count _ | .insert _ | .upsert _ => .unspecified

/-- The statement without an order. -/
def unordered : Statement → Statement
  | .select s => .select { s with order := .unspecified }
  | .delete s => .delete { s with order := .unspecified }
  | .count s => .count s
  | .insert s => .insert s
  | .upsert s => .upsert s

variable {d : Dialect} {t : Table}

/-- A statement with an order is the statement without it and the clause put in. -/
theorem adds_ordering (s : Statement) :
    Adds d (ordering t (s.writtenOrder d)) (s.draft d t) (s.unordered.draft d t) := by
  cases s with
  | select s =>
    exact (((adds_rows s.selection s.order s.limit s.offset).behind (raw " FROM ")).behind
      (projected t s.projection)).behind (raw "SELECT ")
  | count s => exact adds_nothing (s.draft d t)
  | insert s => exact adds_nothing (s.draft d t)
  | upsert s => exact adds_nothing (s.draft d t)
  | delete s =>
    have hrows := adds_rows (d := d) (t := t) s.selection s.order s.limit ⟨none⟩
    cases d with
    | mysql => exact hrows.behind (raw "DELETE FROM ")
    | postgres =>
      cases hlimit : s.limit.rows with
      | none =>
        -- All rows go, and PostgreSQL is not told in which order.
        have hwritten : s.writtenOrder .postgres = .unspecified := by
          rw [Delete.writtenOrder, hlimit]
          rfl
        have hdraft : (s.draft .postgres t)
            = Delete.draft .postgres t { s with order := .unspecified } := by
          rw [Delete.draft_of_no_limit hlimit,
            Delete.draft_of_no_limit (s := { s with order := .unspecified }) hlimit]
        rw [writtenOrder, hwritten, unordered, draft, draft, ← hdraft]
        exact adds_nothing (s.draft .postgres t)
      | some n =>
        have hwritten : s.writtenOrder .postgres = s.order := by
          rw [Delete.writtenOrder, hlimit]
          rfl
        have hselect := ((hrows.behind (raw " FROM ")).behind (raw "ctid")).behind (raw "SELECT ")
        rw [writtenOrder, hwritten, unordered, draft, draft, Delete.draft_of_limit hlimit,
          Delete.draft_of_limit (s := { s with order := .unspecified }) hlimit]
        exact (((hselect.before (raw ")")).behind (raw " WHERE ctid IN (")).behind
          (name t.name)).behind (raw "DELETE FROM ")

/-- An order binds nothing. -/
theorem parameters_unordered (s : Statement) : s.unordered.parameters d t = s.parameters d t := by
  cases s <;> rfl

/-- A statement is its order clause at a place in the statement without an order. -/
theorem compile_unordered {s : Statement} {q : Query} (h : s.compile d t = .ok q) :
    (ordering t (s.writtenOrder d)).outcome = .ok () ∧
      ∃ before after,
        q.sql = before ++ d.orderClause ((s.writtenOrder d).columns t) ++ after ∧
        s.unordered.compile d t = .ok ⟨before ++ after, q.parameters⟩ := by
  obtain ⟨houtcome, rfl⟩ := query_eq_ok.1 h
  obtain ⟨hclause, hrest, before, after, hsql, hsql'⟩ := s.adds_ordering houtcome
  have hbound : (s.unordered.draft d t).parameters = (s.draft d t).parameters := by
    rw [binds_draft d t s () houtcome, binds_draft d t s.unordered () hrest, parameters_unordered]
  rw [sql_ordering hclause] at hsql
  refine ⟨hclause, before, after ++ ";", ?_, query_eq_ok.2 ⟨hrest, ?_⟩⟩
  · rw [hsql, String.append_assoc]
  · rw [hsql', hbound, String.append_assoc]

end Statement

/-- A document is an order just where its elements say names with directions, and is otherwise
refused for its first bad element or for its kind. A statement that the order is written in has the
clause of the columns that the names stand for, and is otherwise the statement without an order.
There is no clause just for null and for the empty array. -/
theorem SortOrder.clause_of_ofValue (v : Value) :
    ((∃ order, ofValue v = .ok order) ↔ ∃ said, Says v said) ∧
      (∀ e, ofValue v = .error e ↔ Refuses v e) ∧
      ∀ (d : Dialect) (t : Table) (s : Statement) (q : Query),
        ofValue v = .ok (s.writtenOrder d) → s.compile d t = .ok q →
        ∃ said before after, Says v said ∧
          q.sql = before ++ d.orderClause (said.flatMap t.sorted) ++ after ∧
          s.unordered.compile d t = .ok ⟨before ++ after, q.parameters⟩ ∧
          (d.orderClause (said.flatMap t.sorted) = "" ↔ v = .null ∨ v = .array []) := by
  refine ⟨?accepted, fun e => ofValue_eq_error, ?clause⟩
  case accepted =>
    simp only [ofValue_eq_ok]
    exact ⟨fun ⟨_, said, hsaid, _⟩ => ⟨said, hsaid⟩, fun ⟨said, hsaid⟩ => ⟨_, said, hsaid, rfl⟩⟩
  case clause =>
    intro d t s q hread hquery
    obtain ⟨said, hsaid, horder⟩ := ofValue_eq_ok.1 hread
    obtain ⟨hclause, before, after, hsql, hunordered⟩ := Statement.compile_unordered hquery
    rw [← horder, outcome_ordering] at hclause
    rw [← horder, columns_ofSaid] at hsql
    refine ⟨said, before, after, hsaid, hsql, hunordered, ?_⟩
    rw [← hsaid.eq_nil_iff, orderClause_eq_empty]
    cases said with
    | nil => simp
    | cons first rest =>
      obtain ⟨columns, hcolumns, -⟩ := map_eq_ok.1 hclause
      have hne := flatMap_columns_ne_nil (by simp) hcolumns
      refine iff_of_false ?_ (List.cons_ne_nil _ _)
      rw [← columns_ofSaid]
      exact hne

/-- Shipments, told by their depot and a number there. -/
def shipments : Table where
  name := "shipments"
  primaryKey := ["depot", "number"]

/-- The heaviest first, and shipments of one weight by their primary key. -/
def heaviest : Value := .array [.object [("weight", .float ⟨0xBFF0000000000000⟩)], .text "$id"]

/-- A primary key of two columns sorts by both in turn. -/
theorem heaviest_deleted :
    ∃ order q said before after,
      SortOrder.ofValue heaviest = .ok order ∧
        (Statement.delete { order, limit := ⟨some 1⟩ }).compile .mysql shipments = .ok q ∧
        q.sql = "DELETE FROM `shipments` ORDER BY "
          ++ "`weight` DESC, `depot` ASC, `number` ASC LIMIT 1;" ∧
        SortOrder.Says heaviest said ∧
        q.sql = before ++ Dialect.mysql.orderClause (said.flatMap shipments.sorted) ++ after ∧
        Dialect.mysql.orderClause (said.flatMap shipments.sorted) ≠ "" := by
  obtain ⟨-, -, hclause⟩ := SortOrder.clause_of_ofValue heaviest
  obtain ⟨said, before, after, hsaid, hsql, -, hempty⟩ := hclause .mysql shipments
    (.delete { order := .terms [⟨.column "weight", .descending⟩, ⟨.id, .ascending⟩]
               limit := ⟨some 1⟩ }) _ rfl rfl
  have hpresent : ¬ (heaviest = .null ∨ heaviest = .array []) := by simp [heaviest]
  exact ⟨_, _, said, before, after, rfl, rfl, by decide, hsaid, hsql, mt hempty.1 hpresent⟩

end DocumentQuery
