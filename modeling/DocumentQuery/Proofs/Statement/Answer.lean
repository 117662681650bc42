import DocumentQuery.Proofs.Draft.Rows
import DocumentQuery.Proofs.Statement.Tokens

/-!
# Answers of queries

What a database answers to the text of a selection or a count: the rows that the clauses of the
statement take, or their number. The number is the same whether the clauses stand in the count
itself or in a query of its own inside it.
-/

namespace DocumentQuery
set_option autoImplicit false

open Draft
open Sql (Clauses Database Token)

variable {d : Dialect} {t : Table}

namespace Draft

/-- The columns of a projection are names, or a star. -/
theorem isWord_projected (projection : Projection) :
    ∀ token ∈ (projected t projection).tokens d, token.isWord = false := by
  have hstar : ∀ token ∈ (Piece.raw "*").tokens d, token.isWord = false := by
    cases d <;> decide
  have hcomma : ∀ token ∈ (Piece.raw ", ").tokens d, token.isWord = false := by
    cases d <;> decide
  have hname : ∀ n, ∀ token ∈ (Piece.name n).tokens d, token.isWord = false := by
    simp [Piece.tokens, Token.isWord]
  have hevery : Every (fun piece => ∀ token ∈ piece.tokens d, token.isWord = false)
      (projected t projection) :=
    every_projected hstar hcomma fun n _ => hname n
  intro token htoken
  obtain ⟨piece, hpiece, hmem⟩ := List.mem_flatMap.1 htoken
  exact hevery piece hpiece token hmem

end Draft

/-! ## Steps of queries -/

/-- A selection, step by step. -/
theorem Select.draft_eq (d : Dialect) (t : Table) (s : Select) :
    s.draft d t = raw "SELECT " >>= fun _ => projected t s.projection >>= fun _ =>
      raw " FROM " >>= fun _ => name t.name >>= fun _ =>
        clauses d t s.selection s.order s.limit s.offset := rfl

theorem Select.outcome_draft (d : Dialect) (t : Table) (s : Select) :
    (s.draft d t).outcome = (projected t s.projection).outcome >>= fun _ =>
      (clauses d t s.selection s.order s.limit s.offset).outcome := by
  rw [draft_eq, outcome_bind_of_ok (outcome_raw _), outcome_bind]
  rfl

/-- A count of the rows that a selection leaves. -/
theorem Count.draft_of_no_page (d : Dialect) (t : Table) {s : Count}
    (h : (s.limit.rows.isNone && s.offset.rows.isNone) = true) :
    s.draft d t = raw "SELECT COUNT(*) AS " >>= fun _ => name "count" >>= fun _ =>
      raw " FROM " >>= fun _ => name t.name >>= fun _ =>
        clauses d t s.selection .unspecified s.limit s.offset := by
  rw [draft, if_pos h]
  rfl

/-- A count of the rows of a page, which an inner query takes. -/
theorem Count.draft_of_page (d : Dialect) (t : Table) {s : Count}
    (h : ¬(s.limit.rows.isNone && s.offset.rows.isNone) = true) :
    s.draft d t = raw "SELECT COUNT(*) AS " >>= fun _ => name "count" >>= fun _ =>
      raw " FROM " >>= fun _ => raw "(SELECT 1 FROM " >>= fun _ =>
        (name t.name >>= fun _ => clauses d t s.selection .unspecified s.limit s.offset)
          >>= fun _ => raw ") AS " >>= fun _ => name "bounded" := by
  rw [draft, if_neg h]
  rfl

theorem Count.outcome_draft (d : Dialect) (t : Table) (s : Count) :
    (s.draft d t).outcome = (clauses d t s.selection .unspecified s.limit s.offset).outcome := by
  by_cases h : (s.limit.rows.isNone && s.offset.rows.isNone) = true
  · rw [draft_of_no_page d t h]
    rfl
  · rw [draft_of_page d t h, outcome_bind_of_ok (outcome_raw _),
      outcome_bind_of_ok (outcome_name _), outcome_bind_of_ok (outcome_raw _),
      outcome_bind_of_ok (outcome_raw _), outcome_bind, outcome_bind_of_ok (outcome_name _)]
    cases (clauses d t s.selection .unspecified s.limit s.offset).outcome <;> rfl

/-! ## Answers -/

section Answers

variable (htable : ∀ n ∈ t.names, d.quote ∉ n.toList) {q : Query} {α : Type} (db : Database α)
include htable

/-- A selection answers the rows that its clauses take. -/
theorem Select.answer?_compile {s : Select}
    (hnames : ∀ n ∈ (Statement.select s).usedNames, d.quote ∉ n.toList)
    (h : (Statement.select s).compile d t = .ok q) :
    Sql.answer? db q.parameters (Sql.lex d q.sql)
      = (s.selection.condition? d t).map fun c =>
          .rows ((projected t s.projection).tokens d)
            (t.taken d db s.order s.limit s.offset c) := by
  rw [Statement.lex_compile htable hnames h]
  obtain ⟨_, houtcome, rfl⟩ := map_eq_ok.1 h
  have hbound : (s.draft d t).parameters = s.selection.parameters :=
    Statement.binds_select d t s () houtcome
  change (s.draft d t).outcome = .ok _ at houtcome
  rw [outcome_draft] at houtcome
  obtain ⟨_, hprojected, hclauses⟩ := bind_eq_ok.1 houtcome
  have hselection : AllClean d (restriction t s.selection) := by
    refine clean_restriction htable fun n hn => hnames n ?_
    simp only [Statement.usedNames, List.flatMap_append, List.mem_append]
    exact .inl (.inr hn)
  have htokens : (s.draft d t).tokens d
      = .word "SELECT" :: ((projected t s.projection).tokens d ++ .word "FROM" :: .name t.name
          :: (clauses d t s.selection s.order s.limit s.offset).tokens d) := by
    have hselect : Sql.lex d "SELECT " = [.word "SELECT"] := by cases d <;> rfl
    have hfrom : Sql.lex d " FROM " = [.word "FROM"] := by cases d <;> rfl
    rw [draft_eq, tokens_bind (outcome_raw _), tokens_bind hprojected, tokens_bind (outcome_raw _),
      tokens_bind (outcome_name _), tokens_raw, tokens_raw, tokens_name, hselect, hfrom]
    rfl
  change Sql.answer? db (s.draft d t).parameters ((s.draft d t).tokens d ++ [.symbol ';']) = _
  rw [htokens, hbound]
  simp only [List.cons_append, List.append_assoc]
  rw [Sql.answer?_rows db _ _ _ (isWord_projected s.projection),
    taken?_clauses db hclauses hselection, Option.map_map]
  rfl

/-- A count answers the number of the rows that its clauses take. -/
theorem Count.answer?_compile {s : Count}
    (hnames : ∀ n ∈ (Statement.count s).usedNames, d.quote ∉ n.toList)
    (h : (Statement.count s).compile d t = .ok q) :
    Sql.answer? db q.parameters (Sql.lex d q.sql)
      = (s.selection.condition? d t).map fun c =>
          .number (t.taken d db .unspecified s.limit s.offset c).length := by
  rw [Statement.lex_compile htable hnames h]
  obtain ⟨_, houtcome, rfl⟩ := map_eq_ok.1 h
  have hbound : (s.draft d t).parameters = s.selection.parameters :=
    Statement.binds_count d t s () houtcome
  have hselection : AllClean d (restriction t s.selection) := clean_restriction htable hnames
  change Sql.answer? db (s.draft d t).parameters ((s.draft d t).tokens d ++ [.symbol ';']) = _
  change (s.draft d t).outcome = .ok _ at houtcome
  rw [outcome_draft] at houtcome
  have hcount : Sql.lex d "SELECT COUNT(*) AS "
      = [.word "SELECT", .word "COUNT", .opening, .symbol '*', .closing, .word "AS"] := by
    cases d <;> rfl
  have hfrom : Sql.lex d " FROM " = [.word "FROM"] := by cases d <;> rfl
  rw [hbound]
  by_cases hpage : (s.limit.rows.isNone && s.offset.rows.isNone) = true
  · rw [draft_of_no_page d t hpage, tokens_bind (outcome_raw _), tokens_bind (outcome_name _),
      tokens_bind (outcome_raw _), tokens_bind (outcome_name _), tokens_raw, tokens_raw,
      tokens_name, tokens_name, hcount, hfrom]
    simp only [List.cons_append, List.nil_append]
    rw [Sql.answer?_count db, taken?_clauses db houtcome hselection, Option.map_map]
    rfl
  · have hinner : Sql.lex d "(SELECT 1 FROM "
        = [.opening, .word "SELECT", .number 1, .word "FROM"] := by cases d <;> rfl
    have hend : Sql.lex d ") AS " = [.closing, .word "AS"] := by cases d <;> rfl
    have hrows : (name t.name >>= fun _ => clauses d t s.selection .unspecified s.limit
        s.offset).outcome = .ok () := houtcome
    rw [draft_of_page d t hpage, tokens_bind (outcome_raw _), tokens_bind (outcome_name _),
      tokens_bind (outcome_raw _), tokens_bind (outcome_raw _), tokens_bind hrows,
      tokens_bind (outcome_name _), tokens_bind (outcome_raw _), tokens_raw, tokens_raw,
      tokens_raw, tokens_raw, tokens_name, tokens_name, tokens_name, hcount, hfrom, hinner, hend]
    simp only [List.cons_append, List.nil_append, List.append_assoc]
    rw [Sql.answer?_bounded db, taken?_clauses db houtcome hselection, Option.map_map]
    rfl

end Answers

end DocumentQuery
