import DocumentQuery.Proofs.Draft.Rows
import DocumentQuery.Proofs.Statement.Tokens

/-!
# Deletion by row identifiers

PostgreSQL deletes without order and limit, so a deletion with a limit selects the identifiers of
the rows to delete. It says the same as the plain deletion, which has its clauses behind the name
of the table: the selection has just these clauses, its parameters are theirs, and it fails where
they fail. Without a limit the order of the rows cannot matter, and cannot fail either.
-/

namespace DocumentQuery
set_option autoImplicit false

open Draft
open Sql (Clauses Database Token)

namespace Delete

/-- The plain deletion: the clauses behind the name of the table. -/
def plain (d : Dialect) (t : Table) (s : Delete) : Except StatementError Query :=
  (s.plainDraft d t).query d

/-- The same deletion twice, plain and by the row identifiers of a selection: the same fault, or
the same clauses with the same parameters. -/
inductive ByRowId (t : Table) : Except StatementError Query → Except StatementError Query → Prop
  | error (e : StatementError) : ByRowId t (.error e) (.error e)
  | ok (suffix : String) (ps : List Parameter) :
    ByRowId t
      (.ok ⟨"DELETE FROM " ++ Dialect.postgres.quoted t.name ++ suffix ++ ";", ps⟩)
      (.ok ⟨"DELETE FROM " ++ Dialect.postgres.quoted t.name ++ " WHERE ctid IN (SELECT ctid FROM "
        ++ Dialect.postgres.quoted t.name ++ suffix ++ ");", ps⟩)

/-- Whether a row of the table satisfies the selection. -/
def Selects {α : Type} (db : Database α) (t : Table) (s : Delete) (row : α) : Prop :=
  s.selection.holds db.compare (t.row (db.value row)) = .yes

instance {α : Type} (db : Database α) (t : Table) (s : Delete) (row : α) :
    Decidable (s.Selects db t row) :=
  inferInstanceAs (Decidable (_ = _))

/-- The rows that a deletion is to leave in its table: with a limit, all but the first of the
selected rows in their order; without one, those that are not selected. -/
def left {α : Type} [DecidableEq α] (db : Database α) (t : Table) (s : Delete) : List α :=
  match s.limit.rows with
  | some n =>
    (db.rows t.name).diff ((db.sorted (s.order.columns t)
      ((db.rows t.name).filter fun row => s.Selects db t row)).take n)
  | none => (db.rows t.name).filter fun row => ¬s.Selects db t row

/-- The clauses behind the name of the table. -/
def suffix (t : Table) (s : Delete) : Draft Unit :=
  clauses .postgres t s.selection s.order s.limit ⟨none⟩

variable {t : Table} {s : Delete}

theorem outcome_plainDraft (t : Table) (s : Delete) :
    (s.plainDraft .postgres t).outcome = (s.suffix t).outcome := by
  rw [plainDraft, outcome_bind_of_ok (outcome_raw _), rows_eq_clauses,
    outcome_bind_of_ok (outcome_name _), suffix]

/-- The deletion with a limit, step by step. -/
theorem draft_of_limit {n : Nat} (hlimit : s.limit.rows = some n) :
    s.draft .postgres t
      = raw "DELETE FROM " >>= fun _ => name t.name >>= fun _ => raw " WHERE ctid IN (" >>= fun _ =>
          s.subselect .postgres t "ctid" >>= fun _ => raw ")" := by
  rw [draft, if_neg (by simp [hlimit])]

theorem outcome_of_limit {n : Nat} (hlimit : s.limit.rows = some n) :
    (s.draft .postgres t).outcome = (s.suffix t).outcome := by
  have hselect : (s.subselect .postgres t "ctid").outcome = (s.suffix t).outcome := rfl
  rw [draft_of_limit hlimit, outcome_bind_of_ok (outcome_raw _),
    outcome_bind_of_ok (outcome_name _), outcome_bind_of_ok (outcome_raw _), outcome_bind, hselect]
  cases (s.suffix t).outcome <;> rfl

/-- The form with row identifiers has the same clauses inside. -/
theorem pieces_of_limit {n : Nat} (hlimit : s.limit.rows = some n)
    (h : (s.suffix t).outcome = .ok ()) :
    (s.draft .postgres t).pieces
      = .raw "DELETE FROM " :: .name t.name :: .raw " WHERE ctid IN (" :: .raw "SELECT "
          :: .raw "ctid" :: .raw " FROM " :: .name t.name
            :: ((s.suffix t).pieces ++ [.raw ")"]) := by
  have hselect : (s.subselect .postgres t "ctid").outcome = .ok () := h
  rw [draft_of_limit hlimit, raw_bind, name_bind, raw_bind, bind_of_ok hselect]
  rfl

/-- Without a limit the order is dropped. -/
theorem draft_of_no_limit (hlimit : s.limit.rows = none) :
    s.draft .postgres t = plainDraft .postgres t { s with order := .unspecified } := by
  rw [draft, if_pos (by simp [hlimit])]

/-! ## Texts -/

section Texts

variable (t) (pieces : List Piece)

theorem finished_plain :
    (Query.ofPieces .postgres (.raw "DELETE FROM " :: .name t.name :: pieces)).finished
      = ⟨"DELETE FROM " ++ Dialect.postgres.quoted t.name
            ++ (Query.ofPieces .postgres pieces).sql ++ ";",
          (Query.ofPieces .postgres pieces).parameters⟩ := by
  have hsql : (Query.ofPieces .postgres (.raw "DELETE FROM " :: .name t.name :: pieces)).sql
      = "DELETE FROM " ++ Dialect.postgres.quoted t.name
          ++ (Query.ofPieces .postgres pieces).sql := by
    simp [Query.ofPieces, Piece.sql, String.append_assoc]
  rw [Query.finished, hsql]
  rfl

/-- The text of a deletion with the same pieces inside a selection of row identifiers. -/
theorem finished_byRowId :
    (Query.ofPieces .postgres (.raw "DELETE FROM " :: .name t.name :: .raw " WHERE ctid IN ("
        :: .raw "SELECT " :: .raw "ctid" :: .raw " FROM " :: .name t.name
        :: (pieces ++ [.raw ")"]))).finished
      = ⟨"DELETE FROM " ++ Dialect.postgres.quoted t.name ++ " WHERE ctid IN (SELECT ctid FROM "
            ++ Dialect.postgres.quoted t.name ++ (Query.ofPieces .postgres pieces).sql ++ ");",
          (Query.ofPieces .postgres pieces).parameters⟩ := by
  have hwords : " WHERE ctid IN (SELECT ctid FROM "
      = " WHERE ctid IN (" ++ ("SELECT " ++ ("ctid" ++ " FROM ")) := rfl
  have hend : ");" = ")" ++ ";" := rfl
  have hparameters : (pieces ++ [Piece.raw ")"]).filterMap Piece.parameter?
      = pieces.filterMap Piece.parameter? := by
    rw [List.filterMap_append]
    exact List.append_nil _
  show Query.mk _ _ = Query.mk _ _
  congr 1
  rw [hwords, hend]
  simp only [Query.ofPieces, List.map_cons, List.map_append, List.map_nil, Piece.sql,
    String.join_cons, String.join_append, String.join_nil, String.append_empty,
    String.append_assoc]

end Texts

/-- A bounded deletion is refused as the plain form is, or has its clauses inside the selection of
row identifiers and its parameters. -/
theorem byRowId_of_limit (t : Table) {n : Nat} (hlimit : s.limit.rows = some n) :
    ByRowId t (s.plain .postgres t) ((Statement.delete s).compile .postgres t) := by
  change ByRowId t ((s.plainDraft .postgres t).query .postgres)
    ((s.draft .postgres t).query .postgres)
  rw [query, query, outcome_of_limit hlimit, outcome_plainDraft]
  cases hsuffix : (s.suffix t).outcome with
  | error e => exact .error e
  | ok u =>
    rw [pieces_of_limit hlimit hsuffix]
    have hplain : (s.plainDraft .postgres t).pieces
        = .raw "DELETE FROM " :: .name t.name :: (s.suffix t).pieces := rfl
    rw [hplain]
    change ByRowId t (.ok _) (.ok _)
    rw [finished_plain, finished_byRowId]
    exact .ok _ _

/-- Without a limit only a key of the selection can make a deletion fail. -/
theorem outcome_of_no_limit (t : Table) (hlimit : s.limit.rows = none) :
    (s.draft .postgres t).outcome = t.single s.selection.keys := by
  rw [draft_of_no_limit hlimit, outcome_plainDraft, suffix, outcome_clauses_unordered]

/-! ## Rows -/

section Rows

variable (htable : ∀ n ∈ t.names, Dialect.postgres.quote ∉ n.toList)
  (hnames : ∀ n ∈ (Statement.delete s).usedNames, Dialect.postgres.quote ∉ n.toList)
include htable hnames

theorem clean_plainDraft : AllClean .postgres (s.plainDraft .postgres t) :=
  every_seq (clean_raw rfl rfl) (clean_rows htable s.limit ⟨none⟩ hnames)

theorem clean_selection : AllClean .postgres (restriction t s.selection) :=
  clean_restriction htable fun n hn => hnames n (by
    rw [Statement.usedNames, List.flatMap_append]
    exact List.mem_append_left _ hn)

variable {α ι : Type} [DecidableEq α] [DecidableEq ι] (db : Database α) (rowId : α → ι)

/-- The plain form leaves the rows that its clauses do not take, each as often as it is there. -/
theorem remaining?_of_plain {p : Query} (h : s.plain .postgres t = .ok p) :
    Sql.remaining? db rowId p.parameters (Sql.lex .postgres p.sql)
      = (s.selection.condition? .postgres t).map fun c =>
          (db.rows t.name).diff (t.taken .postgres db s.order s.limit ⟨none⟩ c) := by
  obtain ⟨_, houtcome, rfl⟩ := map_eq_ok.1 h
  have hbound : (s.plainDraft .postgres t).parameters = s.selection.parameters :=
    binds_skip (binds_raw _) (fun _ _ => binds_rows .postgres t _ _ _ _) () houtcome
  rw [outcome_plainDraft] at houtcome
  have htokens : (s.plainDraft .postgres t).pieces.flatMap (Piece.tokens .postgres)
      = .word "DELETE" :: .word "FROM" :: .name t.name :: (s.suffix t).tokens .postgres := rfl
  have hwords : ∀ token ∈ (s.suffix t).tokens .postgres, token ≠ .word "ctid" := by
    rintro _ hmem rfl
    exact absurd (word_of_clauses houtcome _ hmem) (by decide)
  rw [Query.lex_finished (clean_plainDraft htable hnames)
    (Statement.spaced_plainDelete .postgres t s), htokens]
  change Sql.remaining? db rowId (s.plainDraft .postgres t).parameters
    (.word "DELETE" :: .word "FROM" :: .name t.name :: (_ ++ [.symbol ';'])) = _
  rw [hbound, Sql.remaining?_plain db rowId _ _ hwords, suffix,
    taken?_clauses db houtcome (clean_selection htable hnames), Option.map_map]
  rfl

/-- The form with row identifiers leaves the rows whose identifier no taken row has. -/
theorem remaining?_of_limit {q : Query} {n : Nat} (hlimit : s.limit.rows = some n)
    (h : (Statement.delete s).compile .postgres t = .ok q) :
    Sql.remaining? db rowId q.parameters (Sql.lex .postgres q.sql)
      = (s.selection.condition? .postgres t).map fun c =>
          (db.rows t.name).filter
            (rowId · ∉ (t.taken .postgres db s.order s.limit ⟨none⟩ c).map rowId) := by
  rw [Statement.lex_compile htable hnames h]
  obtain ⟨_, houtcome, rfl⟩ := map_eq_ok.1 h
  have hbound : (s.draft .postgres t).parameters = s.selection.parameters :=
    Statement.binds_delete .postgres t s () houtcome
  change (s.draft .postgres t).outcome = .ok _ at houtcome
  rw [outcome_of_limit hlimit] at houtcome
  have htokens : (s.draft .postgres t).tokens .postgres
      = .word "DELETE" :: .word "FROM" :: .name t.name :: .word "WHERE" :: .word "ctid"
        :: .keyword .oneOf :: .opening :: .word "SELECT" :: .word "ctid" :: .word "FROM"
        :: .name t.name :: ((s.suffix t).tokens .postgres ++ [.closing]) := by
    rw [tokens, pieces_of_limit hlimit houtcome]
    simp only [List.flatMap_cons, List.flatMap_append, Piece.tokens]
    rfl
  change Sql.remaining? db rowId (s.draft .postgres t).parameters
    ((s.draft .postgres t).tokens .postgres ++ [.symbol ';']) = _
  rw [htokens, hbound]
  simp only [List.cons_append, List.append_assoc, List.nil_append]
  have hall := Sql.remaining?_byRowId db rowId s.selection.parameters t.name
    (.name t.name :: (s.suffix t).tokens .postgres)
  rw [List.cons_append] at hall
  rw [hall, suffix, taken?_clauses db houtcome (clean_selection htable hnames), Option.map_map]
  rfl

end Rows

theorem single_of_compile {q : Query} (h : (Statement.delete s).compile .postgres t = .ok q) :
    t.single s.selection.keys = .ok () := by
  obtain ⟨_, houtcome, -⟩ := map_eq_ok.1 h
  change (s.draft .postgres t).outcome = .ok _ at houtcome
  cases hlimit : s.limit.rows with
  | none => rwa [outcome_of_no_limit t hlimit] at houtcome
  | some n =>
    rw [outcome_of_limit hlimit] at houtcome
    exact single_of_clauses houtcome

section Left

variable {α : Type} [DecidableEq α] {db : Database α} {c : Option Sql.Condition}
  (hadmits : ∀ order limit offset row, (⟨c, order, limit, offset⟩ : Clauses).admits db row
    = decide (s.Selects db t row))
include hadmits

/-- With a limit the plain form takes the first rows of the selection in order. -/
theorem diff_taken_of_limit {n : Nat} (hlimit : s.limit.rows = some n) :
    (db.rows t.name).diff (t.taken .postgres db s.order s.limit ⟨none⟩ c) = s.left db t := by
  have hfound : (⟨c, s.order.columns t, some n, none⟩ : Clauses).admits db
      = fun row => decide (s.Selects db t row) := funext (hadmits _ _ _)
  rw [Table.taken, left, Dialect.limitRows_none, hlimit, Clauses.taken, hfound]
  rfl

/-- Deleting all selected rows, in whatever order, leaves those that are not selected. -/
theorem diff_taken_of_no_limit (hlimit : s.limit.rows = none)
    (hunique : (db.rows t.name).Nodup) :
    (db.rows t.name).diff (t.taken .postgres db s.order s.limit ⟨none⟩ c) = s.left db t := by
  rw [hunique.sdiff_eq_filter, left, hlimit]
  refine List.filter_congr fun row hrow => decide_eq_decide.2 (not_congr ?_)
  rw [Table.taken, Dialect.limitRows_none, hlimit]
  change row ∈ (db.sorted _ _).drop 0 ↔ _
  rw [List.drop_zero, Clauses.mem_sorted, List.mem_filter, hadmits]
  simp [hrow]

end Left

/-- Without a limit, the order is dropped. -/
theorem compile_of_no_limit (hlimit : s.limit.rows = none) :
    (Statement.delete s).compile .postgres t
      = plain .postgres t { s with order := .unspecified } := by
  change (s.draft .postgres t).query .postgres = _
  rw [draft_of_no_limit hlimit]
  rfl

section Agreement

variable (htable : ∀ n ∈ t.names, Dialect.postgres.quote ∉ n.toList)
  (hnames : ∀ n ∈ (Statement.delete s).usedNames, Dialect.postgres.quote ∉ n.toList)
  {α ι : Type} [DecidableEq α] [DecidableEq ι] (db : Database α) {rowId : α → ι}
  (hunique : ((db.rows t.name).map rowId).Nodup)

include hunique in
/-- Rows that are told apart by their identifiers are taken away one by one. -/
theorem filter_taken (order : SortOrder) (limit : Limit) (c : Option Sql.Condition) :
    (db.rows t.name).filter (rowId · ∉ (t.taken .postgres db order limit ⟨none⟩ c).map rowId)
      = (db.rows t.name).diff (t.taken .postgres db order limit ⟨none⟩ c) :=
  Sql.filter_rowId_eq_diff rowId hunique (Clauses.taken_subset db _ _)

include htable hnames hunique

/-- Where rows have identifiers of their own, both forms leave the same rows. -/
theorem remaining?_eq_plain {n : Nat} (hlimit : s.limit.rows = some n) {p q : Query}
    (hp : s.plain .postgres t = .ok p) (hq : (Statement.delete s).compile .postgres t = .ok q) :
    Sql.remaining? db rowId q.parameters (Sql.lex .postgres q.sql)
      = Sql.remaining? db rowId p.parameters (Sql.lex .postgres p.sql) := by
  rw [remaining?_of_limit htable hnames db rowId hlimit hq,
    remaining?_of_plain htable hnames db rowId hp]
  simp only [filter_taken db hunique]

/-- A well-formed deletion leaves the rows that it is to leave. -/
theorem remaining?_eq_left (hwell : s.selection.WellFormed) {q : Query}
    (hq : (Statement.delete s).compile .postgres t = .ok q) :
    Sql.remaining? db rowId q.parameters (Sql.lex .postgres q.sql) = some (s.left db t) := by
  have hselection : ∀ n ∈ s.selection.keys.flatMap Key.names,
      Dialect.postgres.quote ∉ n.toList := fun n hn => hnames n (by
    rw [Statement.usedNames, List.flatMap_append]
    exact List.mem_append_left _ hn)
  obtain ⟨c, hread, hadmits⟩ := Selection.admits_condition hwell
    (Table.resolves_of_single htable hselection (single_of_compile hq))
  cases hlimit : s.limit.rows with
  | some n =>
    rw [remaining?_of_limit htable hnames db rowId hlimit hq, hread, Option.map_some,
      filter_taken db hunique, diff_taken_of_limit (hadmits db) hlimit]
  | none =>
    have hplain : plain .postgres t { s with order := .unspecified } = .ok q :=
      (compile_of_no_limit hlimit).symm.trans hq
    have hunordered : ∀ n ∈ (Statement.delete { s with order := .unspecified }).usedNames,
        Dialect.postgres.quote ∉ n.toList := fun n hn => hselection n (by
      simpa [Statement.usedNames, SortOrder.keys] using hn)
    have hleft : (db.rows t.name).diff (t.taken .postgres db .unspecified s.limit ⟨none⟩ c)
        = left db t { s with order := .unspecified } :=
      diff_taken_of_no_limit (s := { s with order := .unspecified }) (hadmits db) hlimit
        (List.Nodup.of_map rowId hunique)
    rw [remaining?_of_plain htable hunordered db rowId hplain, hread, Option.map_some, hleft,
      left, left, hlimit]
    rfl

end Agreement

/-- The deletion of PostgreSQL agrees with the plain one. With a limit, it fails with the same
fault or has the same clauses and parameters, and leaves the same rows where their identifiers are
unique; without one, it is the plain deletion without its order, which cannot make it fail. On a
well-formed selection it leaves the rows that the statement is to leave. -/
theorem postgres_agrees (t : Table) (s : Delete) :
    (∀ n, s.limit.rows = some n →
        ByRowId t (s.plain .postgres t) ((Statement.delete s).compile .postgres t)) ∧
      (s.limit.rows = none →
        (Statement.delete s).compile .postgres t
            = plain .postgres t { s with order := .unspecified } ∧
          ((Statement.delete s).compile .postgres t).map (fun _ => ())
            = t.single s.selection.keys) ∧
      ∀ q, (Statement.delete s).compile .postgres t = .ok q →
        (∀ n ∈ t.names ++ (Statement.delete s).usedNames, Dialect.postgres.quote ∉ n.toList) →
        ∀ {α ι : Type} [DecidableEq α] [DecidableEq ι] (db : Database α) (rowId : α → ι),
          ((db.rows t.name).map rowId).Nodup →
          (∀ n p, s.limit.rows = some n → s.plain .postgres t = .ok p →
            Sql.remaining? db rowId q.parameters (Sql.lex .postgres q.sql)
              = Sql.remaining? db rowId p.parameters (Sql.lex .postgres p.sql)) ∧
          (s.selection.WellFormed →
            Sql.remaining? db rowId q.parameters (Sql.lex .postgres q.sql)
              = some (s.left db t)) := by
  refine ⟨fun n => byRowId_of_limit t, fun hlimit => ⟨compile_of_no_limit hlimit, ?_⟩, ?_⟩
  · rw [← outcome_of_no_limit t hlimit]
    change ((s.draft .postgres t).outcome.map _).map _ = _
    cases (s.draft .postgres t).outcome <;> rfl
  intro q hq hclean α ι _ _ db rowId hunique
  obtain ⟨htable, hnames⟩ := List.forall_mem_append.1 hclean
  exact ⟨fun _ _ hlimit hp => remaining?_eq_plain htable hnames db hunique hlimit hp hq,
    fun hwell => remaining?_eq_left htable hnames db hunique hwell hq⟩

/-- The first two rows of a kind, by a key of two columns. -/
def firstOfKind : Delete :=
  { selection := .matching (.comparison ⟨.eq, .column "kind", .value (.int 1)⟩)
    order := .terms [⟨.id, .descending⟩]
    limit := ⟨some 2⟩ }

/-- Rows numbered by their identifiers, each of some kind, and sorted backwards. -/
def numbered : Database (Nat × Int64) where
  rows _ := [(0, 1), (1, 2), (2, 1), (3, 1)]
  value row _ := .int row.2
  compare _ x p := x == p
  sorted _ rows := rows.reverse
  perm _ rows := rows.reverse_perm

/-- A limit takes two rows off the end; without it all rows of the kind go, although the table
has no key to sort by. -/
theorem firstOfKind_remaining :
    (∃ q, (Statement.delete firstOfKind).compile .postgres
          { name := "events", primaryKey := ["day", "id"] } = .ok q ∧
        Sql.remaining? numbered (·.1) q.parameters (Sql.lex .postgres q.sql)
          = some [(0, 1), (1, 2)]) ∧
      ∃ q, (Statement.delete { firstOfKind with limit := ⟨none⟩ }).compile .postgres
          { name := "events", primaryKey := [] } = .ok q ∧
        Sql.remaining? numbered (·.1) q.parameters (Sql.lex .postgres q.sql)
          = some [(1, 2)] := by
  constructor
  · obtain ⟨-, -, hrows⟩ :=
      postgres_agrees { name := "events", primaryKey := ["day", "id"] } firstOfKind
    obtain ⟨-, hleft⟩ := hrows _ rfl (by decide) numbered (·.1) (by decide)
    exact ⟨_, rfl, hleft trivial⟩
  · obtain ⟨-, -, hrows⟩ := postgres_agrees { name := "events", primaryKey := [] }
      { firstOfKind with limit := ⟨none⟩ }
    obtain ⟨-, hleft⟩ := hrows _ rfl (by decide) numbered (·.1) (by decide)
    exact ⟨_, rfl, hleft trivial⟩

end Delete

end DocumentQuery
