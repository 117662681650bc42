import DocumentQuery.Proofs.Statement.Answer

/-!
# Dialects side by side

The two dialects write selections, counts and insertions alike: with the same pieces, so that the
texts differ in the quotes of identifiers only. There are two exceptions. MySQL has no offset
without a limit and writes a limit that no table reaches, and a row made of defaults only has a
form of its own in each dialect.
-/

namespace DocumentQuery
set_option autoImplicit false

open Draft
open Sql (Clauses Database)

/-- A text of MySQL with the quotes of PostgreSQL. -/
def Dialect.requoted (sql : String) : String :=
  .ofList (sql.toList.map fun c =>
    if c = Dialect.mysql.quote then Dialect.postgres.quote else c)

namespace Statement

/-- The statements that the dialects write alike. -/
inductive Common : Statement → Prop
  | select (s : Select) : Common (.select s)
  | count (s : Count) : Common (.count s)
  | insert (s : Insert) : Common (.insert s)

/-- The offset of a statement without a limit. -/
def offsetAlone? : Statement → Option Nat
  | .select s => if s.limit.rows.isNone then s.offset.rows else none
  | .count s => if s.limit.rows.isNone then s.offset.rows else none
  | _ => none

/-- The rows that a query is about. -/
def selection : Statement → Selection
  | .select s => s.selection
  | .count s => s.selection
  | _ => .everything

/-- How the texts of a statement in the two dialects belong together. -/
inductive SameText (t : Table) : Statement → String → String → Prop
  | defaults :
    SameText t (.insert ⟨[]⟩)
      ("INSERT INTO " ++ Dialect.mysql.quoted t.name ++ " () VALUES ();")
      ("INSERT INTO " ++ Dialect.postgres.quoted t.name ++ " DEFAULT VALUES;")
  | offsetAlone {s : Statement} {m : Nat} {sql before after : String}
    (hoffset : s.offsetAlone? = some m)
    (hsql : Dialect.requoted sql
      = before ++ "LIMIT 18446744073709551615 OFFSET " ++ toString m ++ after) :
    SameText t s sql (before ++ "OFFSET " ++ toString m ++ after)
  | same {s : Statement} (hvalues : ∀ i : Insert, s = .insert i → i.values ≠ [])
    (hoffset : s.offsetAlone? = none) (sql : String) :
    SameText t s sql (Dialect.requoted sql)

end Statement

/-! ## Texts -/

namespace Dialect

theorem requoted_append (sql other : String) :
    requoted (sql ++ other) = requoted sql ++ requoted other := by
  rw [← String.toList_inj]
  simp [requoted]

/-- A text without the quote of MySQL stays as it is. -/
theorem requoted_of_not_mem {sql : String} (h : Dialect.mysql.quote ∉ sql.toList) :
    requoted sql = sql := by
  rw [← String.toList_inj, requoted, String.toList_ofList]
  calc sql.toList.map (fun c => if c = Dialect.mysql.quote then Dialect.postgres.quote else c)
      = sql.toList.map id := List.map_congr_left fun c hc => if_neg (by
        rintro rfl
        exact h hc)
    _ = sql.toList := List.map_id _

end Dialect

/-- A clean piece differs in the two dialects by its quotes only. -/
theorem Piece.requoted_sql {piece : Piece} (h : piece.isClean .mysql = true) :
    Dialect.requoted (piece.sql .mysql) = piece.sql .postgres := by
  cases piece with
  | raw text =>
    refine Dialect.requoted_of_not_mem fun hquote => ?_
    have hplain := List.all_eq_true.1 h _ hquote
    revert hplain
    decide
  | name identifier =>
    have hidentifier := Dialect.requoted_of_not_mem (isClean_name.1 h)
    change Dialect.requoted (_ ++ identifier ++ _) = _
    rw [Dialect.requoted_append, Dialect.requoted_append, hidentifier]
    rfl
  | placeholder p =>
    have hmark : Dialect.mysql.quote ∉ ((placeholder p).sql .mysql).toList := by
      rw [toList_sql_placeholder]
      decide
    exact Dialect.requoted_of_not_mem hmark

namespace Query

/-- The same clean pieces in the two dialects differ in their quotes only. -/
theorem requoted_ofPieces {pieces : List Piece}
    (h : ∀ piece ∈ pieces, piece.isClean .mysql = true) :
    Dialect.requoted (ofPieces .mysql pieces).sql = (ofPieces .postgres pieces).sql := by
  induction pieces with
  | nil => rfl
  | cons piece rest ih =>
    rw [sql_ofPieces_cons, sql_ofPieces_cons, Dialect.requoted_append,
      Piece.requoted_sql (h piece (by simp)),
      ih fun other hmem => h other (List.mem_cons_of_mem _ hmem)]

theorem requoted_finished {pieces : List Piece}
    (h : ∀ piece ∈ pieces, piece.isClean .mysql = true) :
    Dialect.requoted (ofPieces .mysql pieces).finished.sql
      = (ofPieces .postgres pieces).finished.sql := by
  rw [finished, finished, Dialect.requoted_append, requoted_ofPieces h,
    Dialect.requoted_of_not_mem (by decide)]

end Query

namespace Draft

/-- The dialects differ in a page only where there is an offset without a limit. -/
theorem paging_congr {limit : Limit} {offset : Offset}
    (h : (if limit.rows.isNone then offset.rows else none) = none) :
    paging .mysql limit offset = paging .postgres limit offset := by
  obtain ⟨_ | n⟩ := limit
  · obtain ⟨_ | m⟩ := offset
    · rfl
    · cases h
  · obtain ⟨_ | m⟩ := offset <;> rfl

end Draft

namespace Statement

/-! ## Statements of the same pieces -/

/-- Statements that write the same pieces in both dialects. -/
theorem draft_dialect {t : Table} {s : Statement} (hcommon : s.Common)
    (hoffset : s.offsetAlone? = none) (hvalues : ∀ i : Insert, s = .insert i → i.values ≠ []) :
    s.draft .mysql t = s.draft .postgres t := by
  cases hcommon with
  | select s =>
    have hpage : paging .mysql s.limit s.offset = paging .postgres s.limit s.offset :=
      paging_congr hoffset
    simp only [draft, Select.draft, rows, hpage]
  | count s =>
    have hpage : paging .mysql s.limit s.offset = paging .postgres s.limit s.offset :=
      paging_congr hoffset
    simp only [draft, Count.draft, rows, hpage]
  | insert s =>
    have hsome : ¬s.values.isEmpty = true := by simpa using hvalues s rfl
    simp only [draft, Insert.draft, if_neg hsome]

/-- The texts of the same clean pieces are the same up to their quotes. -/
theorem sameText_of_draft_eq {t : Table} {s : Statement} (hoffset : s.offsetAlone? = none)
    (hvalues : ∀ i : Insert, s = .insert i → i.values ≠ [])
    (h : s.draft .mysql t = s.draft .postgres t) (hclean : AllClean .mysql (s.draft .mysql t)) :
    SameText t s (Query.ofPieces .mysql (s.draft .mysql t).pieces).finished.sql
      (Query.ofPieces .postgres (s.draft .postgres t).pieces).finished.sql := by
  rw [← h, ← Query.requoted_finished hclean]
  exact .same hvalues hoffset _

/-! ## An offset without a limit -/

/-- A statement with an offset alone, behind and in front of what both dialects write alike. -/
structure Skipping (t : Table) (s : Statement) (m : Nat) (head tail : Draft Unit) : Prop where
  draft : ∀ d, s.draft d t = head >>= fun _ => paging d ⟨none⟩ ⟨some m⟩ >>= fun _ => tail
  tail : tail.outcome = .ok ()

/-- What a selection writes in front of its page. -/
def selectHead (t : Table) (s : Select) : Draft Unit := do
  raw "SELECT "
  projected t s.projection
  raw " FROM "
  name t.name
  restriction t s.selection
  ordering t s.order

/-- What a count of a page writes in front of it. -/
def countHead (t : Table) (s : Count) : Draft Unit := do
  raw "SELECT COUNT(*) AS "
  name "count"
  raw " FROM "
  raw "(SELECT 1 FROM "
  name t.name
  restriction t s.selection

theorem skipping_select (t : Table) {s : Select} {m : Nat} (hlimit : s.limit = ⟨none⟩)
    (hoffset : s.offset = ⟨some m⟩) : Skipping t (.select s) m (selectHead t s) (pure ()) where
  draft d := by
    have hlast : (paging d s.limit s.offset >>= fun _ => pure ()) = paging d s.limit s.offset := by
      rw [bind_of_ok (outcome_paging d s.limit s.offset), pure_eq, List.append_nil,
        ← outcome_paging d s.limit s.offset]
    rw [← hlimit, ← hoffset, hlast]
    simp only [selectHead, bind_assoc]
    rfl
  tail := rfl

theorem skipping_count (t : Table) {s : Count} {m : Nat} (hlimit : s.limit = ⟨none⟩)
    (hoffset : s.offset = ⟨some m⟩) :
    Skipping t (.count s) m (countHead t s) (raw ") AS " >>= fun _ => name "bounded") where
  draft d := by
    have hpage : ¬(s.limit.rows.isNone && s.offset.rows.isNone) = true := by simp [hoffset]
    rw [← hlimit, ← hoffset]
    change s.draft d t = _
    rw [Count.draft, if_neg hpage]
    simp only [countHead, rows, bind_assoc]
    rfl
  tail := rfl

theorem eq_of_offsetAlone {limit : Limit} {offset : Offset} {m : Nat}
    (h : (if limit.rows.isNone then offset.rows else none) = some m) :
    limit = ⟨none⟩ ∧ offset = ⟨some m⟩ := by
  obtain ⟨_ | n⟩ := limit
  · obtain ⟨rows⟩ := offset
    exact ⟨rfl, congrArg Offset.mk h⟩
  · cases h

/-- Every statement with an offset alone is such a selection or count. -/
theorem exists_skipping (t : Table) {s : Statement} {m : Nat} (h : s.offsetAlone? = some m) :
    ∃ head tail, Skipping t s m head tail := by
  cases s with
  | select s =>
    obtain ⟨hlimit, hoffset⟩ := eq_of_offsetAlone h
    exact ⟨_, _, skipping_select t hlimit hoffset⟩
  | count s =>
    obtain ⟨hlimit, hoffset⟩ := eq_of_offsetAlone h
    exact ⟨_, _, skipping_count t hlimit hoffset⟩
  | delete s => cases h
  | insert s => cases h
  | upsert s => cases h

section Skipping

variable {t : Table} {s : Statement} {m : Nat} {head tail : Draft Unit}
  (h : Skipping t s m head tail)
include h

/-- The page and what is behind it do not fail, so both dialects fail alike. -/
theorem Skipping.outcome (d : Dialect) : (s.draft d t).outcome = head.outcome := by
  have hrest : (paging d ⟨none⟩ ⟨some m⟩ >>= fun _ => tail).outcome = .ok () := by
    rw [outcome_bind_of_ok (outcome_paging d _ _), h.tail]
  rw [h.draft, outcome_bind, hrest]
  cases head.outcome <;> rfl

/-- The dialects differ in the piece of the page only. -/
theorem Skipping.pieces (d : Dialect) (hhead : head.outcome = .ok ()) :
    (s.draft d t).pieces
      = head.pieces ++ ((paging d ⟨none⟩ ⟨some m⟩).pieces ++ tail.pieces) := by
  rw [h.draft, bind_of_ok hhead, bind_of_ok (outcome_paging d _ _)]

theorem Skipping.parameters (d : Dialect) (hhead : head.outcome = .ok ()) :
    (s.draft d t).parameters = head.parameters ++ tail.parameters := by
  have hpage : (paging d ⟨none⟩ ⟨some m⟩).pieces.filterMap Piece.parameter? = [] :=
    binds_paging d _ _ () (outcome_paging d _ _)
  rw [Draft.parameters, h.pieces d hhead, List.filterMap_append, List.filterMap_append, hpage]
  rfl

omit h in
/-- The text of a clause between other pieces. -/
theorem finished_clause (d : Dialect) (before after : List Piece) (clause : String) :
    (Query.ofPieces d (before ++ ([.raw (" " ++ clause)] ++ after))).finished.sql
      = (Query.ofPieces d before).sql ++ " " ++ clause
          ++ ((Query.ofPieces d after).sql ++ ";") := by
  rw [Query.finished, Query.ofPieces_append, Query.ofPieces_append]
  simp [Query.ofPieces, Piece.sql, String.append_assoc]

/-- The texts differ in the quotes and in the limit that MySQL needs in front of the offset. -/
theorem Skipping.sameText (hoffset : s.offsetAlone? = some m) (hhead : head.outcome = .ok ())
    (hclean : AllClean .mysql (s.draft .mysql t)) :
    SameText t s (Query.ofPieces .mysql (s.draft .mysql t).pieces).finished.sql
      (Query.ofPieces .postgres (s.draft .postgres t).pieces).finished.sql := by
  have hmysql : (paging .mysql ⟨none⟩ ⟨some m⟩).pieces
      = [.raw (" " ++ ("LIMIT 18446744073709551615 OFFSET " ++ toString m))] := by
    have hwords : "LIMIT 18446744073709551615 OFFSET "
        = "LIMIT " ++ toString Dialect.maxRows ++ " OFFSET " := by decide
    rw [hwords]
    rfl
  have hpostgres : (paging .postgres ⟨none⟩ ⟨some m⟩).pieces
      = [.raw (" " ++ ("OFFSET " ++ toString m))] := rfl
  let before := (Query.ofPieces .postgres head.pieces).sql ++ " "
  let after := (Query.ofPieces .postgres tail.pieces).sql ++ ";"
  have hleft : Dialect.requoted (Query.ofPieces .mysql (s.draft .mysql t).pieces).finished.sql
      = before ++ "LIMIT 18446744073709551615 OFFSET " ++ toString m ++ after := by
    rw [Query.requoted_finished hclean, h.pieces .mysql hhead, hmysql, finished_clause]
    simp only [before, after, String.append_assoc]
  have hright : (Query.ofPieces .postgres (s.draft .postgres t).pieces).finished.sql
      = before ++ "OFFSET " ++ toString m ++ after := by
    rw [h.pieces .postgres hhead, hpostgres, finished_clause]
    simp only [before, after, String.append_assoc]
  rw [hright]
  exact .offsetAlone hoffset hleft

end Skipping

/-! ## Answers -/

section Answers

variable {t : Table} (htable : ∀ d : Dialect, ∀ n ∈ t.names, d.quote ∉ n.toList)
include htable

/-- Clean clauses are read alike in both dialects. -/
theorem condition?_dialect {selection : Selection}
    (hnames : ∀ d : Dialect, ∀ n ∈ selection.keys.flatMap Key.names, d.quote ∉ n.toList) :
    selection.condition? .mysql t = selection.condition? .postgres t := by
  cases selection with
  | everything => rfl
  | matching node =>
    have htexts : ∀ s ∈ conditionTexts,
        (Piece.raw s).tokens .mysql = (Piece.raw s).tokens .postgres := by decide
    have hevery : Every (fun piece => piece.tokens .mysql = piece.tokens .postgres)
        (condition t false node) :=
      (every_condition htexts fun _ => rfl).1 false node fun _ _ => rfl
    have htokens : (condition t false node).tokens .mysql
        = (condition t false node).tokens .postgres := List.flatMap_congr hevery
    have hread := run_condition (clean_condition (htable .mysql) false (hnames .mysql))
    rw [htokens, run_condition (clean_condition (htable .postgres) false (hnames .postgres))]
      at hread
    rw [Selection.condition?, Selection.condition?, hread]

omit htable in
/-- A projection has the same tokens in both dialects. -/
theorem tokens_projected_dialect (projection : Projection) :
    (projected t projection).tokens .mysql = (projected t projection).tokens .postgres := by
  have hevery : Every (fun piece => piece.tokens .mysql = piece.tokens .postgres)
      (projected t projection) :=
    every_projected (by decide) (by decide) fun _ _ => rfl
  exact List.flatMap_congr hevery

omit htable in
/-- No table with fewer rows than `2 ^ 64` reaches the limit that MySQL writes. -/
theorem taken_dialect {α : Type} (db : Database α) (hrows : (db.rows t.name).length < 2 ^ 64)
    (order : SortOrder) {limit : Limit} {offset : Offset} (c : Option Sql.Condition) :
    t.taken .mysql db order limit offset c = t.taken .postgres db order limit offset c := by
  obtain ⟨_ | n⟩ := limit
  · obtain ⟨_ | m⟩ := offset
    · rfl
    · refine Clauses.taken_of_length_le db ?_
      rw [Dialect.maxRows]
      omega
  · obtain ⟨_ | m⟩ := offset <;> rfl

omit htable in
/-- On clean names the condition of a well-formed selection is read. -/
theorem isSome_condition? {selection : Selection} {d : Dialect}
    (htable : ∀ n ∈ t.names, d.quote ∉ n.toList)
    (hnames : ∀ n ∈ selection.keys.flatMap Key.names, d.quote ∉ n.toList)
    (hsingle : t.single selection.keys = .ok ()) (hwell : selection.WellFormed) :
    (selection.condition? d t).isSome = true := by
  obtain ⟨c, hread, -⟩ :=
    Selection.admits_condition hwell (Table.resolves_of_single htable hnames hsingle)
  rw [hread]
  rfl

/-- Queries of the two dialects have the same answer, and have one where the selection is
well-formed. -/
theorem answer?_dialect {s : Statement}
    (hnames : ∀ d : Dialect, ∀ n ∈ s.usedNames, d.quote ∉ n.toList) {q q' : Query}
    (hmysql : s.compile .mysql t = .ok q) (hpostgres : s.compile .postgres t = .ok q') {m : Nat}
    (hoffset : s.offsetAlone? = some m) {α : Type} (db : Database α)
    (hrows : (db.rows t.name).length < 2 ^ 64) :
    Sql.answer? db q.parameters (Sql.lex .mysql q.sql)
        = Sql.answer? db q'.parameters (Sql.lex .postgres q'.sql) ∧
      (s.selection.WellFormed →
        (Sql.answer? db q.parameters (Sql.lex .mysql q.sql)).isSome = true) := by
  cases s with
  | select s =>
    have hkeys : ∀ d : Dialect, ∀ n ∈ s.selection.keys.flatMap Key.names, d.quote ∉ n.toList := by
      intro d n hn
      refine hnames d n ?_
      simp only [usedNames, List.flatMap_append, List.mem_append]
      exact .inl (.inr hn)
    obtain ⟨_, houtcome, -⟩ := map_eq_ok.1 hmysql
    obtain ⟨_, -, hclauses⟩ := bind_eq_ok.1 ((Select.outcome_draft .mysql t s).symm.trans houtcome)
    rw [Select.answer?_compile (htable .mysql) db (hnames .mysql) hmysql,
      Select.answer?_compile (htable .postgres) db (hnames .postgres) hpostgres,
      condition?_dialect htable hkeys, tokens_projected_dialect, Option.isSome_map]
    simp only [taken_dialect db hrows]
    exact ⟨trivial, isSome_condition? (htable .postgres) (hkeys .postgres)
      (single_of_clauses hclauses)⟩
  | count s =>
    obtain ⟨_, houtcome, -⟩ := map_eq_ok.1 hmysql
    have hclauses := (Count.outcome_draft .mysql t s).symm.trans houtcome
    rw [Count.answer?_compile (htable .mysql) db (hnames .mysql) hmysql,
      Count.answer?_compile (htable .postgres) db (hnames .postgres) hpostgres,
      condition?_dialect htable hnames, Option.isSome_map]
    simp only [taken_dialect db hrows]
    exact ⟨trivial, isSome_condition? (htable .postgres) (hnames .postgres)
      (single_of_clauses hclauses)⟩
  | delete s => cases hoffset
  | insert s => cases hoffset
  | upsert s => cases hoffset

end Answers

/-! ## Both dialects -/

/-- Queries of the two dialects with the same parameters and texts that belong together. Where the
texts differ in the page, both are answered alike by every table with fewer than `2 ^ 64` rows, and
they are answered at all where the selection is well-formed. -/
structure SameQuery (t : Table) (s : Statement) (q q' : Query) : Prop where
  parameters : q.parameters = q'.parameters
  text : SameText t s q.sql q'.sql
  rows : ∀ m, s.offsetAlone? = some m → ∀ {α : Type} (db : Database α),
    (db.rows t.name).length < 2 ^ 64 →
      Sql.answer? db q.parameters (Sql.lex .mysql q.sql)
          = Sql.answer? db q'.parameters (Sql.lex .postgres q'.sql) ∧
        (s.selection.WellFormed →
          (Sql.answer? db q.parameters (Sql.lex .mysql q.sql)).isSome = true)

/-- Drafts that end alike give queries that agree. -/
theorem agree_query {r : Query → Query → Prop} {draft other : Draft Unit}
    (houtcome : other.outcome = draft.outcome)
    (h : draft.outcome = .ok () → r (Query.ofPieces .mysql draft.pieces).finished
      (Query.ofPieces .postgres other.pieces).finished) :
    Agree r (draft.query .mysql) (other.query .postgres) := by
  rw [query, query, houtcome]
  cases hend : draft.outcome with
  | error e => exact .error e
  | ok _ => exact .ok (h hend)

/-- A row made of defaults has no parameters, and a form of its own in each dialect. -/
theorem sameText_defaults (t : Table) :
    SameText t (.insert ⟨[]⟩)
      (Query.ofPieces .mysql (Insert.defaultsDraft .mysql t).pieces).finished.sql
      (Query.ofPieces .postgres (Insert.defaultsDraft .postgres t).pieces).finished.sql := by
  have htext : ∀ (d : Dialect) (after : String),
      (Query.ofPieces d [.raw "INSERT INTO ", .name t.name, .raw after]).finished.sql
        = "INSERT INTO " ++ d.quoted t.name ++ (after ++ ";") := by
    intro d after
    simp [Query.finished, Query.ofPieces, Piece.sql, String.append_assoc]
  have hmysql := htext .mysql " () VALUES ()"
  have hpostgres := htext .postgres " DEFAULT VALUES"
  change SameText t _ (Query.ofPieces .mysql [.raw "INSERT INTO ", .name t.name,
    .raw " () VALUES ()"]).finished.sql (Query.ofPieces .postgres [.raw "INSERT INTO ",
      .name t.name, .raw " DEFAULT VALUES"]).finished.sql
  rw [hmysql, hpostgres]
  exact .defaults

/-- A statement with the same draft in both dialects fails alike, or has the same parameters and the
same text up to the stated exceptions. -/
theorem agree_texts {t : Table} {s : Statement} (hcommon : s.Common)
    (hclean : AllClean .mysql (s.draft .mysql t)) :
    Agree (fun q q' => q.parameters = q'.parameters ∧ SameText t s q.sql q'.sql)
      (s.compile .mysql t) (s.compile .postgres t) := by
  cases hoffset : s.offsetAlone? with
  | some m =>
    obtain ⟨head, tail, h⟩ := exists_skipping t hoffset
    refine agree_query ((h.outcome .postgres).trans (h.outcome .mysql).symm) fun hok => ?_
    have hhead : head.outcome = .ok () := (h.outcome .mysql).symm.trans hok
    exact ⟨(h.parameters .mysql hhead).trans (h.parameters .postgres hhead).symm,
      h.sameText hoffset hhead hclean⟩
  | none =>
    by_cases hdefaults : s = .insert ⟨[]⟩
    · subst hdefaults
      exact agree_query rfl fun _ => ⟨rfl, sameText_defaults t⟩
    · have hvalues : ∀ i : Insert, s = .insert i → i.values ≠ [] := by
        rintro ⟨values⟩ rfl rfl
        exact hdefaults rfl
      have hdraft := draft_dialect hcommon hoffset hvalues (t := t)
      refine agree_query (congrArg Draft.outcome hdraft.symm) fun _ => ⟨?_, ?_⟩
      · exact congrArg Draft.parameters hdraft
      · exact sameText_of_draft_eq hoffset hvalues hdraft hclean

/-- On names without quotes the dialects agree on selections, counts and insertions: both have the
same fault, or both have queries with the same parameters whose texts are the same up to the quotes
of identifiers, an offset without a limit and a row of defaults. -/
theorem dialects_agree {t : Table} {s : Statement} (hcommon : s.Common)
    (hclean : ∀ d : Dialect, ∀ n ∈ t.names ++ s.usedNames, d.quote ∉ n.toList) :
    Agree (SameQuery t s) (s.compile .mysql t) (s.compile .postgres t) := by
  have htable : ∀ d : Dialect, ∀ n ∈ t.names, d.quote ∉ n.toList :=
    fun d n hn => hclean d n (List.mem_append_left _ hn)
  have hnames : ∀ d : Dialect, ∀ n ∈ s.usedNames, d.quote ∉ n.toList :=
    fun d n hn => hclean d n (List.mem_append_right _ hn)
  have hmysql : AllClean .mysql (s.draft .mysql t) := clean_draft (htable .mysql) (hnames .mysql)
  refine (agree_texts hcommon hmysql).imp fun q q' hq hq' h => ?_
  exact { parameters := h.1
          text := h.2
          rows := fun m hoffset _ db hrows =>
            answer?_dialect htable hnames hq hq' hoffset db hrows }

/-- The rows of more than one piece but the first two. -/
def withoutFirstTwo : Select :=
  { selection := .matching (.comparison ⟨.gt, .column "pieces", .value (.int 1)⟩)
    offset := ⟨some 2⟩ }

/-- Behind the quotes only the limit is different, and no table of an address space notices. -/
theorem withoutFirstTwo_agree :
    (Statement.select withoutFirstTwo).compile .mysql { name := "parts" }
        = .ok ⟨"SELECT * FROM " ++ Dialect.mysql.quoted "parts" ++ " WHERE "
            ++ Dialect.mysql.quoted "pieces"
            ++ " > ? LIMIT 18446744073709551615 OFFSET 2;", [.int 1]⟩ ∧
      (Statement.select withoutFirstTwo).compile .postgres { name := "parts" }
        = .ok ⟨"SELECT * FROM " ++ Dialect.postgres.quoted "parts" ++ " WHERE "
            ++ Dialect.postgres.quoted "pieces" ++ " > ? OFFSET 2;", [.int 1]⟩ ∧
      Agree (SameQuery { name := "parts" } (.select withoutFirstTwo))
        ((Statement.select withoutFirstTwo).compile .mysql { name := "parts" })
        ((Statement.select withoutFirstTwo).compile .postgres { name := "parts" }) :=
  ⟨by decide, by decide,
    dialects_agree (.select withoutFirstTwo) fun d => by cases d <;> decide⟩

end Statement

end DocumentQuery
