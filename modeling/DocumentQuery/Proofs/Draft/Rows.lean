import DocumentQuery.Proofs.Draft.Condition
import DocumentQuery.Proofs.Draft.Tokens
import DocumentQuery.Proofs.Sql.Rows

/-!
# Reading rows back

What a database reads in the name of a table and the clauses behind it: the condition of the
selection, the columns of the ordering one by one, and the page. The condition is read as it is
read in a text of its own, so a tree that reads means in a statement what it means by itself.
-/

namespace DocumentQuery
set_option autoImplicit false

open Sql (Clauses Database Token)

/-! ## Clauses of statements -/

/-- The condition that a database reads in the text of a selection. -/
def Selection.condition? (d : Dialect) (t : Table) : Selection → Option (Option Sql.Condition)
  | .everything => some none
  | .matching node =>
    (Sql.read? d (Query.ofPieces d (Draft.condition t false node).pieces)).map some

/-- The columns that a term sorts by. -/
def SortTerm.columns (t : Table) (term : SortTerm) : List (String × Direction) :=
  match t.columnsOf term.key with
  | .ok columns => columns.map fun column => (column, term.direction)
  | .error _ => []

/-- The columns that an order sorts by, one after the other. -/
def SortOrder.columns (t : Table) : SortOrder → List (String × Direction)
  | .unspecified => []
  | .terms ts => ts.flatMap (SortTerm.columns t)

/-- The limit that a dialect writes. -/
def Dialect.limitRows (d : Dialect) (limit : Limit) (offset : Offset) : Option Nat :=
  match d, limit.rows, offset.rows with
  | .mysql, none, some _ => some Dialect.maxRows
  | _, rows, _ => rows

@[simp] theorem Dialect.limitRows_none (d : Dialect) (limit : Limit) :
    d.limitRows limit ⟨none⟩ = limit.rows := by
  obtain ⟨_ | n⟩ := limit <;> cases d <;> rfl

/-- The rows that the clauses of a statement take of its table, where its condition reads as
`c`. -/
def Table.taken {α : Type} (d : Dialect) (t : Table) (db : Database α) (order : SortOrder)
    (limit : Limit) (offset : Offset) (c : Option Sql.Condition) : List α :=
  (⟨c, order.columns t, d.limitRows limit offset, offset.rows⟩ : Clauses).taken db
    (db.rows t.name)

namespace Sql.Clauses

/-! ## Tokens of clauses -/

/-- A column behind others in an ordering. -/
def nextColumn : String × Direction → List Token
  | (column, direction) => [.comma, .name column, .word direction.sql]

def orderTokens : List (String × Direction) → List Token
  | [] => []
  | (column, direction) :: rest =>
    .word "ORDER" :: .word "BY" :: .name column :: .word direction.sql :: rest.flatMap nextColumn

def pageTokens (limit offset : Option Nat) : List Token :=
  limit.elim [] (fun n => [.word "LIMIT", .number n])
    ++ offset.elim [] (fun m => [.word "OFFSET", .number m])

theorem ofSql?_sql (direction : Direction) : Direction.ofSql? direction.sql = some direction := by
  cases direction <;> rfl

/-- Columns with commas between them are read up to what is no comma. -/
theorem columns?_tokens (column : String) (direction : Direction)
    (others : List (String × Direction)) {rest : List Token} (h : rest.head? ≠ some .comma) :
    columns? (.name column :: .word direction.sql :: (others.flatMap nextColumn ++ rest))
      = some ((column, direction) :: others, rest) := by
  induction others generalizing column direction with
  | nil =>
    rw [List.flatMap_nil, List.nil_append, columns?, ofSql?_sql]
    · rfl
    · rintro ts rfl
      exact h rfl
  | cons next others ih =>
    obtain ⟨other, towards⟩ := next
    have hrest := ih other towards
    rw [List.flatMap_cons]
    change columns? (.name column :: .word direction.sql :: .comma :: .name other
      :: .word towards.sql :: (others.flatMap nextColumn ++ rest)) = _
    rw [columns?, hrest, ofSql?_sql]
    rfl

theorem order?_pageTokens (limit offset : Option Nat) :
    order? (pageTokens limit offset) = some ([], pageTokens limit offset) := by
  cases limit <;> cases offset <;> rfl

/-- An order is read up to the page behind it. -/
theorem order?_tokens (columns : List (String × Direction)) (limit offset : Option Nat) :
    order? (orderTokens columns ++ pageTokens limit offset)
      = some (columns, pageTokens limit offset) := by
  cases columns with
  | nil => exact order?_pageTokens limit offset
  | cons first others =>
    obtain ⟨column, direction⟩ := first
    have hpage : (pageTokens limit offset).head? ≠ some .comma := by
      cases limit <;> cases offset <;> simp [pageTokens]
    exact columns?_tokens column direction others hpage

/-- Behind a restriction stands nothing or the word of another clause. -/
theorem head?_tokens (columns : List (String × Direction)) (limit offset : Option Nat) :
    ∀ token ∈ (orderTokens columns ++ pageTokens limit offset).head?,
      token.isWord = true ∧ token ≠ .word "WHERE" := by
  intro token htoken
  cases columns with
  | cons first others =>
    cases htoken
    exact ⟨rfl, by decide⟩
  | nil =>
    cases limit with
    | some n =>
      cases htoken
      exact ⟨rfl, by decide⟩
    | none =>
      cases offset with
      | none => cases htoken
      | some m =>
        cases htoken
        exact ⟨rfl, by decide⟩

/-- The words of clauses. -/
def clauseWords : List String := ["WHERE", "ORDER", "BY", "ASC", "DESC", "LIMIT", "OFFSET"]

/-- The words of an order are words of clauses, and none is the word in front of a restriction. -/
theorem word_of_orderTokens {columns : List (String × Direction)} {word : String}
    (h : .word word ∈ orderTokens columns) :
    word ∈ clauseWords.tail := by
  have hdirection : ∀ direction : Direction, direction.sql ∈ clauseWords.tail := by
    intro direction
    cases direction <;> decide
  cases columns with
  | nil => cases h
  | cons first others =>
    simp only [orderTokens, nextColumn, List.mem_cons, List.mem_flatMap, List.not_mem_nil, or_false,
      Token.word.injEq, reduceCtorEq, false_or] at h
    rcases h with rfl | rfl | rfl | ⟨next, -, rfl⟩
    · decide
    · decide
    · exact hdirection _
    · exact hdirection _

/-- The words of a page are words of clauses, and none is the word in front of a restriction. -/
theorem word_of_pageTokens {limit offset : Option Nat} {word : String}
    (h : .word word ∈ pageTokens limit offset) :
    word ∈ clauseWords.tail := by
  rcases List.mem_append.1 h with h | h
  · cases limit with
    | none => cases h
    | some n =>
      simp only [Option.elim_some, List.mem_cons, Token.word.injEq, reduceCtorEq, List.not_mem_nil,
        or_false] at h
      subst h
      decide
  · cases offset with
    | none => cases h
    | some m =>
      simp only [Option.elim_some, List.mem_cons, Token.word.injEq, reduceCtorEq, List.not_mem_nil,
        or_false] at h
      subst h
      decide

/-- Behind a restriction there is no other. -/
theorem where_notMem_tokens (columns : List (String × Direction)) (limit offset : Option Nat) :
    .word "WHERE" ∉ orderTokens columns ++ pageTokens limit offset := by
  intro h
  rcases List.mem_append.1 h with h | h
  · exact absurd (word_of_orderTokens h) (by decide)
  · exact absurd (word_of_pageTokens h) (by decide)

/-! ## Reading restrictions -/

section Restriction

variable {rest : List Token} (ps : List Parameter)

theorem restriction?_none (h : ∀ token ∈ rest.head?, token ≠ .word "WHERE") :
    restriction? [] rest = some (none, rest) := by
  unfold restriction?
  split
  · exact absurd rfl (h _ rfl)
  · rfl

/-- The tokens of a condition are read up to the next word. -/
theorem restriction?_some {test : List Token} (htest : ∀ token ∈ test, token.isWord = false)
    (h : ∀ token ∈ rest.head?, token.isWord = true) :
    restriction? ps (.word "WHERE" :: (test ++ rest))
      = ((Reader.run { parameters := ps } test).bind Reader.condition?).map
          fun c => (some c, rest) := by
  have hall : ∀ token ∈ test, (!token.isWord) = true := fun token hmem => by
    rw [htest token hmem]
    rfl
  have htake : rest.takeWhile (!·.isWord) = [] := by
    cases rest with
    | nil => rfl
    | cons token others => simp [h token rfl]
  have hdrop : rest.dropWhile (!·.isWord) = rest := by
    cases rest with
    | nil => rfl
    | cons token others => simp [h token rfl]
  rw [restriction?, List.takeWhile_append_of_pos hall, List.dropWhile_append_of_pos hall, htake,
    hdrop, List.append_nil]

end Restriction

end Sql.Clauses

namespace Draft

open Sql.Clauses (nextColumn orderTokens pageTokens)

variable {d : Dialect} {t : Table}

/-! ## Conditions -/

/-- Conditions are made of keywords, names, numbers and signs. -/
theorem isWord_condition (nested : Bool) (node : Node) :
    ∀ token ∈ (condition t nested node).tokens d, token.isWord = false := by
  have htexts : ∀ s ∈ conditionTexts, ∀ token ∈ (Piece.raw s).tokens d, token.isWord = false := by
    cases d <;> decide
  have hplaceholder : ∀ p, ∀ token ∈ (Piece.placeholder p).tokens d, token.isWord = false := by
    simp [Piece.tokens, Token.isWord]
  have hname : ∀ n, ∀ token ∈ (Piece.name n).tokens d, token.isWord = false := by
    simp [Piece.tokens, Token.isWord]
  have hevery : Every (fun piece => ∀ token ∈ piece.tokens d, token.isWord = false)
      (condition t nested node) :=
    (every_condition htexts hplaceholder).1 nested node fun n _ => hname n
  intro token htoken
  obtain ⟨piece, hpiece, hmem⟩ := List.mem_flatMap.1 htoken
  exact hevery piece hpiece token hmem

/-- A condition is read from its tokens as it is read from its text. -/
theorem run_condition {node : Node} (hclean : AllClean d (condition t false node)) :
    (Sql.Reader.run { parameters := (condition t false node).parameters }
        ((condition t false node).tokens d)).bind Sql.Reader.condition?
      = Sql.read? d (Query.ofPieces d (condition t false node).pieces) := by
  rw [Sql.read?, Sql.lex, Query.toList_sql_ofPieces,
    Piece.lexFrom_pieces hclean ((spaced_condition t).1 false node)]
  rfl

theorem tokens_where (node : Node) :
    (restriction t (.matching node)).tokens d
      = .word "WHERE" :: (condition t false node).tokens d := by
  rw [restriction, tokens_bind (outcome_raw _), tokens_raw]
  cases d <;> rfl

/-- What is read of a restriction in front of other clauses. -/
theorem restriction?_tokens {selection : Selection}
    (houtcome : (restriction t selection).outcome = .ok ())
    (hclean : AllClean d (restriction t selection)) {rest : List Token}
    (h : ∀ token ∈ rest.head?, token.isWord = true ∧ token ≠ .word "WHERE") :
    Clauses.restriction? selection.parameters ((restriction t selection).tokens d ++ rest)
      = (selection.condition? d t).map fun c => (c, rest) := by
  cases selection with
  | everything => exact Clauses.restriction?_none fun token htoken => (h token htoken).2
  | matching node =>
    have hnode : (condition t false node).outcome = .ok () := houtcome
    have hbound : (condition t false node).parameters = node.parameters :=
      (binds_condition t).1 false node () hnode
    rw [tokens_where, List.cons_append, Clauses.restriction?_some _ (isWord_condition false node)
      fun token htoken => (h token htoken).1]
    change Option.map _ ((Sql.Reader.run { parameters := node.parameters } _).bind _) = _
    rw [← hbound, run_condition fun piece hpiece => hclean piece (List.mem_cons_of_mem _ hpiece),
      Selection.condition?, Option.map_map]
    rfl

/-! ## Order and page -/

theorem tokens_column (column : String) (direction : Direction) :
    (name column >>= fun _ => raw " " >>= fun _ => raw direction.sql).tokens d
      = [.name column, .word direction.sql] := by
  cases direction <;> cases d <;> rfl

/-- The columns of a term, each with the direction behind it. -/
theorem tokens_directed (direction : Direction) (column : String) (others : List String) :
    (directed direction (column :: others)).tokens d
      = .name column :: .word direction.sql
          :: (others.map fun other => (other, direction)).flatMap nextColumn := by
  induction others generalizing column with
  | nil => exact tokens_column column direction
  | cons second others ih =>
    have hcons : directed direction (column :: second :: others)
        = (name column >>= fun _ => raw " " >>= fun _ => raw direction.sql) >>= fun _ =>
            raw ", " >>= fun _ => directed direction (second :: others) := rfl
    have hcomma : Sql.lex d ", " = [.comma] := by cases d <;> rfl
    rw [hcons, tokens_bind (a := ()) rfl, tokens_bind (outcome_raw _), tokens_column, ih,
      tokens_raw, hcomma]
    rfl

/-- Each column of the terms behind others has a comma in front. -/
theorem tokens_sortTerms {terms : List SortTerm} (h : (sortTerms t true terms).outcome = .ok ()) :
    (sortTerms t true terms).tokens d
      = (terms.flatMap (SortTerm.columns t)).flatMap nextColumn := by
  induction terms with
  | nil => rfl
  | cons term rest ih =>
    cases hcolumns : t.columnsOf term.key with
    | error e =>
      rw [sortTerms, outcome_bind, hcolumns] at h
      cases h
    | ok columns =>
      have hterms : sortTerms t true (term :: rest)
          = raw ", " >>= fun _ => directed term.direction columns >>= fun _ =>
              sortTerms t true rest := by
        rw [sortTerms, hcolumns]
        rfl
      have hdirected := outcome_directed term.direction columns
      rw [hterms, outcome_bind_of_ok (outcome_raw _), outcome_bind_of_ok hdirected] at h
      obtain ⟨column, others, rfl⟩ := List.exists_cons_of_ne_nil (Table.columnsOf_ne_nil hcolumns)
      have hcomma : Sql.lex d ", " = [.comma] := by cases d <;> rfl
      rw [hterms, tokens_bind (outcome_raw _), tokens_bind hdirected, tokens_raw, hcomma,
        tokens_directed, ih h, List.flatMap_cons, List.flatMap_append, SortTerm.columns, hcolumns]
      rfl

/-- An order is the columns of its terms in a row, whichever term they belong to. -/
theorem tokens_ordering {order : SortOrder} (h : (ordering t order).outcome = .ok ()) :
    (ordering t order).tokens d = orderTokens (order.columns t) := by
  rcases order with _ | ⟨_ | ⟨term, rest⟩⟩
  · rfl
  · rfl
  cases hcolumns : t.columnsOf term.key with
  | error e =>
    rw [ordering, outcome_bind_of_ok (outcome_raw _), sortTerms, outcome_bind, hcolumns] at h
    · cases h
    · rintro ⟨⟩
  | ok columns =>
    have hterms : ordering t (.terms (term :: rest))
        = raw " ORDER BY " >>= fun _ => directed term.direction columns >>= fun _ =>
            sortTerms t true rest := by
      rw [ordering, sortTerms, hcolumns]
      · rfl
      · rintro ⟨⟩
    have hdirected := outcome_directed term.direction columns
    rw [hterms, outcome_bind_of_ok (outcome_raw _), outcome_bind_of_ok hdirected] at h
    obtain ⟨column, others, rfl⟩ := List.exists_cons_of_ne_nil (Table.columnsOf_ne_nil hcolumns)
    have hwords : Sql.lex d " ORDER BY " = [.word "ORDER", .word "BY"] := by cases d <;> rfl
    rw [hterms, tokens_bind (outcome_raw _), tokens_bind hdirected, tokens_raw, hwords,
      tokens_directed, tokens_sortTerms h, SortOrder.columns, List.flatMap_cons, SortTerm.columns,
      hcolumns]
    simp [orderTokens]

theorem lexFrom_limit (n : Nat) {rest : List Char} (h : Sql.EndsWord rest) :
    Sql.lexFrom d .blank (" LIMIT ".toList ++ ((toString n).toList ++ rest))
      = .word "LIMIT" :: .number n :: Sql.lexFrom d .blank rest := by
  have hword : Sql.lexFrom d .blank (" LIMIT ".toList ++ ((toString n).toList ++ rest))
      = .word "LIMIT" :: Sql.lexFrom d .blank ((toString n).toList ++ rest) := by
    cases d <;> rfl
  rw [hword, Sql.lexFrom_nat n h]

theorem lexFrom_offset (m : Nat) :
    Sql.lexFrom d .blank (" OFFSET ".toList ++ (toString m).toList)
      = [.word "OFFSET", .number m] := by
  have hword : Sql.lexFrom d .blank (" OFFSET ".toList ++ (toString m).toList)
      = .word "OFFSET" :: Sql.lexFrom d .blank ((toString m).toList ++ []) := by
    rw [List.append_nil]
    cases d <;> rfl
  rw [hword, Sql.lexFrom_nat m Sql.endsWord_nil]
  rfl

/-- A page is the limit that the dialect writes and the offset. -/
theorem tokens_paging (limit : Limit) (offset : Offset) :
    (paging d limit offset).tokens d = pageTokens (d.limitRows limit offset) offset.rows := by
  have hlimit : ∀ n : Nat,
      Sql.lex d (" " ++ ("LIMIT " ++ toString n)) = pageTokens (some n) none := by
    intro n
    have hchars : (" " ++ ("LIMIT " ++ toString n)).toList
        = " LIMIT ".toList ++ ((toString n).toList ++ []) := by simp
    rw [Sql.lex, hchars, lexFrom_limit n Sql.endsWord_nil]
    rfl
  have hoffset : ∀ m : Nat,
      Sql.lex d (" " ++ ("OFFSET " ++ toString m)) = pageTokens none (some m) := by
    intro m
    have hchars : (" " ++ ("OFFSET " ++ toString m)).toList
        = " OFFSET ".toList ++ (toString m).toList := by simp
    rw [Sql.lex, hchars, lexFrom_offset]
    rfl
  have hboth : ∀ n m : Nat, Sql.lex d (" " ++ ("LIMIT " ++ toString n ++ " OFFSET " ++ toString m))
      = pageTokens (some n) (some m) := by
    intro n m
    have hchars : (" " ++ ("LIMIT " ++ toString n ++ " OFFSET " ++ toString m)).toList
        = " LIMIT ".toList ++ ((toString n).toList
            ++ (" OFFSET ".toList ++ (toString m).toList)) := by simp
    have hends : Sql.EndsWord (" OFFSET ".toList ++ (toString m).toList) :=
      Sql.endsWord_cons (by decide) _
    rw [Sql.lex, hchars, lexFrom_limit n hends, lexFrom_offset]
    rfl
  unfold paging Dialect.paging? Dialect.limitRows
  rcases limit with ⟨_ | n⟩ <;> rcases offset with ⟨_ | m⟩
  · cases d <;> rfl
  · cases d with
    | mysql => exact (tokens_raw _).trans (hboth _ m)
    | postgres => exact (tokens_raw _).trans (hoffset m)
  · cases d <;> exact (tokens_raw _).trans (hlimit n)
  · cases d <;> exact (tokens_raw _).trans (hboth n m)

/-! ## Rows -/

section Rows

variable {selection : Selection} {order : SortOrder} {limit : Limit} {offset : Offset}

/-- The clauses behind the name of a table. -/
def clauses (d : Dialect) (t : Table) (selection : Selection) (order : SortOrder) (limit : Limit)
    (offset : Offset) : Draft Unit := do
  restriction t selection
  ordering t order
  paging d limit offset

theorem rows_eq_clauses (d : Dialect) (t : Table) (selection : Selection) (order : SortOrder)
    (limit : Limit) (offset : Offset) :
    rows d t selection order limit offset
      = name t.name >>= fun _ => clauses d t selection order limit offset := rfl

/-- Clauses fail with the restriction, then with the order. -/
theorem outcome_clauses :
    (clauses d t selection order limit offset).outcome
      = (restriction t selection).outcome >>= fun _ => (ordering t order).outcome := by
  rw [clauses, outcome_bind]
  congr
  funext _
  rw [outcome_bind, outcome_paging]
  cases (ordering t order).outcome <;> rfl

/-- Clauses without an order fail with the restriction only. -/
theorem outcome_clauses_unordered :
    (clauses d t selection .unspecified limit offset).outcome = t.single selection.keys := by
  rw [outcome_clauses, outcome_restriction]
  cases t.single selection.keys <;> rfl

/-- Clauses that can be written have a selection whose keys are single columns. -/
theorem single_of_clauses (h : (clauses d t selection order limit offset).outcome = .ok ()) :
    t.single selection.keys = .ok () := by
  rw [outcome_clauses, outcome_restriction] at h
  obtain ⟨_, hsingle, -⟩ := bind_eq_ok.1 h
  exact hsingle

/-- The tokens of clauses are those of the restriction, of the order and of the page. -/
theorem tokens_clauses (h : (clauses d t selection order limit offset).outcome = .ok ()) :
    (clauses d t selection order limit offset).tokens d
      = (restriction t selection).tokens d
          ++ (orderTokens (order.columns t)
            ++ pageTokens (d.limitRows limit offset) offset.rows) := by
  rw [outcome_clauses] at h
  obtain ⟨_, hrestriction, hordering⟩ := bind_eq_ok.1 h
  rw [clauses, tokens_bind hrestriction, tokens_bind hordering, tokens_ordering hordering,
    tokens_paging]

/-- The words of clauses are their own, so clauses do not speak of anything else. -/
theorem word_of_clauses (h : (clauses d t selection order limit offset).outcome = .ok ()) :
    ∀ word, .word word ∈ (clauses d t selection order limit offset).tokens d →
      word ∈ Clauses.clauseWords := by
  intro word hword
  rw [tokens_clauses h, List.mem_append, List.mem_append] at hword
  rcases hword with hword | hword | hword
  · cases selection with
    | everything => cases hword
    | matching node =>
      rw [tokens_where] at hword
      rcases List.mem_cons.1 hword with heq | hmem
      · cases heq
        decide
      · exact absurd (isWord_condition false node _ hmem) (by simp [Token.isWord])
  · exact List.mem_of_mem_tail (Clauses.word_of_orderTokens hword)
  · exact List.mem_of_mem_tail (Clauses.word_of_pageTokens hword)

/-- What a database takes of a table by the clauses behind its name. -/
theorem taken?_clauses {α : Type} (db : Database α)
    (h : (clauses d t selection order limit offset).outcome = .ok ())
    (hclean : AllClean d (restriction t selection)) :
    Sql.taken? db selection.parameters
        (.name t.name :: (clauses d t selection order limit offset).tokens d)
      = (selection.condition? d t).map (t.taken d db order limit offset) := by
  have houtcome := h
  rw [outcome_clauses] at houtcome
  obtain ⟨_, hrestriction, -⟩ := bind_eq_ok.1 houtcome
  have hbehind := Clauses.head?_tokens (order.columns t) (d.limitRows limit offset) offset.rows
  have hread : Clauses.read? ((clauses d t selection order limit offset).tokens d)
        selection.parameters
      = (selection.condition? d t).map fun c =>
          ⟨c, order.columns t, d.limitRows limit offset, offset.rows⟩ := by
    rw [tokens_clauses h, Clauses.read?, restriction?_tokens hrestriction hclean hbehind]
    cases selection.condition? d t with
    | none => rfl
    | some c =>
      simp only [Option.map_some, Option.bind_eq_bind, Option.bind_some, Clauses.order?_tokens]
      cases d.limitRows limit offset <;> cases offset.rows <;> rfl
  rw [Sql.taken?, hread, Option.map_map]
  rfl

end Rows

end Draft

/-! ## Meaning of restrictions -/

/-- The trees that are well-formed. -/
def Selection.WellFormed : Selection → Prop
  | .everything => True
  | .matching node => node.WellFormed

/-- Keys that stand for one column each, of a table and of names without the quote. -/
theorem Table.resolves_of_single {d : Dialect} {t : Table} {keys : List Key}
    (htable : ∀ n ∈ t.names, d.quote ∉ n.toList)
    (hnames : ∀ n ∈ keys.flatMap Key.names, d.quote ∉ n.toList)
    (h : t.single keys = .ok ()) : t.Resolves d keys := by
  induction keys with
  | nil =>
    intro key hkey
    cases hkey
  | cons key rest ih =>
    obtain ⟨column, hcolumn, hrest⟩ := bind_eq_ok.1 h
    have hothers := ih (fun n hn => hnames n (List.mem_append_right _ hn)) hrest
    intro other hother
    rcases List.mem_cons.1 hother with rfl | hother
    · refine ⟨column, hcolumn, ?_⟩
      rcases List.mem_append.1 (Table.column_mem hcolumn) with hkey | hname
      · exact htable column (by simp [Table.names, hkey])
      · exact hnames column (List.mem_append_left _ hname)
    · exact hothers other hother

/-- The condition of a well-formed selection is true for the rows that satisfy it. -/
theorem Selection.admits_condition {d : Dialect} {t : Table} {selection : Selection}
    (hwell : selection.WellFormed) (hkeys : t.Resolves d selection.keys) :
    ∃ c, selection.condition? d t = some c ∧
      ∀ {α : Type} (db : Database α) (order : List (String × Direction))
        (limit offset : Option Nat) (row : α),
        (⟨c, order, limit, offset⟩ : Clauses).admits db row
          = decide (selection.holds db.compare (t.row (db.value row)) = .yes) := by
  cases selection with
  | everything => exact ⟨none, rfl, fun _ _ _ _ _ => rfl⟩
  | matching node =>
    obtain ⟨hwhole, -⟩ := (Draft.reads_condition d t).1 false node hwell hkeys
    obtain ⟨c, hread, hholds⟩ := hwhole.read?
    refine ⟨some c, by rw [Selection.condition?, hread]; rfl, fun db order limit offset row => ?_⟩
    rw [Clauses.admits, Option.all_some, hholds]
    rfl

end DocumentQuery
