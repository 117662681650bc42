import DocumentQuery.Clause.SortOrder
import DocumentQuery.Proofs.Sql.Condition
import Mathlib.Data.List.Nodup

/-!
# Rows of a database

What a database does with a statement that reads or deletes rows. The clauses behind the name of a
table take some of its rows in three steps: those for which the condition is true, in the order
asked for, and the page of these. How values compare, and which order sorting gives where the
clauses leave a choice, is the matter of the database.
-/

namespace DocumentQuery
set_option autoImplicit false

/-- The direction of a word. -/
def Direction.ofSql? (word : String) : Option Direction :=
  match word with
  | "ASC" => some .ascending
  | "DESC" => some .descending
  | _ => none

namespace Sql

def Token.isWord : Token → Bool
  | .word _ => true
  | _ => false

/-- The rows of each table, with the values of their columns, and what is needed to select of
them. -/
structure Database (α : Type) where
  rows : String → List α
  value : α → Row String
  compare : Comparer
  /-- Rows in the order of the columns. -/
  sorted : List (String × Direction) → List α → List α
  /-- Sorting neither drops a row nor makes one up. -/
  perm : ∀ columns rows, (sorted columns rows).Perm rows

/-! ## Clauses -/

/-- The clauses that take rows of a table. -/
structure Clauses where
  condition : Option Condition
  order : List (String × Direction)
  limit : Option Nat
  offset : Option Nat
  deriving DecidableEq, Inhabited

namespace Clauses

variable {α : Type} (db : Database α)

/-- Whether the condition is true for a row. Where it is unknown the row is not selected. -/
def admits (c : Clauses) (row : α) : Bool :=
  c.condition.all fun condition => condition.holds db.compare (db.value row) = .yes

/-- A page of rows. -/
def page (c : Clauses) (rows : List α) : List α :=
  let found := rows.drop (c.offset.getD 0)
  match c.limit with
  | none => found
  | some n => found.take n

/-- The rows that the clauses take of some. -/
def taken (c : Clauses) (rows : List α) : List α :=
  c.page (db.sorted c.order (rows.filter (c.admits db)))

/-- A page has rows of the table only. -/
theorem page_subset (c : Clauses) (rows : List α) : c.page rows ⊆ rows := by
  intro row hrow
  unfold page at hrow
  cases hlimit : c.limit with
  | none =>
    simp only [hlimit] at hrow
    exact List.mem_of_mem_drop hrow
  | some n =>
    simp only [hlimit] at hrow
    exact List.mem_of_mem_drop (List.mem_of_mem_take hrow)

theorem mem_sorted {columns : List (String × Direction)} {rows : List α} {row : α} :
    row ∈ db.sorted columns rows ↔ row ∈ rows :=
  (db.perm columns rows).mem_iff

/-- What clauses take are rows of the table. -/
theorem taken_subset (c : Clauses) (rows : List α) : c.taken db rows ⊆ rows := by
  intro row hrow
  have hsorted := (mem_sorted db).1 (c.page_subset _ hrow)
  exact (List.mem_filter.1 hsorted).1

/-- A limit that no table reaches is as good as none. -/
theorem taken_of_length_le {condition : Option Condition} {order : List (String × Direction)}
    {offset : Option Nat} {n : Nat} {rows : List α} (h : rows.length ≤ n) :
    (⟨condition, order, some n, offset⟩ : Clauses).taken db rows
      = (⟨condition, order, none, offset⟩ : Clauses).taken db rows := by
  refine List.take_of_length_le ?_
  have hfound := List.length_filter_le
    ((⟨condition, order, some n, offset⟩ : Clauses).admits db) rows
  rw [List.length_drop, (db.perm _ _).length_eq]
  omega

/-! ## Reading clauses -/

/-- The condition of a restriction and what stands behind it. Conditions are made of keywords,
names and signs; the next word begins another clause. -/
def restriction? (ps : List Parameter) : List Token → Option (Option Condition × List Token)
  | .word "WHERE" :: ts =>
    ((Reader.run { parameters := ps } (ts.takeWhile (!·.isWord))).bind Reader.condition?).map
      fun c => (some c, ts.dropWhile (!·.isWord))
  | ts => if ps.isEmpty then some (none, ts) else none

/-- Columns with their directions, and what stands behind them. -/
def columns? : List Token → Option (List (String × Direction) × List Token)
  | .name column :: .word word :: .comma :: ts => do
    let direction ← Direction.ofSql? word
    let (columns, ts) ← columns? ts
    some ((column, direction) :: columns, ts)
  | .name column :: .word word :: ts =>
    (Direction.ofSql? word).map fun direction => ([(column, direction)], ts)
  | _ => none

def order? : List Token → Option (List (String × Direction) × List Token)
  | .word "ORDER" :: .word "BY" :: ts => columns? ts
  | ts => some ([], ts)

def limit? : List Token → Option Nat × List Token
  | .word "LIMIT" :: .number n :: ts => (some n, ts)
  | ts => (none, ts)

def offset? : List Token → Option Nat × List Token
  | .word "OFFSET" :: .number n :: ts => (some n, ts)
  | ts => (none, ts)

/-- The clauses that a list of tokens is. Only the condition has placeholders. -/
def read? (ts : List Token) (ps : List Parameter) : Option Clauses := do
  let (condition, ts) ← restriction? ps ts
  let (order, ts) ← order? ts
  let (limit, ts) := limit? ts
  let (offset, ts) := offset? ts
  if ts.isEmpty then some { condition, order, limit, offset } else none

end Clauses

/-! ## Statements -/

/-- What a query answers: rows with the columns it names, or their number. -/
inductive Answer (α : Type) where
  | rows (columns : List Token) (rows : List α)
  | number (n : Nat)
  deriving DecidableEq, Inhabited

section Statements

variable {α : Type} (db : Database α)

/-- The rows taken of a table by the clauses behind its name. -/
def taken? (ps : List Parameter) : List Token → Option (List α)
  | .name table :: ts => (Clauses.read? ts ps).map fun c => c.taken db (db.rows table)
  | _ => none

/-- The rows that a query is about: those taken of a table, perhaps by a query of its own. -/
def source? (ps : List Parameter) : List Token → Option (List α)
  | .opening :: .word "SELECT" :: .number 1 :: .word "FROM" :: ts =>
    (ts.dropSuffix? [.closing, .word "AS", .name "bounded"]).bind (taken? db ps)
  | ts => taken? db ps ts

/-- What the query of a text answers. -/
def answer? (ps : List Parameter) : List Token → Option (Answer α)
  | .word "SELECT" :: .word "COUNT" :: .opening :: .symbol '*' :: .closing :: .word "AS"
      :: .name "count" :: .word "FROM" :: ts => do
    let body ← ts.dropSuffix? [.symbol ';']
    let rows ← source? db ps body
    some (.number rows.length)
  | .word "SELECT" :: ts => do
    let body ← (ts.dropWhile (· != .word "FROM")).dropPrefix? [.word "FROM"]
    let rows ← (body.dropSuffix? [.symbol ';']).bind (source? db ps)
    some (.rows (ts.takeWhile (· != .word "FROM")) rows)
  | _ => none

section Queries

variable (ps : List Parameter) (table : String) (body : List Token)

/-- A selection answers with the rows that its clauses take. -/
theorem answer?_rows {columns : List Token}
    (hcolumns : ∀ token ∈ columns, token.isWord = false) :
    answer? db ps (.word "SELECT"
        :: (columns ++ .word "FROM" :: .name table :: (body ++ [.symbol ';'])))
      = (taken? db ps (.name table :: body)).map (.rows columns) := by
  have hall : ∀ token ∈ columns, (token != .word "FROM") = true := by
    intro token hmem
    rw [bne_iff_ne]
    rintro rfl
    cases hcolumns _ hmem
  have htake : (columns ++ .word "FROM" :: .name table :: (body ++ [Token.symbol ';'])).takeWhile
      (· != .word "FROM") = columns := by
    rw [List.takeWhile_append_of_pos hall]
    exact List.append_nil columns
  have hdrop : (columns ++ .word "FROM" :: .name table :: (body ++ [Token.symbol ';'])).dropWhile
      (· != .word "FROM") = .word "FROM" :: .name table :: (body ++ [Token.symbol ';']) := by
    rw [List.dropWhile_append_of_pos hall]
    rfl
  have hprefix : (Token.word "FROM" :: .name table :: (body ++ [Token.symbol ';'])).dropPrefix?
      [.word "FROM"] = some (.name table :: (body ++ [.symbol ';'])) := by
    simp [List.dropPrefix?]
  have hsuffix : (Token.name table :: (body ++ [Token.symbol ';'])).dropSuffix? [.symbol ';']
      = some (.name table :: body) :=
    List.dropSuffix?_eq_some_iff.2 ⟨_, rfl, BEq.rfl⟩
  rw [answer?, htake, hdrop, hprefix]
  · simp only [Option.bind_eq_bind, Option.bind_some, hsuffix]
    exact Option.map_eq_bind.symm
  · intro rest heq
    cases columns with
    | nil => exact absurd (List.cons.inj heq).1 (by decide)
    | cons token others =>
      have htoken := hcolumns token (by simp)
      rw [(List.cons.inj heq).1] at htoken
      cases htoken

theorem answer?_count :
    answer? db ps (.word "SELECT" :: .word "COUNT" :: .opening :: .symbol '*' :: .closing
        :: .word "AS" :: .name "count" :: .word "FROM" :: .name table :: (body ++ [.symbol ';']))
      = (taken? db ps (.name table :: body)).map fun rows => .number rows.length := by
  have hsuffix : (Token.name table :: (body ++ [Token.symbol ';'])).dropSuffix? [.symbol ';']
      = some (.name table :: body) :=
    List.dropSuffix?_eq_some_iff.2 ⟨_, rfl, BEq.rfl⟩
  rw [answer?, hsuffix]
  exact Option.map_eq_bind.symm

/-- The number of the rows of an inner query is that of the rows it takes. -/
theorem answer?_bounded :
    answer? db ps (.word "SELECT" :: .word "COUNT" :: .opening :: .symbol '*' :: .closing
        :: .word "AS" :: .name "count" :: .word "FROM" :: .opening :: .word "SELECT" :: .number 1
        :: .word "FROM" :: .name table
        :: (body ++ [.closing, .word "AS", .name "bounded", .symbol ';']))
      = (taken? db ps (.name table :: body)).map fun rows => .number rows.length := by
  have hsuffix : (.opening :: .word "SELECT" :: .number 1 :: .word "FROM" :: .name table
        :: (body ++ [Token.closing, .word "AS", .name "bounded", .symbol ';'])).dropSuffix?
          [.symbol ';']
      = some (.opening :: .word "SELECT" :: .number 1 :: .word "FROM" :: .name table
          :: (body ++ [.closing, .word "AS", .name "bounded"])) :=
    List.dropSuffix?_eq_some_iff.2 ⟨[.symbol ';'], by simp, BEq.rfl⟩
  have hinner : (Token.name table
        :: (body ++ [Token.closing, .word "AS", .name "bounded"])).dropSuffix?
          [.closing, .word "AS", .name "bounded"]
      = some (.name table :: body) :=
    List.dropSuffix?_eq_some_iff.2 ⟨_, rfl, BEq.rfl⟩
  rw [answer?, hsuffix]
  simp only [Option.bind_eq_bind, Option.bind_some, source?, hinner]
  exact Option.map_eq_bind.symm

end Queries

/-- Where row identifiers are unique, the rows with the identifier of a chosen one are the chosen
rows. -/
theorem mem_map_rowId {ι : Type} (rowId : α → ι) {rows chosen : List α}
    (hunique : (rows.map rowId).Nodup) (hchosen : chosen ⊆ rows) {row : α} (hrow : row ∈ rows) :
    rowId row ∈ chosen.map rowId ↔ row ∈ chosen := by
  refine ⟨fun h => ?_, List.mem_map_of_mem⟩
  obtain ⟨other, hother, heq⟩ := List.mem_map.1 h
  rwa [← List.inj_on_of_nodup_map hunique (hchosen hother) hrow heq]

variable {ι : Type} [DecidableEq α] [DecidableEq ι] (rowId : α → ι)

/-- The rows that the deletion of a text leaves in its table. With its clauses behind it, it
deletes the rows that they take; by row identifiers, it deletes every row with the identifier of
one that the inner query takes. -/
def remaining? (ps : List Parameter) : List Token → Option (List α)
  | .word "DELETE" :: .word "FROM" :: .name table :: .word "WHERE" :: .word "ctid"
      :: .keyword .oneOf :: .opening :: .word "SELECT" :: .word "ctid" :: .word "FROM" :: ts => do
    let body ← ts.dropSuffix? [.closing, .symbol ';']
    let chosen ← taken? db ps body
    some ((db.rows table).filter (rowId · ∉ chosen.map rowId))
  | .word "DELETE" :: .word "FROM" :: .name table :: ts => do
    let body ← ts.dropSuffix? [.symbol ';']
    let chosen ← taken? db ps (.name table :: body)
    some ((db.rows table).diff chosen)
  | _ => none

/-- The deletion of a text whose clauses do not speak of row identifiers. -/
theorem remaining?_plain (ps : List Parameter) (table : String) {body : List Token}
    (hbody : ∀ token ∈ body, token ≠ .word "ctid") :
    remaining? db rowId ps
        (.word "DELETE" :: .word "FROM" :: .name table :: (body ++ [.symbol ';']))
      = (taken? db ps (.name table :: body)).map fun chosen => (db.rows table).diff chosen := by
  have hsuffix : (body ++ [Token.symbol ';']).dropSuffix? [.symbol ';'] = some body :=
    List.dropSuffix?_eq_some_iff.2 ⟨_, rfl, BEq.rfl⟩
  rw [remaining?, hsuffix]
  · exact Option.map_eq_bind.symm
  · intro ts heq
    have hmem : Token.word "ctid" ∈ body ++ [.symbol ';'] := by simp [heq]
    rcases List.mem_append.1 hmem with hmem | hmem
    · exact hbody _ hmem rfl
    · simp at hmem

/-- A deletion by row identifiers leaves the rows whose identifiers were not taken. -/
theorem remaining?_byRowId (ps : List Parameter) (table : String) (body : List Token) :
    remaining? db rowId ps
        (.word "DELETE" :: .word "FROM" :: .name table :: .word "WHERE" :: .word "ctid"
          :: .keyword .oneOf :: .opening :: .word "SELECT" :: .word "ctid" :: .word "FROM"
          :: (body ++ [.closing, .symbol ';']))
      = (taken? db ps body).map fun chosen =>
          (db.rows table).filter (rowId · ∉ chosen.map rowId) := by
  have hsuffix : (body ++ [Token.closing, .symbol ';']).dropSuffix? [.closing, .symbol ';']
      = some body :=
    List.dropSuffix?_eq_some_iff.2 ⟨_, rfl, BEq.rfl⟩
  rw [remaining?, hsuffix]
  exact Option.map_eq_bind.symm

/-- Deleting the chosen rows by their identifiers deletes just them. -/
theorem filter_rowId_eq_diff {rows chosen : List α} (hunique : (rows.map rowId).Nodup)
    (hchosen : chosen ⊆ rows) :
    rows.filter (rowId · ∉ chosen.map rowId) = rows.diff chosen := by
  rw [(List.Nodup.of_map rowId hunique).sdiff_eq_filter]
  exact List.filter_congr fun row hrow =>
    decide_eq_decide.2 (not_congr (mem_map_rowId rowId hunique hchosen hrow))

end Statements

end Sql

end DocumentQuery
