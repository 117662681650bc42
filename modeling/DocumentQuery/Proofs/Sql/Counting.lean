import DocumentQuery.Proofs.Sql.Rows
import DocumentQuery.Proofs.Sql.Spelling

/-!
# Counts of selected rows

A selection and a count with the same text behind the word FROM. A database answers the count with
the number of the rows that it answers the selection with. This holds for any text that begins with
a quoted name: one that leaves a quote open swallows the end of both statements, and then neither of
them has an answer.
-/

namespace DocumentQuery
set_option autoImplicit false

namespace Sql

variable {α : Type} {d : Dialect}

/-- An answer with its rows counted. -/
def Answer.counted : Answer α → Answer α
  | .rows _ found => .number found.length
  | .number n => .number n

/-- A selection of all columns, with `rest` behind FROM. -/
def selectText (rest : String) : String := "SELECT * FROM " ++ rest ++ ";"

/-- A count with `rest` behind FROM, in a table of its own where it is paged. -/
def countText (d : Dialect) (paged : Bool) (rest : String) : String :=
  if paged then
    "SELECT COUNT(*) AS " ++ d.quoted "count" ++ " FROM (SELECT 1 FROM " ++ rest
      ++ (") AS " ++ d.quoted "bounded" ++ ";")
  else
    "SELECT COUNT(*) AS " ++ d.quoted "count" ++ " FROM " ++ rest ++ ";"

/-! ## Open quotes -/

/-- What is unfinished at the end of a text is its last token. -/
theorem lexFrom_eq_append_flush (p : Pending) (cs : List Char) :
    ∃ ts, lexFrom d p cs = ts ++ (pendingAfter d p cs).flush := by
  induction cs generalizing p with
  | nil => exact ⟨[], rfl⟩
  | cons c rest ih =>
    obtain ⟨ts, hts⟩ := ih (p.step d c).2
    refine ⟨(p.step d c).1 ++ ts, ?_⟩
    rw [lexFrom, hts, List.append_assoc]
    rfl

/-- Only texts that end with a semicolon are answered. -/
theorem exists_semicolon_of_answer? {db : Database α} {ps : List Parameter} {ts : List Token}
    {answer : Answer α} (h : answer? db ps ts = some answer) :
    ∃ front, ts = front ++ [.symbol ';'] := by
  have hsuffix : ∀ {ts body : List Token}, ts.dropSuffix? [.symbol ';'] = some body →
      ts = body ++ [.symbol ';'] := by
    intro ts body hbody
    obtain ⟨end', hts, hend⟩ := List.dropSuffix?_eq_some_iff.1 hbody
    rw [hts, eq_of_beq hend]
  unfold answer? at h
  split at h
  · obtain ⟨body, hbody, -⟩ := Option.bind_eq_some_iff.1 h
    rw [hsuffix hbody]
    exact ⟨_ :: _ :: _ :: _ :: _ :: _ :: _ :: _ :: body, rfl⟩
  · next ts _ =>
    obtain ⟨body, hbody, hrows⟩ := Option.bind_eq_some_iff.1 h
    obtain ⟨rows, hrows, -⟩ := Option.bind_eq_some_iff.1 hrows
    obtain ⟨inner, hinner, -⟩ := Option.bind_eq_some_iff.1 hrows
    obtain ⟨from', hfrom, -⟩ := List.dropPrefix?_eq_some_iff.1 hbody
    have hts : ts = ts.takeWhile (· != .word "FROM") ++ (from' ++ (inner ++ [.symbol ';'])) := by
      rw [← hsuffix hinner, ← hfrom, List.takeWhile_append_dropWhile]
    exact ⟨.word "SELECT" :: (ts.takeWhile (· != .word "FROM") ++ (from' ++ inner)), by
      rw [List.cons_append, List.append_assoc, List.append_assoc, ← hts]⟩
  · cases h

/-- A text that ends between the quotes of a name is not answered. -/
theorem answer?_of_open (db : Database α) (ps : List Parameter) {sql : String} {read : List Char}
    (h : pendingAfter d .blank sql.toList = .name read) : answer? db ps (lex d sql) = none := by
  obtain ⟨ts, hts⟩ := lexFrom_eq_append_flush (d := d) .blank sql.toList
  rw [h] at hts
  rw [lex, hts, Option.eq_none_iff_forall_ne_some]
  intro answer hanswer
  obtain ⟨front, hfront⟩ := exists_semicolon_of_answer? hanswer
  have hlast : [Token.unclosed] = [.symbol ';'] := (List.append_inj' hfront rfl).2
  cases hlast

/-- A name that is not left open is a token of its own, whatever stands behind it. -/
theorem exists_name_of_outside {cs : List Char} : ∀ {read : List Char},
    ((pendingAfter d (.name read) cs).outside = true →
      ∃ n body, lexFrom d (.name read) cs = .name n :: body) ∧
    ((pendingAfter d (.closed read) cs).outside = true →
      ∃ n body, lexFrom d (.closed read) cs = .name n :: body) := by
  induction cs with
  | nil =>
    intro read
    exact ⟨nofun, fun _ => ⟨_, [], rfl⟩⟩
  | cons c rest ih =>
    intro read
    constructor
    · intro h
      rw [pendingAfter, List.foldl_cons] at h
      by_cases hc : c = d.quote
      · have hstep : (Pending.name read).step d c = ([], .closed read) := by
          simp [Pending.step, Pending.extend?, hc]
        rw [hstep] at h
        rw [lexFrom, hstep, List.nil_append]
        exact ih.2 h
      · have hstep : (Pending.name read).step d c = ([], .name (c :: read)) := by
          simp [Pending.step, Pending.extend?, hc]
        rw [hstep] at h
        rw [lexFrom, hstep, List.nil_append]
        exact ih.1 h
    · intro h
      by_cases hc : c = d.quote
      · have hstep : (Pending.closed read).step d c = ([], .name (c :: read)) := by
          simp [Pending.step, Pending.extend?, hc]
        rw [pendingAfter, List.foldl_cons, hstep] at h
        rw [lexFrom, hstep, List.nil_append]
        exact ih.1 h
      · rw [lexFrom_flush (by simp [Pending.extend?, hc])]
        exact ⟨_, _, rfl⟩

/-! ## Framed texts -/

section Framed

variable {head rest tail : String} (hhead : pendingAfter d .blank head.toList = .blank)
include hhead

/-- A text between two others is split apart from both where it ends outside of quotes and a gap is
behind it. -/
theorem lex_framed (hrest : (pendingAfter d .blank rest.toList).outside = true)
    (htail : hasGap tail.toList = true) :
    lex d (head ++ rest ++ tail)
      = lex d head ++ (lexFrom d .blank rest.toList ++ lex d tail) := by
  have hbehind := lexFrom_append .blank (Pending.extend?_of_hasGap hrest htail)
  have hfresh : ∀ c ∈ (rest.toList ++ tail.toList).head?,
      (pendingAfter d .blank head.toList).extend? d c = none := by
    simp [hhead, Pending.extend?]
  rw [lex, String.toList_append, String.toList_append, List.append_assoc,
    lexFrom_append .blank hfresh, hbehind]
  rfl

theorem pendingAfter_framed :
    pendingAfter d .blank (head ++ rest ++ tail).toList
      = pendingAfter d (pendingAfter d .blank rest.toList) tail.toList := by
  rw [String.toList_append, String.toList_append, pendingAfter_append, pendingAfter_append, hhead]

end Framed

/-! ## Selections and counts -/

section Counts

variable (db : Database α) (ps : List Parameter) {rest : String}

/-- A selection answers with what its clauses take. -/
theorem answer?_selectText {table : String} {body : List Token}
    (hrest : (pendingAfter d .blank rest.toList).outside = true)
    (hlex : lexFrom d .blank rest.toList = .name table :: body) :
    answer? db ps (lex d (selectText rest))
      = (taken? db ps (.name table :: body)).map (.rows [.symbol '*']) := by
  have hhead : pendingAfter d .blank "SELECT * FROM ".toList = .blank := by cases d <;> rfl
  have hwords : lex d "SELECT * FROM " = [.word "SELECT", .symbol '*', .word "FROM"] := by
    cases d <;> rfl
  have hend : lex d ";" = [.symbol ';'] := by cases d <;> rfl
  unfold selectText
  rw [lex_framed hhead hrest (by decide), hwords, hlex, hend]
  have hstar : ∀ token ∈ [Token.symbol '*'], token.isWord = false := by decide
  exact answer?_rows db ps table body hstar

/-- What stands in front of the text behind FROM. -/
def countHead (d : Dialect) (paged : Bool) : String :=
  "SELECT COUNT(*) AS " ++ d.quoted "count" ++ (if paged then " FROM (SELECT 1 FROM " else " FROM ")

def countTail (d : Dialect) (paged : Bool) : String :=
  if paged then ") AS " ++ d.quoted "bounded" ++ ";" else ";"

theorem countText_eq (paged : Bool) :
    countText d paged rest = countHead d paged ++ rest ++ countTail d paged := by
  cases paged <;> rfl

theorem pendingAfter_countHead (paged : Bool) :
    pendingAfter d .blank (countHead d paged).toList = .blank := by
  cases d <;> cases paged <;> decide

/-- A count answers with the number of rows that its clauses take. -/
theorem answer?_countText (paged : Bool) {table : String} {body : List Token}
    (hrest : (pendingAfter d .blank rest.toList).outside = true)
    (hlex : lexFrom d .blank rest.toList = .name table :: body) :
    answer? db ps (lex d (countText d paged rest))
      = (taken? db ps (.name table :: body)).map fun rows => .number rows.length := by
  have hgap : hasGap (countTail d paged).toList = true := by
    cases d <;> cases paged <;> decide
  rw [countText_eq, lex_framed (pendingAfter_countHead paged) hrest hgap, hlex]
  cases paged with
  | false =>
    have hhead : lex d (countHead d false) = [.word "SELECT", .word "COUNT", .opening, .symbol '*',
        .closing, .word "AS", .name "count", .word "FROM"] := by cases d <;> decide
    have htail : lex d (countTail d false) = [.symbol ';'] := by cases d <;> decide
    rw [hhead, htail]
    exact answer?_count db ps table body
  | true =>
    have hhead : lex d (countHead d true) = [.word "SELECT", .word "COUNT", .opening, .symbol '*',
        .closing, .word "AS", .name "count", .word "FROM", .opening, .word "SELECT", .number 1,
        .word "FROM"] := by cases d <;> decide
    have htail : lex d (countTail d true)
        = [.closing, .word "AS", .name "bounded", .symbol ';'] := by cases d <;> decide
    rw [hhead, htail]
    exact answer?_bounded db ps table body

/-- Behind an open quote the end of a statement leaves one open too. -/
theorem pendingAfter_countTail (paged : Bool) (read : List Char) :
    ∃ longer, pendingAfter d (.name read) (countTail d paged).toList = .name longer := by
  cases paged with
  | false => exact ⟨';' :: read, by cases d <;> rfl⟩
  | true =>
    have hchars : (countTail d true).toList
        = ") AS ".toList ++ d.quote :: ("bounded".toList ++ [d.quote, ';']) := by
      simp [countTail, Dialect.quoted]
    exact ⟨[';'], by rw [hchars]; cases d <;> rfl⟩

/-- Neither statement is answered where its text leaves a quote open. -/
theorem answer?_of_open_rest {read : List Char}
    (hrest : pendingAfter d .blank rest.toList = .name read) (paged : Bool) :
    answer? db ps (lex d (selectText rest)) = none ∧
      answer? db ps (lex d (countText d paged rest)) = none := by
  constructor
  · have hhead : pendingAfter d .blank "SELECT * FROM ".toList = .blank := by cases d <;> rfl
    have hend : pendingAfter d (.name read) ";".toList = .name (';' :: read) := by
      cases d <;> rfl
    have hopen : pendingAfter d .blank (selectText rest).toList = .name (';' :: read) := by
      unfold selectText
      rw [pendingAfter_framed hhead, hrest, hend]
    exact answer?_of_open db ps hopen
  · obtain ⟨longer, hlonger⟩ := pendingAfter_countTail (d := d) paged read
    have hopen : pendingAfter d .blank (countText d paged rest).toList = .name longer := by
      rw [countText_eq, pendingAfter_framed (pendingAfter_countHead paged), hrest, hlonger]
    exact answer?_of_open db ps hopen

/-- A count answers the number of the rows that the selection with the same text answers. -/
theorem answer?_count_eq_counted (hname : rest.toList.head? = some d.quote) (paged : Bool) :
    answer? db ps (lex d (countText d paged rest))
      = (answer? db ps (lex d (selectText rest))).map Answer.counted := by
  cases hpending : (pendingAfter d .blank rest.toList).outside with
  | false =>
    obtain ⟨read, hread⟩ : ∃ read, pendingAfter d .blank rest.toList = .name read := by
      cases hp : pendingAfter d .blank rest.toList with
      | name read => exact ⟨read, rfl⟩
      | _ => simp [hp, Pending.outside] at hpending
    obtain ⟨hselect, hcount⟩ := answer?_of_open_rest db ps hread paged
    rw [hselect, hcount]
    rfl
  | true =>
    obtain ⟨cs, hcs⟩ : ∃ cs, rest.toList = d.quote :: cs := by
      cases hrest : rest.toList with
      | nil => simp [hrest] at hname
      | cons c cs => exact ⟨cs, by simpa [hrest] using hname⟩
    have hstep : Pending.blank.step d d.quote = ([], .name []) := by
      simp [Pending.step, Pending.extend?, Pending.start, Pending.flush]
    have hquoted := hpending
    rw [hcs, pendingAfter, List.foldl_cons, hstep] at hquoted
    obtain ⟨table, body, hlex⟩ := exists_name_of_outside.1 hquoted
    have hrest : lexFrom d .blank rest.toList = .name table :: body := by
      rw [hcs, lexFrom, hstep, List.nil_append, hlex]
    rw [answer?_countText db ps paged hpending hrest, answer?_selectText db ps hpending hrest,
      Option.map_map]
    rfl

end Counts

end Sql

end DocumentQuery
