import DocumentQuery.Proofs.Draft.Text
import DocumentQuery.Proofs.Statement.Answer
import DocumentQuery.Proofs.Statement.Deletion
import DocumentQuery.Proofs.Statement.Parameters

/-!
# Filters in the text of statements

How many filters of rows the text of a statement has. The word in front of a filter is written by
the restriction to a selection and nowhere else, except that PostgreSQL wraps a deletion with a
limit into a filter by row identifiers. So whether a selection restricts a statement can be seen on
its text: the filters are counted, those that the statement has anyway left out. And as the
restriction is written in one go, it is a part of the statement as it stands.
-/

namespace DocumentQuery
set_option autoImplicit false

open Draft

/-- How many filters a selection asks for. -/
def Selection.filters : Selection → Nat
  | .everything => 0
  | .matching _ => 1

theorem Selection.filters_eq_zero {selection : Selection} :
    selection.filters = 0 ↔ selection = .everything := by
  cases selection <;> simp [filters]

/-- The selection of a statement that reads or deletes rows. -/
def Statement.selection? : Statement → Option Selection
  | .select s => some s.selection
  | .count s => some s.selection
  | .delete s => some s.selection
  | .insert _ => none
  | .upsert _ => none

/-- The filters that a deletion has whatever it deletes: in PostgreSQL the one of its limit. -/
def Delete.ownFilters : Dialect → Delete → Nat
  | .mysql, _ => 0
  | .postgres, s => s.limit.rows.elim 0 fun _ => 1

/-- The filters that a statement has whatever it selects. -/
def Statement.ownFilters (d : Dialect) : Statement → Nat
  | .select _ => 0
  | .count _ => 0
  | .insert _ => 0
  | .upsert _ => 0
  | .delete s => s.ownFilters d

namespace Draft

variable {α β : Type} {d : Dialect} {t : Table}

/-- How often a draft writes the word in front of a filter. -/
def filters (d : Dialect) (draft : Draft α) : Nat := (draft.tokens d).count (.word "WHERE")

/-- Filters of steps in a row add up. -/
theorem filters_bind {draft : Draft α} {a : α} (h : draft.outcome = .ok a) (next : α → Draft β) :
    (draft >>= next).filters d = draft.filters d + (next a).filters d := by
  rw [filters, tokens_bind h, List.count_append]
  rfl

@[simp] theorem filters_name (identifier : String) : (name identifier).filters d = 0 := rfl

theorem filters_name_bind (identifier : String) (next : Unit → Draft β) :
    (name identifier >>= next).filters d = (next ()).filters d := by
  rw [filters_bind (outcome_name identifier), filters_name, Nat.zero_add]

/-- A text that is no filter in either dialect. -/
theorem filters_raw_bind {sql : String} (hmysql : (raw sql).filters .mysql = 0)
    (hpostgres : (raw sql).filters .postgres = 0) (next : Unit → Draft β) :
    (raw sql >>= next).filters d = (next ()).filters d := by
  have hsql : (raw sql).filters d = 0 := by
    cases d with
    | mysql => exact hmysql
    | postgres => exact hpostgres
  rw [filters_bind (outcome_raw sql), hsql, Nat.zero_add]

theorem filters_eq_zero {draft : Draft α}
    (h : ∀ token ∈ draft.tokens d, token.isWord = false) : draft.filters d = 0 :=
  List.count_eq_zero.2 fun hmem => absurd (h _ hmem) (by simp [Sql.Token.isWord])

/-- A restriction is a filter unless every row is selected: its condition writes no word. -/
theorem filters_restriction (t : Table) (selection : Selection) :
    (restriction t selection).filters d = selection.filters := by
  cases selection with
  | everything => rfl
  | matching node =>
    have hcondition := filters_eq_zero (isWord_condition (d := d) (t := t) false node)
    rw [filters, tokens_where, List.count_cons_self, Selection.filters]
    exact congrArg (· + 1) hcondition

/-- Of the clauses behind the name of a table only the restriction is a filter. -/
theorem filters_clauses {selection : Selection} {order : SortOrder} {limit : Limit}
    {offset : Offset} (h : (clauses d t selection order limit offset).outcome = .ok ()) :
    (clauses d t selection order limit offset).filters d = selection.filters := by
  have hbehind : .word "WHERE" ∉ Sql.Clauses.orderTokens (order.columns t)
      ++ Sql.Clauses.pageTokens (d.limitRows limit offset) offset.rows :=
    Sql.Clauses.where_notMem_tokens _ _ _
  rw [filters, tokens_clauses h, List.count_append, List.count_eq_zero.2 hbehind, Nat.add_zero]
  exact filters_restriction t selection

end Draft

/-! ## Statements -/

section Statements

variable {d : Dialect} {t : Table}

/-- A selection has the filter of its selector and no other. -/
theorem Select.filters_draft {s : Select} (h : (s.draft d t).outcome = .ok ()) :
    (s.draft d t).filters d = s.selection.filters := by
  rw [outcome_draft] at h
  obtain ⟨_, hprojected, hclauses⟩ := bind_eq_ok.1 h
  have hcolumns := filters_eq_zero (isWord_projected (d := d) (t := t) s.projection)
  rw [draft_eq, filters_raw_bind (by decide) (by decide), filters_bind hprojected, hcolumns,
    filters_raw_bind (by decide) (by decide), filters_name_bind, filters_clauses hclauses,
    Nat.zero_add]

theorem Count.filters_draft {s : Count} (h : (s.draft d t).outcome = .ok ()) :
    (s.draft d t).filters d = s.selection.filters := by
  rw [outcome_draft] at h
  by_cases hpage : (s.limit.rows.isNone && s.offset.rows.isNone) = true
  · rw [draft_of_no_page d t hpage, filters_raw_bind (by decide) (by decide), filters_name_bind,
      filters_raw_bind (by decide) (by decide), filters_name_bind, filters_clauses h]
  · have hrows : (name t.name >>= fun _ => clauses d t s.selection .unspecified s.limit
        s.offset).outcome = .ok () := h
    have hend : (raw ") AS " >>= fun _ => name "bounded").filters d = 0 :=
      filters_raw_bind (by decide) (by decide) _
    rw [draft_of_page d t hpage, filters_raw_bind (by decide) (by decide), filters_name_bind,
      filters_raw_bind (by decide) (by decide), filters_raw_bind (by decide) (by decide),
      filters_bind hrows, filters_name_bind, filters_clauses h, hend, Nat.add_zero]

theorem Delete.filters_plainDraft {s : Delete} (h : (s.plainDraft d t).outcome = .ok ()) :
    (s.plainDraft d t).filters d = s.selection.filters := by
  have hclauses : (clauses d t s.selection s.order s.limit ⟨none⟩).outcome = .ok () := h
  rw [plainDraft, filters_raw_bind (by decide) (by decide), rows_eq_clauses, filters_name_bind,
    filters_clauses hclauses]

/-- A deletion has the filter of its selector and, in PostgreSQL, one around its limit. -/
theorem Delete.filters_draft {s : Delete} (h : (s.draft d t).outcome = .ok ()) :
    (s.draft d t).filters d = s.ownFilters d + s.selection.filters := by
  cases d with
  | mysql =>
    rw [ownFilters, Nat.zero_add]
    exact filters_plainDraft h
  | postgres =>
    cases hlimit : s.limit.rows with
    | none =>
      rw [draft_of_no_limit hlimit] at h ⊢
      rw [filters_plainDraft h, ownFilters, hlimit, Option.elim_none, Nat.zero_add]
    | some n =>
      rw [outcome_of_limit hlimit] at h
      have hselect : (s.subselect .postgres t "ctid").outcome = .ok () := h
      have hwrapped : (raw " WHERE ctid IN (").filters .postgres = 1 := by decide
      have hend : (raw ")").filters .postgres = 0 := by decide
      have hrows : (s.subselect .postgres t "ctid").filters .postgres = s.selection.filters := by
        rw [subselect, filters_raw_bind (by decide) (by decide),
          filters_raw_bind (by decide) (by decide), filters_raw_bind (by decide) (by decide),
          rows_eq_clauses, filters_name_bind]
        exact filters_clauses h
      rw [draft_of_limit hlimit, filters_raw_bind (by decide) (by decide), filters_name_bind,
        filters_bind (outcome_raw _), filters_bind hselect, hwrapped, hend, hrows,
        ownFilters, hlimit, Option.elim_some, Nat.add_zero]

/-- On clean names the text of a statement has its own filters and the one of its selection. -/
theorem Statement.count_where_compile {s : Statement} {q : Query} {selection : Selection}
    (hselection : s.selection? = some selection)
    (htable : ∀ n ∈ t.names, d.quote ∉ n.toList) (hnames : ∀ n ∈ s.usedNames, d.quote ∉ n.toList)
    (h : s.compile d t = .ok q) :
    (Sql.lex d q.sql).count (.word "WHERE") = s.ownFilters d + selection.filters := by
  obtain ⟨_, houtcome, -⟩ := map_eq_ok.1 h
  have hcount : (Sql.lex d q.sql).count (.word "WHERE") = (s.draft d t).filters d := by
    rw [lex_compile htable hnames h, List.count_append]
    rfl
  rw [hcount]
  cases s with
  | select s =>
    cases hselection
    rw [ownFilters, Nat.zero_add]
    exact s.filters_draft houtcome
  | count s =>
    cases hselection
    rw [ownFilters, Nat.zero_add]
    exact s.filters_draft houtcome
  | delete s =>
    cases hselection
    exact s.filters_draft houtcome
  | insert s => cases hselection
  | upsert s => cases hselection

end Statements

/-! ## Restrictions as parts of statements -/

namespace Draft

variable {α β : Type} {d : Dialect} {t : Table} {part : List Piece}

/-- What is part of a step stays part of the steps from it on, whether they fail or not. -/
theorem infix_bind {draft : Draft α} (h : part <:+: draft.pieces) (next : α → Draft β) :
    part <:+: (draft >>= next).pieces := by
  cases houtcome : draft.outcome with
  | error e => rwa [bind_of_error houtcome]
  | ok a =>
    rw [bind_of_ok houtcome]
    exact h.trans (List.prefix_append _ _).isInfix

/-- What follows a step that ends well is part of both. -/
theorem infix_behind {draft : Draft α} {a : α} (houtcome : draft.outcome = .ok a)
    {next : α → Draft β} (h : part <:+: (next a).pieces) : part <:+: (draft >>= next).pieces := by
  rw [bind_of_ok houtcome]
  exact h.trans (List.suffix_append _ _).isInfix

theorem restriction_infix_rows (selection : Selection) (order : SortOrder) (limit : Limit)
    (offset : Offset) :
    (restriction t selection).pieces <:+: (rows d t selection order limit offset).pieces :=
  infix_behind (outcome_name _) (infix_bind (List.infix_refl _) _)

end Draft

section Statements

variable {d : Dialect} {t : Table}

theorem Select.restriction_infix {s : Select} (h : (s.draft d t).outcome = .ok ()) :
    (restriction t s.selection).pieces <:+: (s.draft d t).pieces := by
  rw [outcome_draft] at h
  obtain ⟨_, hprojected, -⟩ := bind_eq_ok.1 h
  exact infix_behind (outcome_raw _) (infix_behind hprojected
    (infix_behind (outcome_raw _) (restriction_infix_rows _ _ _ _)))

theorem Count.restriction_infix (d : Dialect) (t : Table) (s : Count) :
    (restriction t s.selection).pieces <:+: (s.draft d t).pieces := by
  refine infix_behind (outcome_raw _) (infix_behind (outcome_name _)
    (infix_behind (outcome_raw _) ?_))
  split
  · exact restriction_infix_rows _ _ _ _
  · exact infix_behind (outcome_raw _) (infix_bind (restriction_infix_rows _ _ _ _) _)

/-- A deletion writes its restriction where it picks the rows, which may be inside a selection. -/
theorem Delete.restriction_infix (d : Dialect) (t : Table) (s : Delete) :
    (restriction t s.selection).pieces <:+: (s.draft d t).pieces := by
  have hplain : ∀ d s, (restriction t s.selection).pieces <:+: (plainDraft d t s).pieces :=
    fun _ _ => infix_behind (outcome_raw _) (restriction_infix_rows _ _ _ _)
  cases d with
  | mysql => exact hplain .mysql s
  | postgres =>
    rw [draft]
    split
    · exact hplain .postgres { s with order := .unspecified }
    · have hselect : (restriction t s.selection).pieces
          <:+: (s.subselect .postgres t "ctid").pieces :=
        infix_behind (outcome_raw _) (infix_behind (outcome_raw _)
          (infix_behind (outcome_raw _) (restriction_infix_rows _ _ _ _)))
      exact infix_behind (outcome_raw _) (infix_behind (outcome_name _)
        (infix_behind (outcome_raw _) (infix_bind hselect _)))

/-- What a statement with SQL writes of its selection stands in it in one piece, and the
parameters of the statement are those of the selection. -/
theorem Statement.restriction_infix {s : Statement} {q : Query} {selection : Selection}
    (hselection : s.selection? = some selection) (h : s.compile d t = .ok q) :
    (restriction t selection).pieces <:+: (s.draft d t).pieces
      ∧ q.parameters = selection.parameters := by
  obtain ⟨houtcome, rfl⟩ := query_eq_ok.1 h
  have hparameters : (s.draft d t).parameters = s.parameters d t := s.binds_draft d t () houtcome
  cases s with
  | select s =>
    cases hselection
    exact ⟨s.restriction_infix houtcome, hparameters⟩
  | count s =>
    cases hselection
    exact ⟨s.restriction_infix d t, hparameters⟩
  | delete s =>
    cases hselection
    exact ⟨s.restriction_infix d t, hparameters⟩
  | insert s => cases hselection
  | upsert s => cases hselection

end Statements

end DocumentQuery
