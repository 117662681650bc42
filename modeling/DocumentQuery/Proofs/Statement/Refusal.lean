import DocumentQuery.Proofs.Draft.Refusal
import DocumentQuery.Proofs.Statement.Answer
import DocumentQuery.Proofs.Statement.Deletion
import DocumentQuery.Proofs.Statement.Restriction

/-!
# Refused statements

Exactly when a statement has no SQL on a table, and with which fault. The clauses of a query are
drafted as they stand in it. An upsert is checked before it is drafted, and the dialect checks some
of it once more in an order of its own; that can change the fault but not the text.
-/

namespace DocumentQuery
set_option autoImplicit false

open Draft

variable {d : Dialect} {t : Table}

/-! ## Queries and deletions -/

/-- Clauses are checked in the order in which they are written. -/
theorem Draft.failsBy_clauses (selection : Selection) (order : SortOrder) (limit : Limit)
    (offset : Offset) :
    FailsBy (FirstOf [t.OperandFault selection.keys, t.ListFault order.keys])
      (clauses d t selection order limit offset).outcome := by
  rw [outcome_clauses]
  exact (failsBy_restriction selection).bind fun _ _ => (failsBy_ordering order).last

/-- A selection is refused by its columns, then its selector, then its order. -/
theorem Select.failsBy_draft (s : Select) :
    FailsBy (FirstOf [s.projection.Fault t, t.OperandFault s.selection.keys,
      t.ListFault s.order.keys]) (s.draft d t).outcome := by
  rw [outcome_draft]
  exact (failsBy_projected s.projection).bind fun _ _ =>
    failsBy_clauses s.selection s.order s.limit s.offset

theorem Count.failsBy_draft (s : Count) :
    FailsBy (t.OperandFault s.selection.keys) (s.draft d t).outcome := by
  rw [outcome_draft, outcome_clauses_unordered]
  exact t.failsBy_single s.selection.keys

namespace Delete

/-- The faults of a deletion, clause by clause: PostgreSQL looks at the order only with a limit. -/
def faults (t : Table) (s : Delete) (d : Dialect) : List (StatementError → Prop) :=
  if d = .postgres ∧ s.limit.rows = none then [t.OperandFault s.selection.keys]
  else [t.OperandFault s.selection.keys, t.ListFault s.order.keys]

/-- A deletion is refused by its selector, then by the order where its dialect writes one. -/
theorem failsBy_draft (s : Delete) : FailsBy (FirstOf (s.faults t d)) (s.draft d t).outcome := by
  cases d with
  | mysql =>
    have houtcome : (s.draft .mysql t).outcome
        = (clauses .mysql t s.selection s.order s.limit ⟨none⟩).outcome := rfl
    rw [houtcome, faults, if_neg (by simp)]
    exact failsBy_clauses s.selection s.order s.limit ⟨none⟩
  | postgres =>
    cases hlimit : s.limit.rows with
    | none =>
      rw [outcome_of_no_limit t hlimit, faults, if_pos ⟨rfl, hlimit⟩]
      exact (t.failsBy_single s.selection.keys).last
    | some n =>
      rw [outcome_of_limit hlimit, faults, if_neg (by simp [hlimit])]
      exact failsBy_clauses s.selection s.order s.limit ⟨none⟩

end Delete

/-- Of the clauses of a query or a deletion the first that is refused gives the fault, and where
none is refused the statement has a text. A projection comes first, then the selection, with the
keys at any depth of its tree, and the order last; a count has only a selection, and PostgreSQL
does not look at the order of a deletion without a limit. -/
theorem Statement.failsBy_firstClause (d : Dialect) (t : Table) :
    (∀ s : Select, FailsBy (FirstOf [s.projection.Fault t, t.OperandFault s.selection.keys,
        t.ListFault s.order.keys]) ((Statement.select s).compile d t)) ∧
      (∀ s : Count, FailsBy (t.OperandFault s.selection.keys) ((Statement.count s).compile d t)) ∧
      ∀ s : Delete, FailsBy (FirstOf (s.faults t d)) ((Statement.delete s).compile d t) :=
  ⟨fun s => failsBy_query d s.failsBy_draft, fun s => failsBy_query d s.failsBy_draft,
    fun s => failsBy_query d s.failsBy_draft⟩

/-- A key of two columns, compared inside two groups and behind a projection that lists it. -/
example : (Statement.select
      { projection := .including [.id]
        selection := .matching (.or [.and [.comparison ⟨.eq, .id, .value (.int 7)⟩]]) }).compile
      .postgres { name := "t", primaryKey := ["a", "b"] } = .error (.compositeKey "t") := by
  rfl

/-! ## Upserts -/

namespace Upsert

/-- An upsert is refused where it inserts nothing. -/
inductive ValuesFault (t : Table) (s : Upsert) : StatementError → Prop where
  | missing (none : s.values = []) : ValuesFault t s (.missingValues t.name)

/-- The columns to update are refused where there are none, and where one is not inserted; the
first of these is named. -/
inductive ColumnsFault (t : Table) (s : Upsert) : StatementError → Prop where
  | missing (none : s.updateColumns = some []) : ColumnsFault t s (.missingUpdateColumns t.name)
  | unknown {before after : List String} {column : String}
      (columns : s.updateColumns = some (before ++ column :: after))
      (inserted : ∀ known ∈ before, known ∈ Entries.keys s.values)
      (unknown : column ∉ Entries.keys s.values) :
      ColumnsFault t s (.unknownUpdateColumn column t.name)

/-- PostgreSQL must be told the row to update, by a selection that is not of every row and whose
keys are single columns; MySQL asks for nothing. -/
inductive TargetFault (t : Table) (s : Upsert) : Dialect → StatementError → Prop where
  | missing (none : s.updateSelection = none) :
      TargetFault t s .postgres (.missingUpdateSelector .postgres t.name)
  | everything (all : s.updateSelection = some .everything) :
      TargetFault t s .postgres (.missingTarget t.name)
  | operand {selection : Selection} {e : StatementError}
      (given : s.updateSelection = some selection) (h : t.OperandFault selection.keys e) :
      TargetFault t s .postgres e

variable {s : Upsert}

/-- A column without a value cannot be updated. -/
theorem updateOf_eq_error {column : String} {e : StatementError} :
    s.updateOf t column = .error e ↔
      column ∉ Entries.keys s.values ∧ e = .unknownUpdateColumn column t.name := by
  rw [updateOf]
  cases hget : Entries.get? column s.values with
  | none =>
    rw [and_iff_right (Entries.get?_eq_none_iff.1 hget), Except.error.injEq]
    exact eq_comm
  | some p =>
    refine iff_of_false (by simp) fun h => ?_
    rw [Entries.get?_eq_none_iff.2 h.1] at hget
    cases hget

theorem exists_updateOf {column : String} :
    (∃ update, s.updateOf t column = .ok update) ↔ column ∈ Entries.keys s.values := by
  rw [← not_iff_not, ← Entries.get?_eq_none_iff, updateOf]
  cases Entries.get? column s.values <;> simp

/-- The updates are refused where no column is to be updated, or by the first without a value. -/
theorem failsBy_updates (t : Table) (s : Upsert) : FailsBy (s.ColumnsFault t) (s.updates t) := by
  rcases hcolumns : s.updateColumns with _ | _ | ⟨first, others⟩
  · refine .of_ok (by rw [updates, hcolumns]) ?_
    rintro _ (⟨none⟩ | ⟨columns, -, -⟩)
    · simp [hcolumns] at none
    · simp [hcolumns] at columns
  · refine .of_error fun e => ?_
    rw [updates, hcolumns]
    constructor
    · rintro ⟨⟩
      exact .missing hcolumns
    · rintro (⟨-⟩ | ⟨columns, -, -⟩)
      · rfl
      · simp [hcolumns] at columns
  · have hupdates : s.updates t = (first :: others).mapM (s.updateOf t) := by
      rw [updates, hcolumns]
    refine .of_error fun e => ?_
    rw [hupdates, mapM_eq_error]
    simp only [exists_updateOf, updateOf_eq_error]
    constructor
    · rintro ⟨before, column, after, hsplit, inserted, unknown, rfl⟩
      exact .unknown (hcolumns.trans (congrArg some hsplit)) inserted unknown
    · rintro (⟨none⟩ | ⟨columns, inserted, unknown⟩)
      · simp [hcolumns] at none
      · exact ⟨_, _, _, Option.some.inj (hcolumns.symm.trans columns), inserted, unknown, rfl⟩

/-- The update of MySQL fails with its columns only. -/
theorem outcome_duplicateKeyDraft (t : Table) (s : Upsert) :
    (s.duplicateKeyDraft t).outcome = (s.updates t).map fun _ => () := by
  rw [duplicateKeyDraft, outcome_bind, outcome_lift]
  cases s.updates t with
  | error e => rfl
  | ok updates =>
    simp only [ok_bind, Insert.valuesDraft, outcome_bind, outcome_raw, outcome_name, outcome_names,
      outcome_placeholders]
    exact outcome_separated_map fun _ _ => rfl

/-- The dialect's own upsert checks the columns as well, sooner or later. -/
theorem ok_updates_of_dialectDraft (h : (s.dialectDraft d t).outcome = .ok ()) :
    ∃ updates, s.updates t = .ok updates := by
  cases d with
  | mysql =>
    have hdraft : (s.duplicateKeyDraft t).outcome = .ok () := h
    rw [outcome_duplicateKeyDraft] at hdraft
    obtain ⟨updates, hupdates, -⟩ := map_eq_ok.1 hdraft
    exact ⟨updates, hupdates⟩
  | postgres =>
    have hdraft : (s.updateOrInsertDraft t).outcome = .ok () := h
    rw [outcome_updateOrInsertDraft] at hdraft
    obtain ⟨selection, -, hdraft⟩ := bind_eq_ok.1 hdraft
    obtain ⟨updates, hupdates, -⟩ := bind_eq_ok.1 hdraft
    exact ⟨updates, hupdates⟩

/-- Behind the updates MySQL refuses nothing and PostgreSQL the row to update. -/
theorem failsBy_dialectDraft {updates : Assignments} (h : s.updates t = .ok updates) :
    FailsBy (s.TargetFault t d) (s.dialectDraft d t).outcome := by
  cases d with
  | mysql =>
    have houtcome : (s.duplicateKeyDraft t).outcome = .ok () := by
      rw [outcome_duplicateKeyDraft, h]
      rfl
    refine .of_ok houtcome ?_
    rintro _ ⟨⟩
  | postgres =>
    have houtcome : (s.updateOrInsertDraft t).outcome
        = s.target .postgres t >>= fun selection => t.single selection.keys := by
      rw [outcome_updateOrInsertDraft, h]
      rfl
    refine .of_error fun e => ?_
    change (s.updateOrInsertDraft t).outcome = _ ↔ _
    rw [houtcome, target]
    rcases hselection : s.updateSelection with _ | _ | node
    · constructor
      · rintro ⟨⟩
        exact .missing hselection
      · rintro (⟨-⟩ | ⟨all⟩ | ⟨given, -⟩)
        · rfl
        · simp [hselection] at all
        · simp [hselection] at given
    · constructor
      · rintro ⟨⟩
        exact .everything hselection
      · rintro (⟨none⟩ | ⟨-⟩ | ⟨given, h⟩)
        · simp [hselection] at none
        · rfl
        · cases hselection.symm.trans given
          rcases h with ⟨mem, -⟩ | ⟨mem, -⟩ <;> cases mem
    · refine ((t.failsBy_single node.keys).error e).trans ⟨.operand hselection, ?_⟩
      rintro (⟨none⟩ | ⟨all⟩ | ⟨given, h⟩)
      · simp [hselection] at none
      · simp [hselection] at all
      · cases hselection.symm.trans given
        exact h

/-- The checks of an upsert in their order. -/
theorem outcome_draft (d : Dialect) (t : Table) (s : Upsert) :
    (s.draft d t).outcome
      = (if s.values.isEmpty then .error (.missingValues t.name) else .ok ()) >>= fun _ : Unit =>
          s.updates t >>= fun _ => (s.dialectDraft d t).outcome := by
  rw [draft]
  split
  · rfl
  · rw [outcome_bind, outcome_lift]
    rfl

/-- An upsert is refused by its values, then its columns, then the row to update. -/
theorem failsBy_draft (s : Upsert) :
    FailsBy (FirstOf [s.ValuesFault t, s.ColumnsFault t, s.TargetFault t d])
      (s.draft d t).outcome := by
  have hvalues : FailsBy (s.ValuesFault t)
      (if s.values.isEmpty then .error (.missingValues t.name) else .ok ()) := by
    refine .guard fun e => ⟨?_, ?_⟩
    · rintro ⟨none⟩
      exact ⟨List.isEmpty_iff.2 none, rfl⟩
    · rintro ⟨none, rfl⟩
      exact .missing (List.isEmpty_iff.1 none)
  rw [outcome_draft]
  exact hvalues.bind fun _ _ => (failsBy_updates t s).bind fun _ hupdates =>
    (failsBy_dialectDraft hupdates).last

/-- With values, an upsert has a text exactly where the dialect's own has it, and the same. -/
theorem compile_eq_ok (hvalues : s.values ≠ []) {q : Query} :
    (Statement.upsert s).compile d t = .ok q ↔ (s.dialectDraft d t).query d = .ok q := by
  have hdraft : s.draft d t = lift (s.updates t) >>= fun _ => s.dialectDraft d t := by
    rw [draft, if_neg (by simpa using hvalues)]
  change (s.draft d t).query d = _ ↔ _
  rw [hdraft]
  cases hupdates : s.updates t with
  | ok updates => rw [lift_ok_bind]
  | error e =>
    refine iff_of_false (by simp [query, lift, bind_of_error, Except.map]) fun h => ?_
    obtain ⟨_, houtcome, -⟩ := map_eq_ok.1 h
    obtain ⟨updates, hok⟩ := ok_updates_of_dialectDraft houtcome
    rw [hupdates] at hok
    cases hok

/-- Of the checks of an upsert the first that fails gives the fault, and where none fails the
upsert has a text: there must be values, then columns to update, each of which is inserted, and
last the selection that PostgreSQL finds the row by. With values, the dialect's own upsert has the
same texts, though where there are several faults it may have another. -/
theorem failsBy_firstCheck (t : Table) :
    (∀ (d : Dialect) (s : Upsert),
        FailsBy (FirstOf [s.ValuesFault t, s.ColumnsFault t, s.TargetFault t d])
          ((Statement.upsert s).compile d t)) ∧
      (∀ (d : Dialect) (s : Upsert), s.values ≠ [] → ∀ q,
        (Statement.upsert s).compile d t = .ok q ↔ (s.dialectDraft d t).query d = .ok q) ∧
      ∃ (s : Upsert) (e other : StatementError), s.values ≠ [] ∧ e ≠ other ∧
        (Statement.upsert s).compile .postgres t = .error e ∧
        (s.dialectDraft .postgres t).query .postgres = .error other := by
  refine ⟨fun d s => failsBy_query d s.failsBy_draft, fun d s h q => compile_eq_ok h, ?_⟩
  -- No columns and no selection: the columns are checked first, but not by the dialect.
  refine ⟨{ values := [("id", .null)], updateColumns := some [] }, .missingUpdateColumns t.name,
    .missingUpdateSelector .postgres t.name, ?_, ?_, ?_, ?_⟩
  · simp
  · simp
  · rfl
  · rfl

/-- A row with its key, of which one column is updated where the key is there. -/
def keyed : Upsert :=
  { values := [("id", .int 7), ("name", .text "b")]
    updateColumns := some ["name"]
    updateSelection := some (.matching (.comparison ⟨.eq, .id, .value (.int 7)⟩)) }

/-- An upsert that MySQL takes and PostgreSQL refuses, as the row is found by a key that the table
has not. -/
theorem keyed_firstCheck :
    keyed.values ≠ [] ∧
      (keyed.dialectDraft .mysql { name := "t" }).query .mysql
        = .ok ⟨"INSERT INTO `t` (`id`, `name`) VALUES (?, ?)"
            ++ " ON DUPLICATE KEY UPDATE `name` = VALUES(`name`);", [.int 7, .text "b"]⟩ := by
  have hvalues : keyed.values ≠ [] := by simp [keyed]
  exact ⟨hvalues, ((failsBy_firstCheck { name := "t" }).2.1 .mysql keyed hvalues _).1 rfl⟩

end Upsert

end DocumentQuery
