import DocumentQuery.Proofs.Draft.Bound
import DocumentQuery.Proofs.Draft.Rows
import DocumentQuery.Proofs.Statement.Restriction
import DocumentQuery.Proofs.Statement.Tokens

/-!
# Rows that an upsert writes

MySQL inserts a row and, where it meets one, changes columns to the inserted values by their names.
PostgreSQL first updates with the values bound once more, and inserts only where that found no
row. Both insert the row that a plain insertion does, and both write the same values into the same
columns in the same order.
-/

namespace DocumentQuery
set_option autoImplicit false

open Draft
open Sql (Bound)

/-- The table and the row that a query inserts. -/
def Query.inserted? (d : Dialect) (q : Query) : Option (String × Assignments) :=
  (q.bound? d).bind Sql.inserted?

/-- The table that a query updates, and the columns that it writes there. -/
def Query.updated? (d : Dialect) (q : Query) : Option (String × Assignments) :=
  (q.bound? d).bind Sql.updated?

/-- The text of a compiled statement on clean names, bound. -/
theorem Statement.bound?_compile {d : Dialect} {t : Table} {s : Statement} {q : Query}
    (htable : ∀ n ∈ t.names, d.quote ∉ n.toList) (hnames : ∀ n ∈ s.usedNames, d.quote ∉ n.toList)
    (h : s.compile d t = .ok q) :
    q.bound? d = some ((s.draft d t).bound d ++ [.token (.symbol ';')]) := by
  rw [Query.bound?, Statement.lex_compile htable hnames h]
  obtain ⟨_, -, rfl⟩ := map_eq_ok.1 h
  have hbound := Piece.bind?_pieces (s.clean_draft htable hnames) [.symbol ';'] []
  rw [List.append_nil] at hbound
  exact hbound

namespace Draft

variable {d : Dialect} {t : Table}

theorem bound_names (row : Assignments) :
    (names (row.map (·.1))).bound d = Sql.columnsText row := by
  rw [names, bound_separated fun _ => rfl, List.map_map]
  rfl

theorem bound_placeholders (row : Assignments) :
    (placeholders (row.map (·.2))).bound d = Sql.valuesText row := by
  rw [placeholders, bound_separated fun _ => rfl, List.map_map]
  rfl

/-- A condition has no words of other clauses. -/
theorem word_not_mem_condition (word : String) (nested : Bool) (node : Node) :
    Bound.word word ∉ (condition t nested node).bound d := by
  intro hmem
  obtain ⟨piece, hpiece, hbound⟩ := List.mem_flatMap.1 hmem
  have htoken : Sql.Token.word word ∈ (condition t nested node).tokens d := by
    refine List.mem_flatMap.2 ⟨piece, hpiece, ?_⟩
    cases piece with
    | raw sql =>
      obtain ⟨token, htoken, heq⟩ := List.mem_map.1 hbound
      cases heq
      exact htoken
    | name identifier => simp [Piece.bound] at hbound
    | placeholder p => simp [Piece.bound] at hbound
  cases isWord_condition nested node _ htoken

end Draft

/-! ## Insertions -/

namespace Insert

/-- The bound tokens of an insertion: its table, its columns and its values. -/
theorem bound_valuesDraft (d : Dialect) (t : Table) (row : Assignments) :
    (valuesDraft t row).bound d
      = .word "INSERT" :: .word "INTO" :: .name t.name :: .opening
          :: (Sql.columnsText row ++ .closing :: .word "VALUES" :: .opening
            :: (Sql.valuesText row ++ [.closing])) := by
  have hinsert : (raw "INSERT INTO ").bound d = [.word "INSERT", .word "INTO"] := by
    cases d <;> rfl
  have hopening : (raw " (").bound d = [.opening] := by cases d <;> rfl
  have hvalues : (raw ") VALUES (").bound d = [.closing, .word "VALUES", .opening] := by
    cases d <;> rfl
  have hclosing : (raw ")").bound d = [.closing] := by cases d <;> rfl
  rw [valuesDraft, bound_bind (outcome_raw _), bound_bind (outcome_name _),
    bound_bind (outcome_raw _), bound_bind (outcome_names _), bound_bind (outcome_raw _),
    bound_bind (outcome_placeholders _), hinsert, bound_name, hopening, bound_names, hvalues,
    bound_placeholders, hclosing]
  rfl

/-- The row of an insertion is read off its text, whatever stands behind it. -/
theorem inserted?_valuesDraft (d : Dialect) (t : Table) {row : Assignments} (hrow : row ≠ [])
    (rest : List Bound) :
    Sql.inserted? ((valuesDraft t row).bound d ++ rest) = some (t.name, row) := by
  have hfront : Bound.word "INSERT" ∉ ([] : List Bound) := by simp
  have hread := Sql.inserted?_append hrow t.name hfront (Sql.values?_values hrow rest)
  rw [bound_valuesDraft]
  simp only [List.cons_append, List.append_assoc, List.nil_append] at hread ⊢
  exact hread

/-- An insertion of values has the same row in every dialect. -/
theorem inserted?_compile {d : Dialect} {t : Table} {row : Assignments} (hrow : row ≠ [])
    (htable : ∀ n ∈ t.names, d.quote ∉ n.toList)
    (hnames : ∀ n ∈ row.map (·.1), d.quote ∉ n.toList) :
    ∃ q, (Statement.insert ⟨row⟩).compile d t = .ok q ∧ q.inserted? d = some (t.name, row) := by
  have hdraft : (Statement.insert ⟨row⟩).draft d t = valuesDraft t row :=
    if_neg (by simpa using hrow)
  have houtcome : (valuesDraft t row).outcome = .ok () := by
    simp [valuesDraft, outcome_bind]
  have hcompile : (Statement.insert ⟨row⟩).compile d t
      = .ok (Query.ofPieces d (valuesDraft t row).pieces).finished := by
    rw [Statement.compile, hdraft, query, houtcome]
    rfl
  refine ⟨_, hcompile, ?_⟩
  have hbound := Statement.bound?_compile (s := .insert ⟨row⟩) htable hnames hcompile
  rw [Query.inserted?, hbound, hdraft, Option.bind_some]
  exact inserted?_valuesDraft d t hrow _

end Insert

/-! ## Upserts -/

namespace Upsert

/-- What an update writes for the columns that it is restricted to: each of them in its place, with
the value that is inserted for it. -/
def Updated (s : Upsert) (updates : Assignments) : Prop :=
  match s.updateColumns with
  | none => updates = s.values
  | some columns => updates.map (·.1) = columns ∧ updates ⊆ s.values

theorem eq_of_updateOf {t : Table} {s : Upsert} {column : String} {u : String × Parameter}
    (h : s.updateOf t column = .ok u) : u.1 = column ∧ u ∈ s.values := by
  unfold updateOf at h
  split at h
  · next p hp =>
    cases h
    exact ⟨rfl, Entries.mem_of_get?_eq_some hp⟩
  · cases h

theorem updated_of_updates {t : Table} {s : Upsert} {updates : Assignments}
    (h : s.updates t = .ok updates) : s.Updated updates := by
  unfold Upsert.updates at h
  split at h
  · next hnone =>
    cases h
    simp [Updated, hnone]
  · cases h
  · next columns _ hcolumns =>
    have hread := mapM_eq_ok.1 h
    have hnames : updates.map (·.1) = columns.map id :=
      map_eq_of_forall₂ (hread.imp fun _ _ hu => (eq_of_updateOf hu).1)
    rw [List.map_id] at hnames
    simp only [Updated, hcolumns]
    refine ⟨hnames, fun u hu => ?_⟩
    obtain ⟨column, -, hcolumn⟩ := exists_of_forall₂ hread hu
    exact (eq_of_updateOf hcolumn).2

theorem Updated.subset {s : Upsert} {updates : Assignments} (h : s.Updated updates) :
    updates ⊆ s.values := by
  unfold Updated at h
  split at h
  · exact h ▸ List.Subset.refl _
  · exact h.2

/-- An upsert with values updates at least one column. -/
theorem updates_ne_nil {t : Table} {s : Upsert} {updates : Assignments} (hvalues : s.values ≠ [])
    (h : s.updates t = .ok updates) : updates ≠ [] := by
  have hupdated := updated_of_updates h
  unfold Upsert.updates at h
  split at h
  · next hnone =>
    cases h
    exact hvalues
  · cases h
  · next columns hcolumns heq =>
    simp only [Updated, heq] at hupdated
    rintro rfl
    exact hcolumns hupdated.1.symm

/-- A compiled upsert has values, an update, and the draft of its dialect. -/
theorem exists_updates {d : Dialect} {t : Table} {s : Upsert}
    (h : (s.draft d t).outcome = .ok ()) :
    ∃ updates, s.values ≠ [] ∧ s.updates t = .ok updates ∧
      (s.dialectDraft d t).outcome = .ok () ∧
      (s.draft d t).bound d = (s.dialectDraft d t).bound d := by
  unfold draft at h ⊢
  split at h
  · cases h
  · next hvalues =>
    rw [outcome_bind, outcome_lift] at h
    obtain ⟨updates, hupdates, hdialect⟩ := bind_eq_ok.1 h
    refine ⟨updates, by simpa using hvalues, hupdates, hdialect, ?_⟩
    rw [if_neg hvalues, bound_bind (a := updates) hupdates]
    rfl

/-- PostgreSQL finds the row by a condition, never by every row. -/
theorem target_eq_matching {d : Dialect} {t : Table} {s : Upsert} {selection : Selection}
    (h : s.target d t = .ok selection) : ∃ node, selection = .matching node := by
  unfold target at h
  split at h
  · cases h
  · cases h
  · next other hother _ =>
    cases h
    cases selection with
    | everything => exact absurd rfl hother
    | matching node => exact ⟨node, rfl⟩

/-- What PostgreSQL asks of the insertion, and what the whole statement answers. -/
def insertionTail : List Bound :=
  [.word "WHERE", .token (.keyword .not), .word "EXISTS", .opening, .word "SELECT",
    .token (.symbol '*'), .word "FROM", .name "updated", .closing, .word "RETURNING",
    .token (.symbol '*'), .closing, .word "SELECT", .token (.symbol '*'), .word "FROM",
    .name "updated", .word "UNION", .word "ALL", .word "SELECT", .token (.symbol '*'),
    .word "FROM", .name "inserted"]

section Dialects

variable {t : Table} {s : Upsert} {updates : Assignments} (hupdates : s.updates t = .ok updates)
include hupdates

/-- MySQL writes the insertion, and behind it the columns that take its values. -/
theorem bound_duplicateKeyDraft :
    (s.duplicateKeyDraft t).bound .mysql
      = (Insert.valuesDraft t s.values).bound .mysql ++ .word "ON" :: .word "DUPLICATE"
          :: .word "KEY" :: .word "UPDATE" :: Sql.insertedChanges updates := by
  have hvaluesDraft : (Insert.valuesDraft t s.values).outcome = .ok () := by
    simp [Insert.valuesDraft, outcome_bind]
  have hchange : ∀ u : String × Parameter,
      (name u.1 >>= fun _ => raw " = VALUES(" >>= fun _ => name u.1 >>= fun _ => raw ")").bound
          .mysql
        = [.name u.1, .token (.sign "="), .word "VALUES", .opening, .name u.1, .closing] :=
    fun _ => rfl
  rw [duplicateKeyDraft, bound_bind (a := updates) hupdates, bound_bind hvaluesDraft,
    bound_bind (outcome_raw _), bound_separated fun _ => rfl]
  simp only [hchange]
  rfl

/-- PostgreSQL writes the update with its condition, and behind it the insertion. -/
theorem bound_updateOrInsertDraft {node : Node}
    (htarget : s.target .postgres t = .ok (.matching node))
    (hnode : (restriction t (.matching node)).outcome = .ok ()) :
    (s.updateOrInsertDraft t).bound .postgres
      = .word "WITH" :: .name "updated" :: .word "AS" :: .opening :: .word "UPDATE"
          :: .name t.name :: .word "SET" :: (Sql.parameterChanges updates ++ .word "WHERE"
            :: ((condition t false node).bound .postgres
              ++ (.word "RETURNING" :: .token (.symbol '*') :: .closing :: .comma
                :: .name "inserted" :: .word "AS" :: .opening :: .word "INSERT" :: .word "INTO"
                :: .name t.name :: .opening :: (Sql.columnsText s.values ++ .closing
                  :: .word "SELECT" :: (Sql.valuesText s.values ++ insertionTail))))) := by
  have hchange : ∀ u : String × Parameter,
      (name u.1 >>= fun _ => raw " = " >>= fun _ => placeholder u.2).bound .postgres
        = [.name u.1, .token (.sign "="), .value u.2] := fun _ => rfl
  have hchanges : (separated ", " (updates.map fun u => do
      name u.1
      raw " = "
      placeholder u.2)).outcome = .ok () := outcome_separated_map fun _ _ => rfl
  have hrestriction : (restriction t (.matching node)).bound .postgres
      = .word "WHERE" :: (condition t false node).bound .postgres := rfl
  rw [updateOrInsertDraft, bound_bind (a := .matching node) htarget,
    bound_bind (a := updates) hupdates, bound_bind (outcome_raw _), bound_bind (outcome_name _),
    bound_bind (outcome_raw _), bound_bind (outcome_name _), bound_bind (outcome_raw _),
    bound_bind hchanges, bound_bind hnode, bound_bind (outcome_raw _),
    bound_bind (outcome_name _), bound_bind (outcome_raw _), bound_bind (outcome_name _),
    bound_bind (outcome_raw _), bound_bind (outcome_names _), bound_bind (outcome_raw _),
    bound_bind (outcome_placeholders _), bound_separated fun _ => rfl, hrestriction, bound_names,
    bound_placeholders]
  simp only [hchange]
  rfl

/-- The values of the insertion are found by their columns. -/
theorem get?_of_updates (hcolumns : (s.values.map (·.1)).Nodup) :
    ∀ u ∈ updates, Entries.get? u.1 s.values = some u.2 := fun _ hu =>
  Entries.get?_eq_some_of_mem hcolumns ((updated_of_updates hupdates).subset hu)

section Read

variable (hvalues : s.values ≠ [])
include hvalues

/-- The upsert of MySQL inserts the values. -/
theorem inserted?_duplicateKeyDraft (rest : List Bound) :
    Sql.inserted? ((s.duplicateKeyDraft t).bound .mysql ++ rest) = some (t.name, s.values) := by
  rw [bound_duplicateKeyDraft hupdates, List.append_assoc]
  exact Insert.inserted?_valuesDraft .mysql t hvalues _

/-- The upsert of MySQL updates each column by the value inserted into it. -/
theorem updated?_duplicateKeyDraft (hcolumns : (s.values.map (·.1)).Nodup) :
    Sql.updated? ((s.duplicateKeyDraft t).bound .mysql ++ [.token (.symbol ';')])
      = some (t.name, updates) := by
  refine Sql.updated?_inserted (updates_ne_nil hvalues hupdates)
    (inserted?_duplicateKeyDraft hupdates hvalues _) (get?_of_updates hupdates hcolumns) ?_
  have hon : Bound.word "ON" ∉ (Insert.valuesDraft t s.values).bound .mysql := by
    have hnames : Bound.word "ON" ∉ Sql.columnsText s.values :=
      Sql.not_mem_listed (by decide) fun _ _ => by simp
    have hplaceholders : Bound.word "ON" ∉ Sql.valuesText s.values :=
      Sql.not_mem_listed (by decide) fun _ _ => by simp
    simp [Insert.bound_valuesDraft, hnames, hplaceholders]
  have hend : Bound.token (.symbol ';') ∉ Sql.insertedChanges updates :=
    Sql.not_mem_listed (by decide) fun _ _ => by simp
  rw [bound_duplicateKeyDraft hupdates, List.append_assoc, Sql.update?]
  · rw [List.cons_append, Sql.cut?_append hon]
    simp only [Option.bind_eq_bind, Option.bind_some, List.cons_append, Sql.cut?_append hend,
      Option.map_some]
  · simp [Insert.bound_valuesDraft]

section Postgres

variable {node : Node} (htarget : s.target .postgres t = .ok (.matching node))
  (hnode : (restriction t (.matching node)).outcome = .ok ())
include htarget hnode

/-- The upsert of PostgreSQL inserts the values where it has updated nothing. -/
theorem inserted?_updateOrInsertDraft (rest : List Bound) :
    Sql.inserted? ((s.updateOrInsertDraft t).bound .postgres ++ rest)
      = some (t.name, s.values) := by
  have hchanges : Bound.word "INSERT" ∉ Sql.parameterChanges updates :=
    Sql.not_mem_listed (by decide) fun _ _ => by simp
  have hcondition : Bound.word "INSERT" ∉ (condition t false node).bound .postgres :=
    word_not_mem_condition "INSERT" false node
  let front : List Bound := .word "WITH" :: .name "updated" :: .word "AS" :: .opening
    :: .word "UPDATE" :: .name t.name :: .word "SET" :: (Sql.parameterChanges updates
      ++ .word "WHERE" :: ((condition t false node).bound .postgres ++ [.word "RETURNING",
        .token (.symbol '*'), .closing, .comma, .name "inserted", .word "AS", .opening]))
  have hfront : Bound.word "INSERT" ∉ front := by simp [front, hchanges, hcondition]
  have hread := Sql.inserted?_append hvalues t.name hfront
    (Sql.values?_selected hvalues (insertionTail.tail ++ rest))
  rw [bound_updateOrInsertDraft hupdates htarget hnode]
  simp only [front, List.cons_append, List.append_assoc, List.nil_append] at hread ⊢
  exact hread

/-- The upsert of PostgreSQL updates by the values that it binds first. -/
theorem updated?_updateOrInsertDraft (rest : List Bound) :
    Sql.updated? ((s.updateOrInsertDraft t).bound .postgres ++ rest)
      = some (t.name, updates) := by
  refine Sql.updated?_parameters (updates_ne_nil hvalues hupdates)
    (inserted?_updateOrInsertDraft hupdates hvalues htarget hnode rest) ?_
  have hwhere : Bound.word "WHERE" ∉ Sql.parameterChanges updates :=
    Sql.not_mem_listed (by decide) fun _ _ => by simp
  rw [bound_updateOrInsertDraft hupdates htarget hnode]
  simp only [List.cons_append, List.append_assoc]
  rw [Sql.update?, Sql.cut?_append hwhere]
  rfl

end Postgres

end Read

end Dialects

/-! ## Both dialects -/

/-- A query writes the same row as a plain insertion of the values, and updates in the columns that
the update is for. -/
structure Writes (d : Dialect) (t : Table) (s : Upsert) (updates : Assignments) (q : Query) :
    Prop where
  inserted : q.inserted? d = some (t.name, s.values)
  updated : q.updated? d = some (t.name, updates)

/-- The upsert of MySQL writes the values and the updates. -/
theorem writes_mysql {t : Table} {s : Upsert} {q : Query} {updates : Assignments}
    (hcolumns : (s.values.map (·.1)).Nodup)
    (htable : ∀ n ∈ t.names, Dialect.mysql.quote ∉ n.toList)
    (hnames : ∀ n ∈ (Statement.upsert s).usedNames, Dialect.mysql.quote ∉ n.toList)
    (h : (Statement.upsert s).compile .mysql t = .ok q) (hupdates : s.updates t = .ok updates) :
    s.Writes .mysql t updates q := by
  obtain ⟨_, houtcome, -⟩ := map_eq_ok.1 h
  obtain ⟨_, hvalues, -, -, hdraft⟩ := exists_updates houtcome
  have hbound : q.bound? .mysql
      = some ((s.duplicateKeyDraft t).bound .mysql ++ [.token (.symbol ';')]) := by
    rw [Statement.bound?_compile htable hnames h]
    exact congrArg (fun b => some (b ++ _)) hdraft
  constructor
  · rw [Query.inserted?, hbound]
    exact inserted?_duplicateKeyDraft hupdates hvalues _
  · rw [Query.updated?, hbound]
    exact updated?_duplicateKeyDraft hupdates hvalues hcolumns

/-- The upsert of PostgreSQL writes the values and the updates. -/
theorem writes_postgres {t : Table} {s : Upsert} {q : Query} {updates : Assignments}
    (htable : ∀ n ∈ t.names, Dialect.postgres.quote ∉ n.toList)
    (hnames : ∀ n ∈ (Statement.upsert s).usedNames, Dialect.postgres.quote ∉ n.toList)
    (h : (Statement.upsert s).compile .postgres t = .ok q) (hupdates : s.updates t = .ok updates) :
    s.Writes .postgres t updates q := by
  obtain ⟨_, houtcome, -⟩ := map_eq_ok.1 h
  obtain ⟨_, hvalues, -, hdialect, hdraft⟩ := exists_updates houtcome
  have hsteps := (outcome_updateOrInsertDraft t s).symm.trans hdialect
  obtain ⟨selection, htarget, hrest⟩ := bind_eq_ok.1 hsteps
  obtain ⟨_, -, hsingle⟩ := bind_eq_ok.1 hrest
  obtain ⟨node, rfl⟩ := target_eq_matching htarget
  have hnode := (outcome_restriction t (.matching node)).trans hsingle
  have hbound : q.bound? .postgres
      = some ((s.updateOrInsertDraft t).bound .postgres ++ [.token (.symbol ';')]) := by
    rw [Statement.bound?_compile htable hnames h]
    exact congrArg (fun b => some (b ++ _)) hdraft
  constructor
  · rw [Query.inserted?, hbound]
    exact inserted?_updateOrInsertDraft hupdates hvalues htarget hnode _
  · rw [Query.updated?, hbound]
    exact updated?_updateOrInsertDraft hupdates hvalues htarget hnode _

/-- On distinct columns and clean names both dialects insert the row that a plain insertion does,
and update the same columns with the same values in the same order. MySQL binds the values once;
PostgreSQL binds those of the update, then what its condition asks for, then the values. -/
theorem dialects_write_alike {t : Table} {s : Upsert} {q q' : Query}
    (hcolumns : (s.values.map (·.1)).Nodup)
    (hclean : ∀ d : Dialect, ∀ n ∈ t.names ++ (Statement.upsert s).usedNames, d.quote ∉ n.toList)
    (hmysql : (Statement.upsert s).compile .mysql t = .ok q)
    (hpostgres : (Statement.upsert s).compile .postgres t = .ok q') :
    ∃ updates selection, s.Updated updates ∧ s.updateSelection = some selection ∧
      s.Writes .mysql t updates q ∧ s.Writes .postgres t updates q' ∧
      (∀ d, ∃ r, (Statement.insert ⟨s.values⟩).compile d t = .ok r ∧
        r.inserted? d = some (t.name, s.values)) ∧
      q.parameters = s.values.map (·.2) ∧
      q'.parameters = updates.map (·.2) ++ selection.parameters ++ s.values.map (·.2) := by
  have htable : ∀ d : Dialect, ∀ n ∈ t.names, d.quote ∉ n.toList :=
    fun d n hn => hclean d n (List.mem_append_left _ hn)
  have hnames : ∀ d : Dialect, ∀ n ∈ (Statement.upsert s).usedNames, d.quote ∉ n.toList :=
    fun d n hn => hclean d n (List.mem_append_right _ hn)
  have hvaluesNames : ∀ d : Dialect, ∀ n ∈ s.values.map (·.1), d.quote ∉ n.toList :=
    fun d n hn => hnames d n (List.mem_append_left _ (List.mem_append_left _ hn))
  obtain ⟨_, hmysqlOutcome, hq⟩ := map_eq_ok.1 hmysql
  obtain ⟨_, hpostgresOutcome, hq'⟩ := map_eq_ok.1 hpostgres
  obtain ⟨updates, hvalues, hupdates, hdialect, -⟩ := exists_updates hpostgresOutcome
  have hsteps := (outcome_updateOrInsertDraft t s).symm.trans hdialect
  obtain ⟨selection, htarget, -⟩ := bind_eq_ok.1 hsteps
  have hselection := eq_some_of_target htarget
  have hbound : q.parameters = s.values.map (·.2) := by
    have hbinds := (Statement.upsert s).binds_draft .mysql t _ hmysqlOutcome
    simp only [Statement.parameters] at hbinds
    rw [← hq]
    exact hbinds
  have hbound' : q'.parameters
      = updates.map (·.2) ++ selection.parameters ++ s.values.map (·.2) := by
    have hbinds := (Statement.upsert s).binds_draft .postgres t _ hpostgresOutcome
    simp only [Statement.parameters, hupdates, hselection, Option.getD_some] at hbinds
    rw [← hq']
    exact hbinds
  exact ⟨updates, selection, updated_of_updates hupdates, hselection,
    writes_mysql hcolumns (htable .mysql) (hnames .mysql) hmysql hupdates,
    writes_postgres (htable .postgres) (hnames .postgres) hpostgres hupdates,
    fun d => Insert.inserted?_compile hvalues (htable d) (hvaluesNames d), hbound, hbound'⟩

/-- A price and a stock by their article, of which an update writes the stock and the price. -/
def restocked : Upsert :=
  { values := [("article", .text "pen"), ("price", .int 120), ("stock", .int 7)]
    updateColumns := some ["stock", "price"]
    updateSelection :=
      some (.matching (.comparison ⟨.eq, .column "article", .value (.text "pen")⟩)) }

/-- Both dialects write the stock first, whatever order the row has. -/
theorem restocked_alike :
    ∃ q q' updates, (Statement.upsert restocked).compile .mysql { name := "goods" } = .ok q ∧
      (Statement.upsert restocked).compile .postgres { name := "goods" } = .ok q' ∧
      updates.map (·.1) = ["stock", "price"] ∧
      q.updated? .mysql = some ("goods", updates) ∧
      q'.updated? .postgres = some ("goods", updates) ∧
      q.parameters = [.text "pen", .int 120, .int 7] ∧
      q'.parameters.drop 2 = [.text "pen", .text "pen", .int 120, .int 7] := by
  obtain ⟨updates, -, hupdated, -, hmysql, hpostgres, -, hbound, -⟩ :=
    dialects_write_alike (t := { name := "goods" }) (s := restocked) (by decide)
      (fun d => by cases d <;> decide) rfl rfl
  exact ⟨_, _, updates, rfl, rfl, hupdated.1, hmysql.updated, hpostgres.updated, hbound, rfl⟩

end Upsert

end DocumentQuery
