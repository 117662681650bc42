import DocumentQuery.Proofs.Draft.Names
import DocumentQuery.Proofs.Statement.Parameters
import DocumentQuery.Proofs.Statement.Upsert

/-!
# Names that statements write

Every field that a statement is about is in its text, as one identifier of exactly that name. Only
the columns that a projection excludes are not, nor is what the dialect leaves out: PostgreSQL the
order of a deletion without a limit, MySQL the selector of an upsert.
-/

namespace DocumentQuery
set_option autoImplicit false

open Draft

/-- The keys that a projection includes by name. -/
def Projection.included : Projection → List Key
  | .including keys => keys
  | .everything | .excluding _ => []

/-- The order that the dialect writes in a deletion. -/
def Delete.writtenOrder (d : Dialect) (s : Delete) : SortOrder :=
  match d with
  | .mysql => s.order
  | .postgres => if s.limit.rows.isNone then .unspecified else s.order

/-- The selection that the dialect writes in an upsert. -/
def Upsert.writtenSelection (d : Dialect) (s : Upsert) : Selection :=
  match d with
  | .mysql => .everything
  | .postgres => s.updateSelection.getD .everything

/-- The names of the fields that a statement writes. -/
def Statement.writtenNames (d : Dialect) : Statement → List String
  | .select s => (s.projection.included ++ (s.selection.keys ++ s.order.keys)).flatMap Key.names
  | .count s => s.selection.keys.flatMap Key.names
  | .delete s => (s.selection.keys ++ (s.writtenOrder d).keys).flatMap Key.names
  | .insert s => s.values.map (·.1)
  | .upsert s =>
    s.values.map (·.1) ++ s.updateColumns.getD []
      ++ (s.writtenSelection d).keys.flatMap Key.names

variable {n : String}

/-- A selection mentions the names of its selector and its order. -/
theorem Select.mentions_draft (d : Dialect) (t : Table) {s : Select}
    (hn : n ∈ (Statement.select s).writtenNames d) : Mentions n (s.draft d t) := by
  rw [Statement.writtenNames, List.flatMap_append, List.mem_append] at hn
  refine mentions_then ?_ _
  rcases hn with hprojection | hrows
  · cases hkeys : s.projection with
    | including keys =>
      rw [hkeys] at hprojection
      exact mentions_first (mentions_projected t hprojection) _
    | _ => simp [hkeys, Projection.included] at hprojection
  · exact mentions_then (mentions_then (mentions_rows d t _ _ hrows) _) _

theorem Count.mentions_draft (d : Dialect) (t : Table) {s : Count}
    (hn : n ∈ (Statement.count s).writtenNames d) : Mentions n (s.draft d t) := by
  have hrows : Mentions n (rows d t s.selection .unspecified s.limit s.offset) :=
    mentions_rows d t _ _ (by simpa [SortOrder.keys, Statement.writtenNames] using hn)
  refine mentions_then (mentions_then (mentions_then ?_ _) _) _
  split
  · exact hrows
  · exact mentions_then (mentions_first hrows _) _

/-- A deletion mentions the names of its selector and of the order that its dialect writes. -/
theorem Delete.mentions_draft (d : Dialect) (t : Table) {s : Delete}
    (hn : n ∈ (Statement.delete s).writtenNames d) : Mentions n (s.draft d t) := by
  cases d with
  | mysql => exact mentions_then (mentions_rows .mysql t _ _ hn) _
  | postgres =>
    rw [Statement.writtenNames, writtenOrder] at hn
    rw [draft]
    split at hn
    · next hnone =>
      rw [if_pos hnone]
      exact mentions_then (mentions_rows .postgres t _ _ hn) _
    · next hlimit =>
      rw [if_neg hlimit]
      have hsubselect : Mentions n (s.subselect .postgres t "ctid") :=
        mentions_then (mentions_then (mentions_then (mentions_rows .postgres t _ _ hn) _) _) _
      exact mentions_then (mentions_then (mentions_then (mentions_first hsubselect _) _) _) _

theorem Insert.mentions_valuesDraft (t : Table) {values : Assignments}
    (hn : n ∈ values.map (·.1)) : Mentions n (valuesDraft t values) :=
  mentions_then (mentions_then (mentions_then (mentions_first (mentions_names hn) _) _) _) _

theorem Insert.mentions_draft (d : Dialect) (t : Table) {s : Insert}
    (hn : n ∈ (Statement.insert s).writtenNames d) : Mentions n (s.draft d t) := by
  unfold draft
  split
  · next hnone =>
    rw [Statement.writtenNames, List.isEmpty_iff.1 hnone] at hn
    cases hn
  · exact mentions_valuesDraft t hn

namespace Upsert

/-- What an update is restricted to is inserted, too. -/
theorem updateColumns_subset {t : Table} {s : Upsert} {updates : Assignments}
    (h : s.updates t = .ok updates) : s.updateColumns.getD [] ⊆ s.values.map (·.1) := by
  have hupdated := updated_of_updates h
  unfold Updated at hupdated
  split at hupdated
  · next hnone => simp [hnone]
  · next columns hcolumns =>
    rw [hcolumns, Option.getD_some, ← hupdated.1]
    exact List.map_subset _ hupdated.2

/-- The upsert of PostgreSQL mentions its columns and the names of its selection. -/
theorem mentions_updateOrInsertDraft (t : Table) {s : Upsert}
    (hn : n ∈ s.values.map (·.1) ++ (s.writtenSelection .postgres).keys.flatMap Key.names) :
    Mentions n (s.updateOrInsertDraft t) := by
  refine mentions_next fun selection htarget => mentions_next fun updates _ => ?_
  rw [writtenSelection, eq_some_of_target htarget, Option.getD_some, List.mem_append] at hn
  refine mentions_then (mentions_then (mentions_then ?_ _) _) _
  refine mentions_then (mentions_then (mentions_then ?_ _) _) _
  rcases hn with hvalue | hselection
  · refine mentions_then (mentions_then (mentions_then ?_ _) _) _
    refine mentions_then (mentions_then (mentions_then ?_ _) _) _
    exact mentions_first (mentions_names hvalue) _
  · exact mentions_first (mentions_restriction t hselection) _

/-- An upsert mentions its columns and the names of the selection that its dialect writes. -/
theorem mentions_draft (d : Dialect) (t : Table) {s : Upsert}
    (hn : n ∈ (Statement.upsert s).writtenNames d) : Mentions n (s.draft d t) := by
  unfold draft
  split
  · exact fun _ houtcome => by cases houtcome
  · refine mentions_next fun updates hupdates => ?_
    have hwritten : n ∈ s.values.map (·.1) ++ (s.writtenSelection d).keys.flatMap Key.names := by
      have hcolumns := @updateColumns_subset t s updates hupdates n
      simp only [Statement.writtenNames, List.mem_append] at hn ⊢
      tauto
    cases d with
    | mysql =>
      have hvalue : n ∈ s.values.map (·.1) := by
        simpa [writtenSelection, Selection.keys] using hwritten
      refine mentions_next fun updates _ => ?_
      exact mentions_first (Insert.mentions_valuesDraft t hvalue) _
    | postgres => exact mentions_updateOrInsertDraft t hwritten

end Upsert

namespace Statement

/-- A statement mentions the names that it writes. -/
theorem mentions_draft (d : Dialect) (t : Table) {s : Statement} (hn : n ∈ s.writtenNames d) :
    Mentions n (s.draft d t) := by
  cases s with
  | select s => exact Select.mentions_draft d t hn
  | count s => exact Count.mentions_draft d t hn
  | delete s => exact Delete.mentions_draft d t hn
  | insert s => exact Insert.mentions_draft d t hn
  | upsert s => exact Upsert.mentions_draft d t hn

/-- Each name is one token of the text, if no name contains the quote. -/
theorem name_mem_lex {d : Dialect} {t : Table} {s : Statement} {q : Query}
    (htable : ∀ n ∈ t.names, d.quote ∉ n.toList) (hnames : ∀ n ∈ s.usedNames, d.quote ∉ n.toList)
    (h : s.compile d t = .ok q) (hn : n ∈ s.writtenNames d) : .name n ∈ Sql.lex d q.sql := by
  rw [lex_compile htable hnames h]
  obtain ⟨_, houtcome, -⟩ := map_eq_ok.1 h
  have hmem := mentions_draft d t hn _ houtcome
  exact List.mem_append_left _ (List.mem_flatMap.2 ⟨_, hmem, List.mem_singleton.2 rfl⟩)

end Statement

end DocumentQuery
