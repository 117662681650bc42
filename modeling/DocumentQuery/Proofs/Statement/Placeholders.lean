import DocumentQuery.Proofs.Draft.Clean
import DocumentQuery.Proofs.Statement.Parameters
import DocumentQuery.Statement.Step

/-!
# Placeholders of statements

Text and parameters of a statement stay in step. The names of tables, keys and columns may contain
the placeholder's character, since they are written as identifiers; as long as they do not contain
the quote of identifiers, the i-th placeholder token of a statement is the one written for its
i-th parameter. The same holds while a statement is written by hand, also behind a step that
failed half-way.
-/

namespace DocumentQuery
set_option autoImplicit false

/-! ## Names and texts -/

namespace Statement

/-- The names that a statement gives. -/
def usedNames : Statement → List String
  | .select s => (s.projection.keys ++ s.selection.keys ++ s.order.keys).flatMap Key.names
  | .count s => s.selection.keys.flatMap Key.names
  | .delete s => (s.selection.keys ++ s.order.keys).flatMap Key.names
  | .insert s => s.values.map (·.1)
  | .upsert s =>
    s.values.map (·.1) ++ s.updateColumns.getD []
      ++ (s.updateSelection.getD .everything).keys.flatMap Key.names

end Statement

namespace Step

/-- The names that a step gives. -/
def usedNames : Step → List String
  | .name identifier => [identifier]
  | .names identifiers => identifiers
  | .row values => values.map (·.1)
  | .restriction selection => selection.keys.flatMap Key.names
  | .condition node _ => node.keys.flatMap Key.names
  | .ordering order => order.keys.flatMap Key.names
  | .subselect _ s => (s.selection.keys ++ s.order.keys).flatMap Key.names
  | .raw _ | .table | .placeholder _ | .placeholders _ | .paging .. | .column ..
  | .columns .. => []

/-- The text that a step writes as it is given. -/
def rawText : Step → String
  | .raw sql => sql
  | .subselect list _ => list
  | _ => ""

/-- A step that writes neither placeholders nor quotes of its own. -/
structure Clean (d : Dialect) (step : Step) : Prop where
  text : step.rawText.toList.all (Sql.isPlain d) = true
  names : ∀ n ∈ step.usedNames, d.quote ∉ n.toList

end Step

/-! ## Statements -/

open Draft

/-- The columns that an update writes are named by the statement. -/
theorem Upsert.updates_subset {t : Table} {s : Upsert} {updates : Assignments}
    (h : s.updates t = .ok updates) :
    updates.map (·.1) ⊆ s.values.map (·.1) ++ s.updateColumns.getD [] := by
  unfold Upsert.updates at h
  split at h
  · next hnone =>
    cases h
    simp [hnone]
  · cases h
  · next columns _ hcolumns =>
    intro n hn
    obtain ⟨⟨column, p⟩, hmem, rfl⟩ := List.mem_map.1 hn
    obtain ⟨name, hname, hupdate⟩ := exists_of_mapM_eq_ok h hmem
    have hsame : name = column := by
      unfold Upsert.updateOf at hupdate
      split at hupdate
      · cases hupdate
        rfl
      · cases hupdate
    rw [hcolumns, Option.getD_some, ← hsame]
    exact List.mem_append_right _ hname

namespace Statement

section Clean

variable {d : Dialect} {t : Table} (htable : ∀ n ∈ t.names, d.quote ∉ n.toList)
include htable

theorem clean_select {s : Select} (h : ∀ n ∈ (select s).usedNames, d.quote ∉ n.toList) :
    AllClean d (s.draft d t) := by
  rw [usedNames, List.append_assoc, List.flatMap_append] at h
  have hprojected := clean_projected htable fun n hn => h n (List.mem_append_left _ hn)
  have hrows := clean_rows htable s.limit s.offset fun n hn => h n (List.mem_append_right _ hn)
  exact every_seq (clean_raw rfl rfl)
    (every_seq hprojected (every_seq (clean_raw rfl rfl) hrows))

theorem clean_count {s : Count} (h : ∀ n ∈ (count s).usedNames, d.quote ∉ n.toList) :
    AllClean d (s.draft d t) := by
  have hrows : AllClean d (rows d t s.selection .unspecified s.limit s.offset) :=
    clean_rows htable s.limit s.offset (by simpa [SortOrder.keys, usedNames] using h)
  have hcount : AllClean d (name "count") := clean_name (by cases d <;> decide)
  refine every_seq (clean_raw rfl rfl) (every_seq hcount (every_seq (clean_raw rfl rfl) ?_))
  split
  · exact hrows
  · have hbounded : AllClean d (name "bounded") := clean_name (by cases d <;> decide)
    exact every_seq (clean_raw rfl rfl)
      (every_seq hrows (every_seq (clean_raw rfl rfl) hbounded))

theorem clean_delete {s : Delete} (h : ∀ n ∈ (delete s).usedNames, d.quote ∉ n.toList) :
    AllClean d (s.draft d t) := by
  have hplain : AllClean d (s.plainDraft d t) :=
    every_seq (clean_raw rfl rfl) (clean_rows htable s.limit ⟨none⟩ h)
  cases d with
  | mysql => exact hplain
  | postgres =>
    rw [Delete.draft]
    split
    · have hunordered : ∀ n ∈ (s.selection.keys ++ SortOrder.unspecified.keys).flatMap Key.names,
          Dialect.postgres.quote ∉ n.toList := by
        intro n hn
        apply h
        simp only [SortOrder.keys, List.append_nil] at hn
        simp only [usedNames, List.flatMap_append, List.mem_append]
        exact .inl hn
      exact every_seq (clean_raw rfl rfl) (clean_rows htable s.limit ⟨none⟩ hunordered)
    · have hsubselect : AllClean .postgres (s.subselect .postgres t "ctid") :=
        clean_subselect htable (clean_raw rfl rfl) h
      exact every_seq (clean_raw rfl rfl) (every_seq (clean_table htable)
        (every_seq (clean_raw rfl rfl) (every_seq hsubselect (clean_raw rfl rfl))))

theorem clean_insert {s : Insert} (h : ∀ n ∈ (insert s).usedNames, d.quote ∉ n.toList) :
    AllClean d (s.draft d t) := by
  unfold Insert.draft
  split
  · refine every_seq (clean_raw rfl rfl) (every_seq (clean_table htable) ?_)
    cases d with
    | mysql =>
      show AllClean .mysql (raw " () VALUES ()")
      exact clean_raw rfl rfl
    | postgres =>
      show AllClean .postgres (raw " DEFAULT VALUES")
      exact clean_raw rfl rfl
  · exact clean_values htable h

theorem clean_duplicateKey {s : Upsert} (h : ∀ n ∈ (upsert s).usedNames, d.quote ∉ n.toList) :
    AllClean d (s.duplicateKeyDraft t) := by
  refine every_bind (every_lift _) fun updates hupdates => ?_
  have hvalues := clean_values htable fun n hn =>
    h n (List.mem_append_left _ (List.mem_append_left _ hn))
  refine every_seq hvalues (every_seq (clean_raw rfl rfl) ?_)
  refine every_separated (every_raw.1 (clean_raw rfl rfl)) fun write hwrite => ?_
  obtain ⟨⟨column, p⟩, hmem, rfl⟩ := List.mem_map.1 hwrite
  have hcolumn : AllClean d (name column) := by
    have hnamed := Upsert.updates_subset hupdates (List.mem_map.2 ⟨_, hmem, rfl⟩)
    exact clean_name (h column (List.mem_append_left _ hnamed))
  exact every_seq hcolumn (every_seq (clean_raw rfl rfl)
    (every_seq hcolumn (clean_raw rfl rfl)))

/-- The upsert of PostgreSQL is clean where its columns and the names of its selection are. -/
theorem clean_updateOrInsert {s : Upsert} (h : ∀ n ∈ (upsert s).usedNames, d.quote ∉ n.toList) :
    AllClean d (s.updateOrInsertDraft t) := by
  have htableName : AllClean d (name t.name) := clean_table htable
  have hupdated : AllClean d (name "updated") := clean_name (by cases d <;> decide)
  have hinserted : AllClean d (name "inserted") := clean_name (by cases d <;> decide)
  refine every_bind (every_lift _) fun selection htarget => ?_
  refine every_bind (every_lift _) fun updates hupdates => ?_
  have hrestriction : AllClean d (restriction t selection) := by
    refine clean_restriction htable fun n hn => h n (List.mem_append_right _ ?_)
    rw [Upsert.eq_some_of_target htarget]
    exact hn
  have hcolumns : AllClean d (names (s.values.map (·.1))) :=
    clean_names fun n hn => h n (List.mem_append_left _ (List.mem_append_left _ hn))
  refine every_seq (clean_raw rfl rfl) (every_seq hupdated (every_seq (clean_raw rfl rfl) ?_))
  refine every_seq htableName (every_seq (clean_raw rfl rfl) ?_)
  refine every_seq (every_separated (every_raw.1 (clean_raw rfl rfl)) fun write hwrite => ?_) ?_
  · obtain ⟨⟨column, p⟩, hmem, rfl⟩ := List.mem_map.1 hwrite
    have hnamed := Upsert.updates_subset hupdates (List.mem_map.2 ⟨_, hmem, rfl⟩)
    exact every_seq (clean_name (h column (List.mem_append_left _ hnamed)))
      (every_seq (clean_raw rfl rfl) (every_placeholder.2 rfl))
  refine every_seq hrestriction (every_seq (clean_raw rfl rfl) (every_seq hinserted ?_))
  refine every_seq (clean_raw rfl rfl) (every_seq htableName (every_seq (clean_raw rfl rfl) ?_))
  refine every_seq hcolumns (every_seq (clean_raw rfl rfl) ?_)
  refine every_seq (clean_placeholders _) (every_seq (clean_raw rfl rfl) (every_seq hupdated ?_))
  refine every_seq (clean_raw rfl rfl) (every_seq hupdated (every_seq (clean_raw rfl rfl) ?_))
  exact hinserted

/-- All pieces of a statement on clean names are clean. -/
theorem clean_draft {s : Statement} (h : ∀ n ∈ s.usedNames, d.quote ∉ n.toList) :
    AllClean d (s.draft d t) := by
  cases s with
  | select s => exact clean_select htable h
  | count s => exact clean_count htable h
  | delete s => exact clean_delete htable h
  | insert s => exact clean_insert htable h
  | upsert s =>
    change AllClean d (s.draft d t)
    unfold Upsert.draft
    split
    · exact every_lift _
    · refine every_bind (every_lift _) fun _ _ => ?_
      cases d with
      | mysql => exact clean_duplicateKey htable h
      | postgres => exact clean_updateOrInsert htable h

end Clean

end Statement

/-! ## Writing step by step -/

namespace Step

/-- Reporting the outcome of a step writes nothing. -/
theorem clean_written {d : Dialect} {draft : Draft Unit} (h : AllClean d draft) :
    AllClean d (written draft) :=
  every_seq h (every_pure _)

/-- All pieces of a clean step are clean, those in front of a fault included. -/
theorem clean_draft {d : Dialect} {t : Table} (htable : ∀ n ∈ t.names, d.quote ∉ n.toList)
    {step : Step} (h : step.Clean d) : AllClean d (step.draft d t) := by
  obtain ⟨htext, hnames⟩ := h
  have hraw : AllClean d (Draft.raw step.rawText) := every_raw.2 htext
  cases step with
  | raw sql => exact clean_written hraw
  | table => exact clean_written (clean_table htable)
  | name identifier => exact clean_written (clean_name (hnames identifier (by simp [usedNames])))
  | names identifiers => exact clean_written (clean_names hnames)
  | placeholder p => exact clean_written (every_placeholder.2 rfl)
  | placeholders ps => exact clean_written (clean_placeholders ps)
  | row values => exact clean_written (clean_values htable hnames)
  | paging limit offset => exact clean_written (clean_paging limit offset)
  | restriction selection => exact clean_written (clean_restriction htable hnames)
  | condition node nested => exact clean_written (clean_condition htable nested hnames)
  | ordering order => exact clean_written (clean_ordering htable hnames)
  | subselect list s => exact clean_written (clean_subselect htable hraw hnames)
  | column key => exact every_lift _
  | columns key => exact every_lift _

/-- The pieces that steps append one behind the other. -/
def piecesOf (d : Dialect) (t : Table) (steps : List Step) : List Piece :=
  steps.flatMap fun step => (step.draft d t).pieces

/-- A step behind some pieces adds its own, also where it fails. -/
theorem run_ofPieces (d : Dialect) (t : Table) (before : List Piece) (step : Step) :
    (step.run d t (Query.ofPieces d before)).1
      = Query.ofPieces d (before ++ (step.draft d t).pieces) :=
  (Query.ofPieces_append d before _).symm

/-- There is a state behind every step, behind those that fail as well. -/
theorem length_runAll (d : Dialect) (t : Table) (before : Query) (steps : List Step) :
    (runAll d t before steps).length = steps.length := by
  induction steps generalizing before with
  | nil => rfl
  | cons step rest ih => rw [runAll, List.length_cons, ih, List.length_cons]

/-- What is written behind each step is made of the pieces of the steps up to it, whether or not
some of them failed. -/
theorem runAll_ofPieces {d : Dialect} {t : Table} {before : List Piece} {steps : List Step}
    {k : Nat} {result : Query × Except StatementError Reply}
    (h : (runAll d t (Query.ofPieces d before) steps)[k]? = some result) :
    result.1 = Query.ofPieces d (before ++ piecesOf d t (steps.take (k + 1))) := by
  induction steps generalizing before k with
  | nil => cases h
  | cons step rest ih =>
    rw [List.take_succ_cons, piecesOf, List.flatMap_cons, ← List.append_assoc]
    cases k with
    | zero =>
      cases h
      rw [List.take_zero, List.flatMap_nil, List.append_nil]
      exact run_ofPieces d t before step
    | succ k =>
      rw [runAll, List.getElem?_cons_succ, run_ofPieces] at h
      exact ih h

end Step

/-! ## Alignment -/

/-- On names without the dialect's quote, a compiled statement has its placeholders where its
parameters were written, and its parameters are those of its clauses in order. Text written by
hand has a state behind every step, and in each of them it is in step with its parameters. -/
theorem placeholders_aligned {d : Dialect} {t : Table}
    (htable : ∀ n ∈ t.names, d.quote ∉ n.toList) :
    (∀ (s : Statement) (q : Query), (∀ n ∈ s.usedNames, d.quote ∉ n.toList) →
        s.compile d t = .ok q →
        q.Aligned d (s.draft d t).pieces ∧ q.parameters = s.parameters d t) ∧
      ∀ steps : List Step, (∀ step ∈ steps, step.Clean d) →
        (Step.runAll d t ⟨"", []⟩ steps).length = steps.length ∧
          ∀ (k : Nat) (result : Query × Except StatementError Reply),
            (Step.runAll d t ⟨"", []⟩ steps)[k]? = some result →
            result.1.Aligned d (Step.piecesOf d t (steps.take (k + 1))) := by
  constructor
  · intro s q hnames hcompile
    obtain ⟨u, houtcome, rfl⟩ := map_eq_ok.1 hcompile
    have hclean := s.clean_draft htable hnames
    exact ⟨Query.aligned_finished hclean, s.binds_draft d t u houtcome⟩
  · intro steps hsteps
    refine ⟨Step.length_runAll d t _ steps, fun k result hresult => ?_⟩
    have hstart : (⟨"", []⟩ : Query) = Query.ofPieces d [] := rfl
    rw [hstart] at hresult
    rw [Step.runAll_ofPieces hresult, List.nil_append]
    refine Query.aligned_ofPieces fun piece hpiece => ?_
    obtain ⟨step, hstep, hmem⟩ := List.mem_flatMap.1 hpiece
    exact Step.clean_draft htable (hsteps step (List.mem_of_mem_take hstep)) piece hmem

/-- A table whose name contains the placeholder's character, with two key columns. -/
def Table.marked : Table := { name := "a?", primaryKey := ["x", "y?"] }

/-- A comparison in front of a literal, which is bound first. -/
def Node.marked : Node :=
  .comparison ⟨.oneOf, .column "b?", .values [.predicate .gt (.int 5), .literal (.int 1)]⟩

/-- Steps of which the second fails behind its first comparison, since the key has two columns. -/
def Step.marked : List Step :=
  [.table, .condition (.and [.marked, .comparison ⟨.eq, .id, .value (.int 2)⟩]) true,
    .raw ", ", .placeholder .null]

/-- A statement and four steps with the placeholder's character in their names, one of which fails:
all of them are aligned. -/
theorem marked_aligned :
    (∃ q, (Statement.delete { selection := .matching .marked, limit := ⟨some 3⟩ }).compile
        .postgres .marked = .ok q ∧
      (Sql.lex .postgres q.sql).count .placeholder = 2 ∧ q.parameters = [.int 1, .int 5]) ∧
    (∀ k < 4, ∃ result, (Step.runAll .mysql .marked ⟨"", []⟩ Step.marked)[k]? = some result ∧
      (Sql.lex .mysql result.1.sql).count .placeholder = result.1.parameters.length) ∧
    ∃ q, (Step.runAll .mysql .marked ⟨"", []⟩ Step.marked)[1]?
        = some (q, .error (.compositeKey "a?")) ∧
      (Sql.lex .mysql q.sql).count .placeholder = 2 ∧ q.parameters = [.int 1, .int 5] := by
  refine ⟨?_, ?_⟩
  · obtain ⟨hstatements, -⟩ := placeholders_aligned (d := .postgres) (t := .marked) (by decide)
    obtain ⟨q, hq⟩ : ∃ q, (Statement.delete
        { selection := .matching .marked, limit := ⟨some 3⟩ }).compile .postgres .marked = .ok q :=
      ⟨_, rfl⟩
    obtain ⟨haligned, hparameters⟩ := hstatements _ q (by decide) hq
    refine ⟨q, hq, ?_, hparameters⟩
    rw [haligned.count, hparameters]
    rfl
  · obtain ⟨-, hsteps⟩ := placeholders_aligned (d := .mysql) (t := .marked) (by decide)
    have hclean : ∀ step ∈ Step.marked, step.Clean .mysql := by
      intro step hstep
      simp only [Step.marked, List.mem_cons, List.not_mem_nil, or_false] at hstep
      rcases hstep with rfl | rfl | rfl | rfl
      · exact ⟨by decide, by decide⟩
      · exact ⟨by decide, by decide⟩
      · exact ⟨by decide, by decide⟩
      · exact ⟨by decide, by decide⟩
    obtain ⟨hlength, haligned⟩ := hsteps Step.marked hclean
    constructor
    · intro k hk
      have hstate := List.getElem?_eq_getElem (Nat.lt_of_lt_of_eq hk hlength.symm)
      exact ⟨_, hstate, (haligned k _ hstate).count⟩
    · exact ⟨_, rfl, (haligned 1 _ rfl).count, rfl⟩

end DocumentQuery
