import DocumentQuery.Catalog
import DocumentQuery.Proofs.Draft.Spelling
import DocumentQuery.Proofs.Statement.Placeholders

/-!
# Statements are grammatical

Every statement that a catalog gives for a call is one of the dialect's grammar. What could leave a
hole in a statement is excluded before it is written: options describe no empty set and no empty
group, a projection or an update that would name no column is refused, and an insertion without
values is one of defaults.
-/

namespace DocumentQuery
set_option autoImplicit false

open Draft
open Sql (fixed identifier list listOf named optional)

namespace Statement

/-- The kind of call that a statement belongs to. -/
def method : Statement → Method
  | .select _ => .select
  | .count _ => .count
  | .delete _ => .delete
  | .insert _ => .insert
  | .upsert _ => .upsert

/-- A statement that options can describe: its selections are such, and its projection names keys
if it does not take everything. -/
def Expressible : Statement → Prop
  | .select s => s.projection.Named ∧ s.selection.Expressible
  | .count s => s.selection.Expressible
  | .delete s => s.selection.Expressible
  | .insert _ => True
  | .upsert s => ∀ selection ∈ s.updateSelection, selection.Expressible

end Statement

/-! ## Options -/

theorem Selection.expressible_of_ofValue {v : Value} {selection : Selection}
    (h : ofValue v = .ok selection) : selection.Expressible :=
  expressible_of_ofSelector (by simp) h

/-- A projection that is read names a column or picks all. -/
theorem Projection.named_of_ofValue {v : Value} {projection : Projection}
    (h : ofValue v = .ok projection) : projection.Named := by
  cases v with
  | null =>
    cases h
    trivial
  | object entries =>
    obtain ⟨flags, -, rfl⟩ := map_eq_ok.1 h
    unfold ofFlags
    split
    · trivial
    · next hkeys => exact hkeys
    · next hkeys _ => exact hkeys
  | _ => cases h

/-- The selection of an upsert is one that a document can say. -/
theorem Upsert.expressible_of_selectionOfValue {v : Value} {updateSelection : Option Selection}
    (h : selectionOfValue v = .ok updateSelection) :
    ∀ selection ∈ updateSelection, selection.Expressible := by
  unfold selectionOfValue at h
  split at h
  · cases h
    simp
  · obtain ⟨selection, hselection, rfl⟩ := map_eq_ok.1 h
    rintro _ ⟨⟩
    exact Selection.expressible_of_ofValue hselection

namespace Statement

/-- The options of a method give a statement of that method that documents can say. -/
theorem expressible_of_ofOptions {m : Method} {options : Document} {s : Statement}
    (h : ofOptions m options = .ok s) : s.method = m ∧ s.Expressible := by
  cases m with
  | select =>
    obtain ⟨_, hread, rfl⟩ := map_eq_ok.1 h
    obtain ⟨projection, hprojection, hread⟩ := bind_eq_ok.1 hread
    obtain ⟨selection, hselection, hread⟩ := bind_eq_ok.1 hread
    obtain ⟨order, -, hread⟩ := bind_eq_ok.1 hread
    obtain ⟨limit, -, hread⟩ := bind_eq_ok.1 hread
    obtain ⟨offset, -, hread⟩ := bind_eq_ok.1 hread
    cases hread
    exact ⟨rfl, Projection.named_of_ofValue hprojection,
      Selection.expressible_of_ofValue hselection⟩
  | count =>
    obtain ⟨_, hread, rfl⟩ := map_eq_ok.1 h
    obtain ⟨selection, hselection, hread⟩ := bind_eq_ok.1 hread
    obtain ⟨limit, -, hread⟩ := bind_eq_ok.1 hread
    obtain ⟨offset, -, hread⟩ := bind_eq_ok.1 hread
    cases hread
    exact ⟨rfl, Selection.expressible_of_ofValue hselection⟩
  | delete =>
    obtain ⟨_, hread, rfl⟩ := map_eq_ok.1 h
    obtain ⟨selection, hselection, hread⟩ := bind_eq_ok.1 hread
    obtain ⟨order, -, hread⟩ := bind_eq_ok.1 hread
    obtain ⟨limit, -, hread⟩ := bind_eq_ok.1 hread
    cases hread
    exact ⟨rfl, Selection.expressible_of_ofValue hselection⟩
  | insert =>
    obtain ⟨_, hread, rfl⟩ := map_eq_ok.1 h
    exact ⟨rfl, trivial⟩
  | upsert =>
    obtain ⟨_, hread, rfl⟩ := map_eq_ok.1 h
    obtain ⟨updateSelection, hselection, hread⟩ := bind_eq_ok.1 hread
    obtain ⟨values, -, hread⟩ := bind_eq_ok.1 hread
    obtain ⟨updateColumns, -, hread⟩ := bind_eq_ok.1 hread
    cases hread
    exact ⟨rfl, Upsert.expressible_of_selectionOfValue hselection⟩

end Statement

/-! ## Statements -/

/-- An update writes some column, and only clean ones. -/
theorem Upsert.columns_of_updates {d : Dialect} {t : Table} {s : Upsert}
    (hvalues : s.values ≠ [])
    (hnames : ∀ n ∈ (Statement.upsert s).usedNames, d.quote ∉ n.toList) {updates : Assignments}
    (h : s.updates t = .ok updates) :
    updates ≠ [] ∧ ∀ column ∈ updates.map (·.1), (Piece.name column).isClean d = true := by
  constructor
  · unfold Upsert.updates at h
    split at h
    · cases h
      exact hvalues
    · cases h
    · next hcolumns _ =>
      rintro rfl
      cases mapM_eq_ok.1 h
      exact hcolumns rfl
  · intro column hmem
    exact isClean_name.2 (hnames column (List.mem_append_left _ (updates_subset h hmem)))

section Statements

variable {d : Dialect} {t : Table} (htable : ∀ n ∈ t.names, d.quote ∉ n.toList)
include htable

theorem isClean_tableName : (Piece.name t.name).isClean d = true :=
  isClean_name.2 (htable t.name (by simp [Table.names]))

/-- A selection is in the grammar of selections. -/
theorem Select.spells_draft {s : Select} (hprojection : s.projection.Named)
    (hselection : s.selection.Expressible)
    (hnames : ∀ n ∈ (Statement.select s).usedNames, d.quote ∉ n.toList) :
    Spells d (s.draft d t) (Sql.select d) := by
  simp only [Statement.usedNames, List.flatMap_append, List.mem_append] at hnames
  have hclean : ∀ n ∈ t.names ++ s.projection.keys.flatMap Key.names,
      (Piece.name n).isClean d = true := by
    intro n hn
    refine isClean_name.2 ?_
    rcases List.mem_append.1 hn with hn | hn
    · exact htable n hn
    · exact hnames n (.inl (.inl hn))
  have hkeys := isClean_columns htable fun n hn => hnames n (.inl (.inr hn))
  have horder := isClean_columns htable fun n hn => hnames n (.inr hn)
  have hcolumns := spells_projected hprojection hclean
  have hrows := spells_rows (isClean_tableName htable) hselection hkeys (follows_ordering horder)
    (follows_paging s.limit s.offset)
  simp only [Sql.select, mul_assoc]
  exact (hcolumns.seq (hrows.behind_raw (by decide))).after_raw (by decide)

omit htable in
/-- Rows as a table of their own. -/
theorem spells_derived {draft : Draft Unit}
    (h : Spells d draft (identifier * (optional (Sql.restriction d) * Sql.paging d))) :
    Spells d (raw "(SELECT 1 FROM " >>= fun _ => draft >>= fun _ => raw ") AS " >>= fun _ =>
      name "bounded") (Sql.derived d) := by
  have hbounded : Spells d (name "bounded") (named "bounded") :=
    spells_name (isClean_name.2 (by cases d <;> decide))
  have hderived : Spells d (raw "(SELECT 1 FROM " >>= fun _ => draft >>= fun _ =>
      raw ") AS " >>= fun _ => name "bounded")
      (fixed d "(SELECT 1 FROM" * (identifier * (optional (Sql.restriction d) * Sql.paging d) *
        (fixed d ") AS" * named "bounded"))) :=
    (h.seq (hbounded.behind_raw (by decide))).after_raw (by decide)
  simpa only [Sql.derived, mul_assoc] using hderived

theorem Count.spells_draft {s : Count} (hselection : s.selection.Expressible)
    (hnames : ∀ n ∈ (Statement.count s).usedNames, d.quote ∉ n.toList) :
    Spells d (s.draft d t) (Sql.count d) := by
  have hname := isClean_tableName htable
  have hkeys := isClean_columns htable hnames
  have hcount : Spells d (name "count") (named "count") :=
    spells_name (isClean_name.2 (by cases d <;> decide))
  have horder : Follows d (ordering t .unspecified) 1 := follows_pure
  simp only [Sql.count, mul_assoc]
  refine Spells.after_raw (by decide) (hcount.seq (Spells.behind_raw (by decide) ?_))
  split
  · next hnone =>
    have hrows := spells_rows hname hselection hkeys horder (follows_paging_none hnone)
    rw [mul_one, mul_one] at hrows
    exact hrows.mono le_self_add
  · next hsome =>
    have hpaging := follows_paging_bounded (d := d) (Bool.eq_false_iff.2 hsome)
    have hrows := spells_rows hname hselection hkeys horder hpaging
    rw [one_mul] at hrows
    exact (spells_derived hrows).mono le_add_self

/-- The rows of a bounded deletion by their identifiers. -/
theorem Delete.spells_subselect {s : Delete} (hselection : s.selection.Expressible)
    (hnames : ∀ n ∈ (Statement.delete s).usedNames, d.quote ∉ n.toList) {n : Nat}
    (hlimit : s.limit = ⟨some n⟩) : Spells d (s.subselect d t "ctid") (Sql.rowIds d) := by
  simp only [Statement.usedNames, List.flatMap_append, List.mem_append] at hnames
  have hkeys := isClean_columns htable fun n hn => hnames n (.inl hn)
  have horder := isClean_columns htable fun n hn => hnames n (.inr hn)
  have hctid : Spells d (raw "ctid") (fixed d "ctid") := spells_raw (by decide)
  have hrows := spells_rows (isClean_tableName htable) hselection hkeys (follows_ordering horder)
    (follows_paging_limit n)
  rw [← hlimit] at hrows
  simp only [Sql.rowIds, mul_assoc]
  exact (hctid.seq (hrows.behind_raw (by decide))).after_raw (by decide)

/-- A deletion is in the grammar of its dialect. -/
theorem Delete.spells_draft {s : Delete} (hselection : s.selection.Expressible)
    (hnames : ∀ n ∈ (Statement.delete s).usedNames, d.quote ∉ n.toList) :
    Spells d (s.draft d t) (Sql.delete d) := by
  have hname := isClean_tableName htable
  have hsubselect := fun n => Delete.spells_subselect (n := n) htable hselection hnames
  simp only [Statement.usedNames, List.flatMap_append, List.mem_append] at hnames
  have hkeys := isClean_columns htable fun n hn => hnames n (.inl hn)
  have horder := isClean_columns htable fun n hn => hnames n (.inr hn)
  cases d with
  | mysql =>
    have hrows := spells_rows hname hselection hkeys (follows_ordering horder)
      (follows_paging_rows s.limit)
    simp only [Sql.delete, mul_assoc]
    exact hrows.after_raw (by decide)
  | postgres =>
    rw [Delete.draft]
    simp only [Sql.delete, mul_assoc]
    split
    · next hnone =>
      have hunordered : Follows .postgres (ordering t .unspecified) 1 := follows_pure
      have hunlimited : Follows .postgres (paging .postgres s.limit ⟨none⟩) 1 :=
        follows_paging_none (by rw [hnone]; rfl)
      have hrows := spells_rows hname hselection hkeys hunordered hunlimited
      rw [mul_one, mul_one] at hrows
      exact (hrows.mono (mul_le_mul_right le_self_add _)).after_raw (by decide)
    · next hsome =>
      obtain ⟨n, hn⟩ := Option.ne_none_iff_exists'.1 (by simpa using hsome : s.limit.rows ≠ none)
      have hname := spells_identifier hname
      refine Spells.after_raw (by decide) (hname.seq (Follows.mono ?_ le_add_self))
      refine Spells.behind_raw (by decide) ?_
      exact (hsubselect n (congrArg Limit.mk hn)).seq (follows_raw (by decide))

/-- A row of values has as many placeholders as columns. -/
theorem Insert.spells_valuesDraft {values : Assignments} (hne : values ≠ [])
    (hnames : ∀ n ∈ values.map (·.1), d.quote ∉ n.toList) :
    Spells d (Insert.valuesDraft t values) (⨆ k, Sql.row d k) := by
  obtain ⟨first, rest, rfl⟩ := List.exists_cons_of_ne_nil hne
  have hcolumns : Spells d (names ((first :: rest).map (·.1))) (listOf d rest.length identifier) :=
    spells_names (by simp) fun n hn => isClean_name.2 (hnames n hn)
  have hvalues : Spells d (placeholders ((first :: rest).map (·.2)))
      (listOf d rest.length Sql.placeholder) := spells_placeholders (by simp)
  refine Spells.mono ?_ (le_iSup (Sql.row d) rest.length)
  simp only [Sql.row, mul_assoc]
  refine Spells.after_raw (by decide) ((spells_identifier (isClean_tableName htable)).seq ?_)
  refine Spells.behind_raw (by decide) (hcolumns.seq ?_)
  exact Spells.behind_raw (by decide) (hvalues.seq (follows_raw (by decide)))

theorem Insert.spells_draft {s : Insert}
    (hnames : ∀ n ∈ (Statement.insert s).usedNames, d.quote ∉ n.toList) :
    Spells d (s.draft d t) (Sql.insert d) := by
  unfold Insert.draft
  split
  · have hname := spells_identifier (isClean_tableName htable)
    refine Spells.mono ?_ le_add_self
    rw [mul_assoc]
    refine Spells.after_raw (by decide) (hname.seq ?_)
    cases d with
    | mysql => exact follows_raw (by decide)
    | postgres => exact follows_raw (by decide)
  · next hsome =>
    have hrow := Insert.spells_valuesDraft htable (by simpa using hsome) hnames
    exact hrow.mono le_self_add

/-- The upsert of MySQL is an insertion with the updates behind it. -/
theorem Upsert.spells_duplicateKeyDraft {s : Upsert} (hvalues : s.values ≠ [])
    (hnames : ∀ n ∈ (Statement.upsert s).usedNames, d.quote ∉ n.toList) :
    Spells d (s.duplicateKeyDraft t) ((⨆ k, Sql.row d k) *
      (fixed d "ON DUPLICATE KEY UPDATE" *
        list d (identifier * (fixed d "= VALUES(" * (identifier * fixed d ")"))))) := by
  refine spells_lift fun updates hupdates => ?_
  have hrow := Insert.spells_valuesDraft htable hvalues fun n hn =>
    hnames n (List.mem_append_left _ (List.mem_append_left _ hn))
  obtain ⟨hne, hcolumns⟩ := columns_of_updates hvalues hnames hupdates
  refine hrow.seq (Spells.behind_raw (by decide) (spells_list hne ?_))
  rintro ⟨column, p⟩ hmem
  have hcolumn := spells_identifier (hcolumns column (List.mem_map.2 ⟨_, hmem, rfl⟩))
  refine hcolumn.seq (Spells.behind_raw (by decide) ?_)
  exact hcolumn.seq (follows_raw (by decide))

/-- The restriction of an update to the row that its selection finds. -/
theorem Upsert.follows_target {s : Upsert} {selection : Selection}
    (htarget : s.target .postgres t = .ok selection)
    (hselection : (Statement.upsert s).Expressible)
    (hnames : ∀ n ∈ (Statement.upsert s).usedNames, d.quote ∉ n.toList) :
    Follows d (restriction t selection) (Sql.restriction d) := by
  have hsome := eq_some_of_target htarget
  cases selection with
  | everything =>
    rw [target, hsome] at htarget
    cases htarget
  | matching node =>
    refine follows_where (hselection _ hsome) (isClean_columns htable fun n hn => ?_)
    refine hnames n (List.mem_append_right _ ?_)
    rw [hsome]
    exact hn

/-- The upsert of PostgreSQL is an update and an insertion where that found no row. -/
theorem Upsert.spells_updateOrInsertDraft {s : Upsert} (hvalues : s.values ≠ [])
    (hselection : (Statement.upsert s).Expressible)
    (hnames : ∀ n ∈ (Statement.upsert s).usedNames, d.quote ∉ n.toList) :
    Spells d (s.updateOrInsertDraft t) (⨆ k, Sql.updateOrInsert d k) := by
  refine spells_lift fun selection htarget => spells_lift fun updates hupdates => ?_
  have hname := spells_identifier (isClean_tableName htable)
  have hupdated : Spells d (name "updated") (named "updated") :=
    spells_name (isClean_name.2 (by cases d <;> decide))
  have hinserted : Spells d (name "inserted") (named "inserted") :=
    spells_name (isClean_name.2 (by cases d <;> decide))
  have hwhere := Upsert.follows_target htable htarget hselection hnames
  obtain ⟨hne, hcolumns⟩ := columns_of_updates hvalues hnames hupdates
  have hassigned : Spells d
      (separated ", " (updates.map fun update => name update.1 >>= fun _ =>
        raw " = " >>= fun _ => placeholder update.2))
      (list d (identifier * (fixed d "=" * Sql.placeholder))) := by
    refine spells_list hne fun update hmem => ?_
    have hcolumn := spells_identifier (hcolumns update.1 (List.mem_map_of_mem hmem))
    exact hcolumn.seq ((spells_placeholder update.2).behind_raw (by decide))
  -- The insertion of the values, as many as there are columns.
  obtain ⟨first, rest, hlist⟩ := List.exists_cons_of_ne_nil hvalues
  have hlength : s.values.length = rest.length + 1 := by rw [hlist, List.length_cons]
  have hnamed : Spells d (names (s.values.map (·.1))) (listOf d rest.length identifier) := by
    refine spells_names (by rw [List.length_map, hlength]) fun n hn => isClean_name.2 ?_
    exact hnames n (List.mem_append_left _ (List.mem_append_left _ hn))
  have hbound : Spells d (placeholders (s.values.map (·.2)))
      (listOf d rest.length Sql.placeholder) :=
    spells_placeholders (by rw [List.length_map, hlength])
  refine Spells.mono ?_ (le_iSup (Sql.updateOrInsert d) rest.length)
  simp only [Sql.updateOrInsert, mul_assoc]
  refine Spells.after_raw (by decide) (hupdated.seq ?_)
  refine Spells.behind_raw (by decide) (hname.seq ?_)
  refine Spells.behind_raw (by decide) (hassigned.seq (hwhere.seq ?_))
  refine Spells.behind_raw (by decide) (hinserted.seq ?_)
  refine Spells.behind_raw (by decide) (hname.seq ?_)
  refine Spells.behind_raw (by decide) (hnamed.seq ?_)
  refine Spells.behind_raw (by decide) (hbound.seq ?_)
  refine Spells.behind_raw (by decide) (hupdated.seq ?_)
  refine Spells.behind_raw (by decide) (hupdated.seq ?_)
  exact hinserted.behind_raw (by decide)

/-- A statement that options can describe is one of the grammar, in front of its semicolon. -/
theorem Statement.spells_draft {s : Statement} (h : s.Expressible)
    (hnames : ∀ n ∈ s.usedNames, d.quote ∉ n.toList) :
    Spells d (s.draft d t) (Sql.body d s.method) := by
  cases s with
  | select s => exact Select.spells_draft htable h.1 h.2 hnames
  | count s => exact Count.spells_draft htable h hnames
  | delete s => exact Delete.spells_draft htable h hnames
  | insert s => exact Insert.spells_draft htable hnames
  | upsert s =>
    change Spells d (s.draft d t) _
    unfold Upsert.draft
    split
    · rintro _ ⟨⟩
    · next hsome =>
      have hvalues : s.values ≠ [] := by simpa using hsome
      refine spells_lift fun _ _ => ?_
      cases d with
      | mysql =>
        have hdraft := Upsert.spells_duplicateKeyDraft htable hvalues hnames
        simp only [← mul_assoc] at hdraft
        exact hdraft
      | postgres => exact Upsert.spells_updateOrInsertDraft htable hvalues h hnames

end Statements

namespace Catalog

/-- The statement of every call is one of the dialect's grammar, as long as no name contains the
quote of identifiers. -/
theorem query_grammatical {catalog : Catalog} {m : Method} {table : String} {options : Document}
    {q : Query} (htable : ∀ n ∈ (catalog.table table).names, catalog.dialect.quote ∉ n.toList)
    (hoptions : ∀ s, Statement.ofOptions m options = .ok s →
      ∀ n ∈ s.usedNames, catalog.dialect.quote ∉ n.toList)
    (h : catalog.query m table options = .ok q) :
    Sql.lex catalog.dialect q.sql ∈ Sql.statement catalog.dialect m := by
  obtain ⟨s, hs, h⟩ := bind_eq_ok.1 h
  have hs := mapError_eq_ok.1 hs
  obtain ⟨u, houtcome, rfl⟩ := map_eq_ok.1 (mapError_eq_ok.1 h)
  obtain ⟨rfl, hexpressible⟩ := Statement.expressible_of_ofOptions hs
  have hdraft := Statement.spells_draft htable hexpressible (hoptions s hs) u houtcome
  have hsemicolon : Sql.Spells catalog.dialect ";".toList (fixed catalog.dialect ";") :=
    Sql.spells_of_isWritten (by decide)
  have hwhole := (hdraft.append_gap hsemicolon rfl).tokens
  rwa [text, ← Query.toList_sql_ofPieces, ← String.toList_append] at hwhole

/-- The options of a bounded deletion, whose selector has a set with a comparison among its
members inside a choice. -/
def boundedOptions : Document :=
  [("selector", .object [("$or", .array
      [.object [("a", .null)],
        .object [("b?", .object [("$nin", .array [.object [("$like", .text "x%")], .int 1])])]])]),
    ("order", .array [.object [("$id", .int (-1))], .text "a"]), ("limit", .int 3)]

/-- The text of this deletion is in the grammar of PostgreSQL. -/
theorem bounded_grammatical :
    ∃ q, query ⟨.postgres, []⟩ .delete "t" boundedOptions = .ok q ∧
      Sql.lex .postgres q.sql ∈ Sql.statement .postgres .delete := by
  obtain ⟨q, hq⟩ : ∃ q, query ⟨.postgres, []⟩ .delete "t" boundedOptions = .ok q := ⟨_, rfl⟩
  refine ⟨q, hq, query_grammatical (by decide) (fun s hs => ?_) hq⟩
  cases hs
  decide

end Catalog

end DocumentQuery
