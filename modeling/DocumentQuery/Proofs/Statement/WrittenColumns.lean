import DocumentQuery.Catalog
import DocumentQuery.Options.Reading
import DocumentQuery.Proofs.Draft.Text
import DocumentQuery.Proofs.Statement.Upsert

/-!
# Columns that an upsert writes

The text of an upsert, for any names: the list of the inserted columns and the list of the columns
that are set. The inserted ones are the keys of a document, so each of them stands there once. The
others are those of a list that is taken as it is, and stand there as often as in the list.
-/

namespace DocumentQuery
set_option autoImplicit false

open Draft

/-! ## Documents -/

/-- As a document the value has no key twice. -/
def Value.Distinct (v : Value) : Prop :=
  ∀ entries, v = .object entries → (Entries.keys entries).Nodup

/-- No document from JSON has a key twice. -/
theorem Value.distinct_ofJson (json : Json) : (ofJson json).Distinct := by
  intro entries h
  cases json with
  | object named =>
    cases h
    exact Entries.nodup_keys_ofList _
  | number n =>
    cases n with
    | float x => cases h
    | integer n =>
      rw [ofJson, Json.Number.value] at h
      split at h <;> cases h
  | _ => cases h

/-- Options that are read from JSON hold such documents. -/
theorem Method.distinct_field {m : Method} {json : Json} {options : Document}
    (h : m.optionsOfJson json = .ok options) (name : String) : (options.field name).Distinct := by
  have hread : ∀ entry ∈ options, ∃ value, entry.2 = Value.ofJson value := by
    intro entry hentry
    cases json with
    | object entries =>
      rw [optionsOfJson] at h
      split at h
      · cases h
      · cases h
        obtain ⟨read, -, rfl⟩ := List.mem_map.1 hentry
        exact ⟨read.2, rfl⟩
    | array items =>
      rw [optionsOfJson] at h
      split at h
      · cases h
      · cases h
        obtain ⟨value, -, hvalue⟩ := List.mem_map.1 (List.of_mem_zip hentry).2
        exact ⟨value, hvalue.symm⟩
    | _ => cases h
  rw [Document.field]
  cases hfield : Entries.get? name options with
  | none => exact nofun
  | some v =>
    obtain ⟨value, rfl⟩ := hread (name, v) (Entries.mem_of_get?_eq_some hfield)
    exact Value.distinct_ofJson value

namespace ColumnList

/-- The names that an update is for: all `columns`, or those that a list gives. -/
inductive Lists (columns : List String) : Value → List String → Prop where
  | null : Lists columns .null columns
  | text {name : String} : Lists columns (.text name) [name]
  | array {names : List String} : Lists columns (.array (names.map .text)) names

/-- Names are listed once each, unless an array has one of them twice. -/
theorem Lists.nodup_iff {columns names : List String} {v : Value} (h : Lists columns v names)
    (hcolumns : columns.Nodup) :
    names.Nodup ↔ ∀ listed : List String, v = .array (listed.map .text) → listed.Nodup := by
  have htext : Function.Injective Value.text := fun _ _ heq => Value.text.inj heq
  cases h with
  | null => exact iff_of_true hcolumns nofun
  | text => exact iff_of_true (List.nodup_singleton _) nofun
  | array =>
    constructor
    · rintro hnames listed heq
      rw [← htext.list_map (Value.array.inj heq)]
      exact hnames
    · exact fun h => h names rfl

theorem eq_of_checkColumn {name column : String} (h : checkColumn name = .ok column) :
    column = name := by
  rw [checkColumn] at h
  split at h
  · cases h
    rfl
  · cases h

theorem eq_of_mapM_checkColumn {names columns : List String}
    (h : names.mapM checkColumn = .ok columns) : columns = names := by
  have hmap : columns.map id = names.map id :=
    map_eq_of_forall₂ ((mapM_eq_ok.1 h).imp fun _ _ => eq_of_checkColumn)
  simpa using hmap

theorem eq_of_textOfItem {v : Value} {name : String} (h : textOfItem v = .ok name) :
    .text name = v := by
  cases v with
  | text => cases h; rfl
  | _ => cases h

/-- An accepted list is the columns that its document lists. -/
theorem lists_of_ofValue {v : Value} {list : ColumnList} (h : ofValue v = .ok list)
    (columns : List String) : Lists columns v (list.getD columns) := by
  cases v with
  | null =>
    cases h
    exact .null
  | text name =>
    obtain ⟨names, hnames, rfl⟩ := map_eq_ok.1 h
    rw [eq_of_mapM_checkColumn hnames]
    exact .text
  | array items =>
    obtain ⟨texts, hitems, h⟩ := bind_eq_ok.1 h
    obtain ⟨names, hnames, rfl⟩ := map_eq_ok.1 h
    have hitems : texts.map .text = items.map id :=
      map_eq_of_forall₂ ((mapM_eq_ok.1 hitems).imp fun _ _ => eq_of_textOfItem)
    rw [eq_of_mapM_checkColumn hnames, ← List.map_id items, ← hitems]
    exact .array
  | _ => cases h

end ColumnList

namespace Assignments

theorem eq_of_ofEntry {entry : String × Value} {value : String × Parameter}
    (h : ofEntry entry = .ok value) : value.1 = entry.1 := by
  obtain ⟨column, hcolumn, h⟩ := bind_eq_ok.1 h
  split at h
  · cases h
    exact ColumnList.eq_of_checkColumn hcolumn
  · cases h

/-- Values are assigned to the keys of their document, in order. -/
theorem keys_of_ofValue {v : Value} {values : Assignments} (h : ofValue v = .ok values) :
    ∃ entries, v = .object entries ∧ values.map (·.1) = Entries.keys entries := by
  cases v with
  | object entries =>
    exact ⟨entries, rfl, map_eq_of_forall₂ ((mapM_eq_ok.1 h).imp fun _ _ => eq_of_ofEntry)⟩
  | _ => cases h

end Assignments

/-! ## Texts -/

namespace Upsert

/-- What MySQL sets a column to. -/
def insertedChange (column : String) : String :=
  Dialect.mysql.quoted column ++ " = VALUES(" ++ Dialect.mysql.quoted column ++ ")"

/-- What PostgreSQL sets a column to. -/
def boundChange (column : String) : String := Dialect.postgres.quoted column ++ " = ?"

/-- The text of an upsert that inserts `columns` and sets `changed` where it meets a row. -/
def duplicateKeyText (t : Table) (columns changed : List String) : String :=
  "INSERT INTO " ++ Dialect.mysql.quoted t.name ++ " ("
    ++ ", ".intercalate (columns.map Dialect.mysql.quoted) ++ ") VALUES ("
    ++ ", ".intercalate (columns.map fun _ => "?") ++ ")" ++ " ON DUPLICATE KEY UPDATE "
    ++ ", ".intercalate (changed.map insertedChange) ++ ";"

/-- The text of an upsert that sets `changed` in the rows of a selection, and inserts `columns`
where there are none. -/
def updateOrInsertText (t : Table) (columns changed : List String) (selection : Selection) :
    String :=
  "WITH " ++ Dialect.postgres.quoted "updated" ++ " AS (UPDATE " ++ Dialect.postgres.quoted t.name
    ++ " SET " ++ ", ".intercalate (changed.map boundChange)
    ++ (restriction t selection).sql .postgres ++ " RETURNING *), "
    ++ Dialect.postgres.quoted "inserted" ++ " AS (INSERT INTO " ++ Dialect.postgres.quoted t.name
    ++ " (" ++ ", ".intercalate (columns.map Dialect.postgres.quoted) ++ ") SELECT "
    ++ ", ".intercalate (columns.map fun _ => "?") ++ " WHERE NOT EXISTS (SELECT * FROM "
    ++ Dialect.postgres.quoted "updated" ++ ") RETURNING *) SELECT * FROM "
    ++ Dialect.postgres.quoted "updated" ++ " UNION ALL SELECT * FROM "
    ++ Dialect.postgres.quoted "inserted" ++ ";"

/-- The text of an upsert; only PostgreSQL is told the rows to update. -/
def text (d : Dialect) (t : Table) (columns changed : List String) (selection : Selection) :
    String :=
  match d with
  | .mysql => duplicateKeyText t columns changed
  | .postgres => updateOrInsertText t columns changed selection

section Drafts

variable {t : Table} {s : Upsert} {updates : Assignments} (hupdates : s.updates t = .ok updates)
include hupdates

/-- The text of the upsert of MySQL, by its columns and those updated. -/
theorem sql_duplicateKeyDraft :
    (s.duplicateKeyDraft t).sql .mysql ++ ";"
      = duplicateKeyText t (s.values.map (·.1)) (updates.map (·.1)) := by
  have hvalues : (Insert.valuesDraft t s.values).outcome = .ok () := by
    simp [Insert.valuesDraft, outcome_bind]
  have hchange : ∀ u : String × Parameter,
      (name u.1 >>= fun _ => raw " = VALUES(" >>= fun _ => name u.1 >>= fun _ => raw ")").sql .mysql
        = insertedChange u.1 := by
    intro u
    simp only [sql_name_bind, sql_raw_bind, sql_raw, insertedChange, String.append_assoc]
  have hchanges : (separated ", " (updates.map fun u => do
      name u.1
      raw " = VALUES("
      name u.1
      raw ")")).sql .mysql = ", ".intercalate ((updates.map (·.1)).map insertedChange) := by
    rw [sql_separated fun _ _ => rfl, List.map_map]
    exact congrArg (", ".intercalate) (List.map_congr_left fun u _ => hchange u)
  rw [duplicateKeyDraft, sql_lift_bind hupdates, sql_bind hvalues, Insert.valuesDraft,
    sql_raw_bind, sql_raw_bind, sql_name_bind, sql_raw_bind, sql_bind (outcome_names _),
    sql_raw_bind, sql_bind (outcome_placeholders _), sql_raw, sql_names, sql_placeholders]
  -- Rewriting would make the equation of the text first, which takes longer than all the rest.
  unfold duplicateKeyText
  simp only [hchanges, List.map_map, Function.comp_def, String.append_assoc]

/-- The text of the upsert of PostgreSQL, by its columns, those updated and the selection. -/
theorem sql_updateOrInsertDraft {selection : Selection}
    (htarget : s.target .postgres t = .ok selection)
    (hselection : (restriction t selection).outcome = .ok ()) :
    (s.updateOrInsertDraft t).sql .postgres ++ ";"
      = updateOrInsertText t (s.values.map (·.1)) (updates.map (·.1)) selection := by
  have hchange : ∀ u : String × Parameter,
      (name u.1 >>= fun _ => raw " = " >>= fun _ => placeholder u.2).sql .postgres
        = boundChange u.1 := by
    intro u
    have hmark : " = " ++ "?" = " = ?" := by decide
    rw [sql_name_bind, sql_raw_bind, sql_placeholder, boundChange, hmark]
  have hchanges : (separated ", " (updates.map fun u => do
      name u.1
      raw " = "
      placeholder u.2)).sql .postgres
        = ", ".intercalate ((updates.map (·.1)).map boundChange) := by
    rw [sql_separated fun _ _ => rfl, List.map_map]
    exact congrArg (", ".intercalate) (List.map_congr_left fun u _ => hchange u)
  have houtcome : (separated ", " (updates.map fun u => do
      name u.1
      raw " = "
      placeholder u.2)).outcome = .ok () := outcome_separated_map fun _ _ => rfl
  rw [updateOrInsertDraft, sql_lift_bind htarget, sql_lift_bind hupdates, sql_raw_bind,
    sql_name_bind, sql_raw_bind, sql_name_bind, sql_raw_bind, sql_bind houtcome,
    sql_bind hselection, sql_raw_bind, sql_name_bind, sql_raw_bind, sql_name_bind, sql_raw_bind,
    sql_bind (outcome_names _), sql_raw_bind, sql_bind (outcome_placeholders _), sql_raw_bind,
    sql_name_bind, sql_raw_bind, sql_name_bind, sql_raw_bind, sql_name, sql_names,
    sql_placeholders]
  unfold updateOrInsertText
  simp only [hchanges, List.map_map, Function.comp_def, String.append_assoc]

end Drafts

/-- A compiled upsert inserts the columns of its values, and sets those of its update. -/
theorem exists_text {d : Dialect} {t : Table} {s : Upsert} {q : Query}
    (h : (Statement.upsert s).compile d t = .ok q) :
    ∃ updates, s.Updated updates ∧
      q.sql = text d t (s.values.map (·.1)) (updates.map (·.1))
        (s.updateSelection.getD .everything) := by
  obtain ⟨houtcome, rfl⟩ := query_eq_ok.1 h
  obtain ⟨updates, hvalues, hupdates, hdialect, -⟩ := exists_updates houtcome
  have hdraft : (s.draft d t).sql d = (s.dialectDraft d t).sql d := by
    rw [draft, if_neg (by simpa using hvalues), sql_lift_bind hupdates]
  refine ⟨updates, updated_of_updates hupdates, ?_⟩
  rw [Statement.draft, hdraft]
  cases d with
  | mysql => exact sql_duplicateKeyDraft hupdates
  | postgres =>
    obtain ⟨selection, htarget, hrest⟩ :=
      bind_eq_ok.1 ((outcome_updateOrInsertDraft t s).symm.trans hdialect)
    obtain ⟨_, -, hsingle⟩ := bind_eq_ok.1 hrest
    rw [eq_some_of_target htarget]
    exact sql_updateOrInsertDraft hupdates htarget ((outcome_restriction t selection).trans hsingle)

end Upsert

/-! ## Calls -/

/-- An upsert inserts each key of its values in a column, once. The columns that it sets are those
of the values or of the list that is given; they come once each, in both dialects, just where that
list has none of them twice. -/
theorem Catalog.upsert_columns (catalog : Catalog) (table : String) {options : Document} {q : Query}
    (hvalues : (options.field "values").Distinct)
    (h : catalog.query .upsert table options = .ok q) :
    ∃ entries changed selection,
      options.field "values" = .object entries ∧
        ColumnList.Lists (Entries.keys entries) (options.field "updateColumns") changed ∧
        Upsert.selectionOfValue (options.field "updateSelector") = .ok selection ∧
        q.sql = Upsert.text catalog.dialect (catalog.table table) (Entries.keys entries) changed
          (selection.getD .everything) ∧
        (Entries.keys entries).Nodup ∧
        (changed.Nodup ↔ ∀ names : List String,
          options.field "updateColumns" = .array (names.map .text) → names.Nodup) := by
  obtain ⟨s, hs, hcompile⟩ := bind_eq_ok.1 h
  obtain ⟨upsert, hread, rfl⟩ := map_eq_ok.1 (mapError_eq_ok.1 hs)
  obtain ⟨selection, hselection, hread⟩ := bind_eq_ok.1 hread
  obtain ⟨values, hassigned, hread⟩ := bind_eq_ok.1 hread
  obtain ⟨updateColumns, hlist, hread⟩ := bind_eq_ok.1 hread
  cases hread
  obtain ⟨updates, hupdated, hsql⟩ := Upsert.exists_text (mapError_eq_ok.1 hcompile)
  obtain ⟨entries, hentries, hkeys⟩ := Assignments.keys_of_ofValue hassigned
  have hchanged : updates.map (·.1) = updateColumns.getD (values.map (·.1)) := by
    cases updateColumns with
    | none => exact congrArg (List.map (·.1)) hupdated
    | some columns => exact hupdated.1
  have hlists := ColumnList.lists_of_ofValue hlist (values.map (·.1))
  rw [hchanged] at hsql
  rw [hkeys] at hsql hlists
  exact ⟨entries, _, selection, hentries, hlists, hselection, hsql, hvalues entries hentries,
    hlists.nodup_iff (hvalues entries hentries)⟩

/-- An article under its slug, of which only the title changes. -/
def article : Json :=
  .object [("values", .object [("slug", .text "about"), ("title", .text "About us")]),
    ("updateColumns", .array [.text "title"]),
    ("updateSelector", .object [("slug", .text "about")])]

/-- A list without repeats sets its columns once each. -/
theorem Catalog.title_changed :
    ∃ options q changed,
      Method.upsert.optionsOfJson article = .ok options ∧
        ({ dialect := .postgres } : Catalog).query .upsert "articles" options = .ok q ∧
        ColumnList.Lists ["slug", "title"] (options.field "updateColumns") changed ∧
        q.sql = Upsert.text .postgres { name := "articles" } ["slug", "title"] changed
          (.comparing ⟨.eq, .column "slug", .value (.text "about")⟩) ∧
        changed.Nodup := by
  have hread : Method.upsert.optionsOfJson article = .ok _ := rfl
  obtain ⟨entries, changed, selection, hentries, hlists, hselection, hsql, -, hnodup⟩ :=
    Catalog.upsert_columns { dialect := .postgres } "articles"
      (Method.distinct_field hread "values") rfl
  cases hentries
  cases hselection
  refine ⟨_, _, changed, rfl, rfl, hlists, hsql, hnodup.2 fun names hnames => ?_⟩
  have htitle : [Value.text "title"] = names.map .text := Value.array.inj hnames
  obtain ⟨name, rfl⟩ : ∃ name, names = [name] :=
    List.length_eq_one_iff.1 (by simpa using (congrArg List.length htitle).symm)
  exact List.nodup_singleton name

/-- Options with a list that names its column twice. -/
def repeated : Document :=
  [("values", .object [("a", .int 1)]), ("updateColumns", .array [.text "a", .text "a"]),
    ("updateSelector", .object [("a", .int 1)])]

/-- A column that the list names twice is set twice. PostgreSQL refuses such a statement. -/
theorem Catalog.repeated_column_set :
    ∃ q q',
      ({ dialect := .postgres } : Catalog).query .upsert "t" repeated = .ok q ∧
        q.sql = "WITH \"updated\" AS (UPDATE \"t\" SET \"a\" = ?, \"a\" = ? WHERE \"a\" = ? "
          ++ "RETURNING *), \"inserted\" AS (INSERT INTO \"t\" (\"a\") SELECT ? "
          ++ "WHERE NOT EXISTS (SELECT * FROM \"updated\") RETURNING *) "
          ++ "SELECT * FROM \"updated\" UNION ALL SELECT * FROM \"inserted\";" ∧
        ({ dialect := .mysql } : Catalog).query .upsert "t" repeated = .ok q' ∧
        q'.sql = "INSERT INTO `t` (`a`) VALUES (?) "
          ++ "ON DUPLICATE KEY UPDATE `a` = VALUES(`a`), `a` = VALUES(`a`);" :=
  ⟨_, _, rfl, by decide +kernel, rfl, by decide +kernel⟩

end DocumentQuery
