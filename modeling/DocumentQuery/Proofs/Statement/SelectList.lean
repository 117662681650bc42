import DocumentQuery.Proofs.Clause.Projection
import DocumentQuery.Proofs.Statement.Grammar
import DocumentQuery.Proofs.Statement.Text

/-!
# Select lists

From the document of a projection to the list of columns that stands in the text of a query. Names
that are included win over those that are excluded: a document hides a column of the table by its
name only where it includes none.
-/

namespace DocumentQuery
set_option autoImplicit false

open Draft

/-! ## First mentions -/

/-- The members of a list in the order of their first mentions, each of them once. -/
structure FirstMentions {α : Type} [DecidableEq α] (listed columns : List α) : Prop where
  mem_iff : ∀ column, column ∈ columns ↔ column ∈ listed
  order : columns.Pairwise fun a b => listed.idxOf a < listed.idxOf b

namespace FirstMentions

variable {α : Type} [DecidableEq α]

/-- First mentions are listed once each. -/
theorem nodup {listed columns : List α} (h : FirstMentions listed columns) : columns.Nodup := by
  refine h.order.imp fun hlt heq => ?_
  rw [heq] at hlt
  exact lt_irrefl _ hlt

/-- Members that are kept come in the order that they had before. -/
theorem idxOf_lt_of_filter {p : α → Bool} {l : List α} {a b : α} (hb : p b = true)
    (h : (l.filter p).idxOf a < (l.filter p).idxOf b) : l.idxOf a < l.idxOf b := by
  induction l with
  | nil => exact h
  | cons c rest ih =>
    by_cases hca : c = a
    · have hcb : c ≠ b := by
        rintro rfl
        rw [hca] at h
        exact lt_irrefl _ h
      rw [hca, List.idxOf_cons_self, List.idxOf_cons_ne _ (hca ▸ hcb)]
      exact Nat.succ_pos _
    · by_cases hcb : c = b
      · rw [hcb, List.filter_cons_of_pos hb, List.idxOf_cons_self] at h
        exact absurd h (Nat.not_lt_zero _)
      · rw [List.idxOf_cons_ne _ hca, List.idxOf_cons_ne _ hcb]
        refine Nat.succ_lt_succ (ih ?_)
        by_cases hc : p c = true
        · rw [List.filter_cons_of_pos hc, List.idxOf_cons_ne _ hca, List.idxOf_cons_ne _ hcb] at h
          exact Nat.lt_of_succ_lt_succ h
        · rwa [List.filter_cons_of_neg hc] at h

theorem pairwise_eraseDups (l : List α) :
    l.eraseDups.Pairwise fun a b => l.idxOf a < l.idxOf b := by
  match l with
  | [] => exact .nil
  | a :: rest =>
    have hother : ∀ b ∈ (rest.filter fun b => !b == a).eraseDups, (!b == a) = true :=
      fun b hb => (List.mem_filter.1 (List.mem_eraseDups.1 hb)).2
    have hne : ∀ b, (!b == a) = true → a ≠ b := by
      rintro b hb rfl
      simp at hb
    -- Behind `a` come the first mentions of what is left when `a` is taken out, and those come in
    -- the order of the whole list.
    rw [List.eraseDups_cons]
    refine .cons (fun b hb => ?_) ((pairwise_eraseDups _).imp_of_mem fun {b c} hb hc h => ?_)
    · rw [List.idxOf_cons_self, List.idxOf_cons_ne _ (hne b (hother b hb))]
      exact Nat.succ_pos _
    · rw [List.idxOf_cons_ne _ (hne b (hother b hb)), List.idxOf_cons_ne _ (hne c (hother c hc))]
      exact Nat.succ_lt_succ (idxOf_lt_of_filter (hother c hc) h)
termination_by l.length
decreasing_by exact Nat.lt_succ_of_le (List.length_filter_le _ rest)

/-- What is left after repetitions are dropped are the first mentions. -/
theorem eraseDups (l : List α) : FirstMentions l l.eraseDups :=
  ⟨fun _ => List.mem_eraseDups, pairwise_eraseDups l⟩

end FirstMentions

/-! ## Selected columns -/

namespace Projection

/-- The columns that an accepted document leaves of a table, none for all of them unnamed. -/
inductive Selects (t : Table) : Value → Option (List String) → Prop where
  | null : Selects t .null none
  | empty : Selects t (.object []) none
  | including {entries : List (String × Value)} {columns : List String}
      (includes : includedNames entries ≠ [])
      (h : FirstMentions ((includedNames entries).flatMap t.listed) columns) :
      Selects t (.object entries) (some columns)
  | excluding {entries : List (String × Value)} {known : List String}
      (excludes : includedNames entries = []) (flags : entries ≠ []) (h : t.columns = some known) :
      Selects t (.object entries)
        (some (known.filter fun column => ∀ entry ∈ entries, column ∉ t.listed entry.1))

/-- An exclusion leaves the columns that none of its names stands for. -/
theorem filter_excluded {t : Table} {entries : List (String × Value)} {excluded : List String}
    (h : t.columnsOfAll ((entries.map (·.1)).map Key.ofName) = .ok excluded) (known : List String) :
    known.filter (!excluded.contains ·)
      = known.filter fun column => ∀ entry ∈ entries, column ∉ t.listed entry.1 := by
  refine List.filter_congr fun column _ => ?_
  have hmem : column ∈ excluded ↔ ∃ entry ∈ entries, column ∈ t.listed entry.1 := by
    rw [Table.columnsOfAll_ofName h, List.flatMap_map, List.mem_flatMap]
  rw [Bool.eq_iff_iff]
  simp only [Bool.not_eq_true', List.contains_eq_mem, decide_eq_false_iff_not, hmem,
    decide_eq_true_eq]
  push Not
  rfl

/-- The entries of a projection select the columns that they list or leave. -/
theorem selects_ofEntries {t : Table} {entries : List (String × Value)}
    {selected : Option (List String)} (h : (ofEntries entries).columns t = .ok selected) :
    Selects t (.object entries) selected := by
  rw [ofEntries_eq] at h
  by_cases hincluded : includedNames entries = []
  · cases entries with
    | nil =>
      cases h
      exact .empty
    | cons entry rest =>
      rw [if_neg (not_not_intro hincluded), if_pos (List.cons_ne_nil _ _)] at h
      cases hknown : t.columns with
      | none => simp [columns, hknown] at h
      | some known =>
        rw [columns_excluding hknown] at h
        obtain ⟨excluded, hexcluded, h⟩ := bind_eq_ok.1 h
        split at h
        · cases h
        · cases h
          rw [filter_excluded hexcluded]
          exact .excluding hincluded (List.cons_ne_nil _ _) hknown
  · rw [if_pos hincluded] at h
    obtain ⟨names, hnames, rfl⟩ := map_eq_ok.1 h
    rw [Table.columnsOfAll_ofName hnames]
    exact .including hincluded (FirstMentions.eraseDups _)

/-- An accepted projection selects the columns that its document asks for. -/
theorem selects_ofValue {t : Table} {v : Value} {projection : Projection}
    (h : ofValue v = .ok projection) {columns : Option (List String)}
    (hcolumns : projection.columns t = .ok columns) : Selects t v columns := by
  cases v with
  | null =>
    cases h
    cases hcolumns
    exact .null
  | object entries =>
    obtain ⟨-, rfl⟩ := ofValue_object_eq_ok.1 h
    exact selects_ofEntries hcolumns
  | _ => cases h

/-- No column is selected twice, unless the table declares it twice. -/
theorem Selects.nodup {t : Table} {v : Value} {columns : List String}
    (h : Selects t v (some columns)) (hknown : ∀ known ∈ t.columns, known.Nodup) :
    columns.Nodup := by
  cases h with
  | including _ h => exact h.nodup
  | excluding _ _ h => exact (hknown _ h).filter _

end Projection

/-! ## Queries -/

/-- A document is a projection just where it flags names that may be listed, and is otherwise
refused for its first bad entry or for its kind. A query with it has the columns that the document
selects, and is otherwise the query of all columns. The list has a column, and it has none twice
where the columns of the table are known without repeats. -/
theorem Projection.listed_of_ofValue (v : Value) :
    ((∃ projection, ofValue v = .ok projection) ↔ Accepts v) ∧
      (∀ e, ofValue v = .error e ↔ Refuses v e) ∧
      ∀ (d : Dialect) (t : Table) (s : Select) (q : Query), ofValue v = .ok s.projection →
        (Statement.select s).compile d t = .ok q →
        ∃ selected behind, Selects t v selected ∧
          q.sql = "SELECT " ++ d.selectList selected ++ " FROM " ++ behind ∧
          (Statement.select { s with projection := .everything }).compile d t
            = .ok ⟨"SELECT * FROM " ++ behind, q.parameters⟩ ∧
          ∀ columns, selected = some columns →
            columns ≠ [] ∧ ((∀ known ∈ t.columns, known.Nodup) → columns.Nodup) := by
  refine ⟨exists_ofValue, fun e => ofValue_eq_error, fun d t s q hread hquery => ?_⟩
  obtain ⟨selected, hselected, hclauses, rfl⟩ := Select.compile_eq_ok.1 hquery
  have hstar : "SELECT " ++ "*" ++ " FROM " = "SELECT * FROM " := by decide
  refine ⟨selected, (rows d t s.selection s.order s.limit s.offset).sql d ++ ";",
    selects_ofValue hread hselected, String.append_assoc, ?everything, ?columns⟩
  case everything =>
    refine Select.compile_eq_ok.2 ⟨none, rfl, hclauses, ?_⟩
    rw [Dialect.selectList, hstar, ← String.append_assoc]
  case columns =>
    rintro columns rfl
    exact ⟨columns_ne_nil (named_of_ofValue hread) hselected,
      (selects_ofValue hread hselected).nodup⟩

/-- A table of orders with a secret. -/
def orders : Table where
  name := "orders"
  primaryKey := ["shop", "number"]
  columns := some ["shop", "number", "total", "secret"]

/-- A document that hides a column leaves the others in their order. -/
theorem secret_hidden :
    ∃ q columns,
      Projection.ofValue (.object [("secret", .int 0)]) = .ok (.excluding [.column "secret"]) ∧
        (Statement.select { projection := .excluding [.column "secret"] }).compile .postgres orders
          = .ok q ∧
        q.sql = "SELECT \"shop\", \"number\", \"total\" FROM \"orders\";" ∧
        Projection.Selects orders (.object [("secret", .int 0)]) (some columns) ∧
        "secret" ∉ columns ∧ columns.Nodup := by
  obtain ⟨-, -, hlisted⟩ := Projection.listed_of_ofValue (.object [("secret", .int 0)])
  obtain ⟨selected, behind, hselects, -, -, hcolumns⟩ := hlisted .postgres orders
    { projection := .excluding [.column "secret"] } _ rfl rfl
  have hknown : ∀ known ∈ orders.columns, known.Nodup := by
    rintro known ⟨⟩
    decide
  cases hselects with
  | including includes => exact absurd (by decide) includes
  | excluding excludes flags h =>
    obtain ⟨-, hnodup⟩ := hcolumns _ rfl
    cases h
    exact ⟨_, _, rfl, rfl, by decide, .excluding excludes flags rfl, by decide, hnodup hknown⟩

end DocumentQuery
