import DocumentQuery.Proofs.Draft.Clauses
import DocumentQuery.Proofs.Sql.Placeholder

/-!
# Clean drafts

The drafts whose pieces leave placeholders to their own pieces. Every text that a clause writes is
plain, and so are the digits of a limit; the names are the only pieces that come from outside, and
a name is clean as soon as it does not contain the quote.
-/

namespace DocumentQuery
set_option autoImplicit false

namespace Draft

variable {d : Dialect} {α : Type}

/-- All pieces of a draft leave placeholders to their own pieces. -/
abbrev AllClean (d : Dialect) (draft : Draft α) : Prop :=
  Every (fun piece => piece.isClean d = true) draft

theorem clean_raw {sql : String} (hmysql : (Piece.raw sql).isClean .mysql = true)
    (hpostgres : (Piece.raw sql).isClean .postgres = true) : AllClean d (raw sql) := by
  cases d with
  | mysql => exact every_raw.2 hmysql
  | postgres => exact every_raw.2 hpostgres

/-- A name is clean where it does not hold the quote. -/
theorem isClean_name {n : String} : (Piece.name n).isClean d = true ↔ d.quote ∉ n.toList := by
  simp [Piece.isClean]

theorem clean_name {n : String} (h : d.quote ∉ n.toList) : AllClean d (name n) :=
  every_name.2 (isClean_name.2 h)

theorem clean_names {identifiers : List String} (h : ∀ n ∈ identifiers, d.quote ∉ n.toList) :
    AllClean d (names identifiers) :=
  every_names (every_raw.1 (clean_raw rfl rfl)) fun n hn => isClean_name.2 (h n hn)

theorem clean_placeholders (ps : List Parameter) : AllClean d (placeholders ps) :=
  every_placeholders (every_raw.1 (clean_raw rfl rfl)) (fun _ => rfl) ps

/-- The texts of conditions are clean in both dialects. -/
theorem isClean_conditionTexts : ∀ s ∈ conditionTexts, (Piece.raw s).isClean d = true := by
  cases d <;> decide

theorem isClean_orderingTexts : ∀ s ∈ orderingTexts, (Piece.raw s).isClean d = true := by
  cases d <;> decide

/-- The digits of a number are plain. -/
theorem isPlain_digits (n : Nat) : (toString n).toList.all (Sql.isPlain d) = true := by
  refine List.all_eq_true.2 fun c hc => ?_
  have hdigits : (toString n).toList = Nat.toDigits 10 n := by simp [toString]
  rw [hdigits] at hc
  have hdigit : c.isDigit = true := Nat.isDigit_of_mem_toDigits (by decide) (by decide) hc
  have hmark : c ≠ '?' := by
    rintro rfl
    cases hdigit
  have hquote : c ≠ d.quote := by
    rintro rfl
    cases d <;> cases hdigit
  simp [Sql.isPlain, hmark, hquote]

/-- A page is clean: besides its words it has digits and blanks. -/
theorem clean_paging (limit : Limit) (offset : Offset) : AllClean d (paging d limit offset) := by
  have htext : (" ".toList.all (Sql.isPlain d) && "LIMIT ".toList.all (Sql.isPlain d)
      && " OFFSET ".toList.all (Sql.isPlain d) && "OFFSET ".toList.all (Sql.isPlain d)) = true := by
    cases d <;> decide
  simp only [Bool.and_eq_true] at htext
  obtain ⟨⟨⟨hspace, hlimit⟩, hbetween⟩, hoffset⟩ := htext
  refine every_paging fun clause h => ?_
  obtain ⟨n, m, rfl | rfl | rfl⟩ := Dialect.paging?_eq_some h
  · simp only [Piece.isClean, String.toList_append, List.all_append, hspace, hlimit,
      isPlain_digits, Bool.and_self]
  · simp only [Piece.isClean, String.toList_append, List.all_append, hspace, hlimit, hbetween,
      isPlain_digits, Bool.and_self]
  · simp only [Piece.isClean, String.toList_append, List.all_append, hspace, hoffset,
      isPlain_digits, Bool.and_self]

section Clauses

variable {t : Table} (htable : ∀ n ∈ t.names, d.quote ∉ n.toList)
include htable

/-- The columns of clean keys are clean. -/
theorem isClean_columns {keys : List Key} (h : ∀ n ∈ keys.flatMap Key.names, d.quote ∉ n.toList) :
    ∀ n ∈ t.primaryKey ++ keys.flatMap Key.names, (Piece.name n).isClean d = true := by
  intro n hn
  refine isClean_name.2 ?_
  rcases List.mem_append.1 hn with hn | hn
  · exact htable n (by simp [Table.names, hn])
  · exact h n hn

/-- A condition is clean where the names of its keys are. -/
theorem clean_condition (nested : Bool) {node : Node}
    (h : ∀ n ∈ node.keys.flatMap Key.names, d.quote ∉ n.toList) :
    AllClean d (condition t nested node) :=
  (every_condition isClean_conditionTexts fun _ => rfl).1 nested node (isClean_columns htable h)

/-- A restriction is clean where the names of its selection are. -/
theorem clean_restriction {selection : Selection}
    (h : ∀ n ∈ selection.keys.flatMap Key.names, d.quote ∉ n.toList) :
    AllClean d (restriction t selection) :=
  every_restriction isClean_conditionTexts (fun _ => rfl) (every_raw.1 (clean_raw rfl rfl))
    (isClean_columns htable h)

theorem clean_ordering {order : SortOrder}
    (h : ∀ n ∈ order.keys.flatMap Key.names, d.quote ∉ n.toList) :
    AllClean d (ordering t order) :=
  every_ordering isClean_orderingTexts (isClean_columns htable h)

theorem clean_projected {projection : Projection}
    (h : ∀ n ∈ projection.keys.flatMap Key.names, d.quote ∉ n.toList) :
    AllClean d (projected t projection) := by
  refine every_projected (every_raw.1 (clean_raw rfl rfl)) (every_raw.1 (clean_raw rfl rfl)) ?_
  intro n hn
  refine isClean_name.2 ?_
  rcases List.mem_append.1 hn with hn | hn
  · exact htable n hn
  · exact h n hn

theorem clean_table : AllClean d (name t.name) := clean_name (htable t.name (by simp [Table.names]))

/-- The name of the table and the clauses behind it are clean where the names in them are. -/
theorem clean_rows {selection : Selection} {order : SortOrder} (limit : Limit) (offset : Offset)
    (h : ∀ n ∈ (selection.keys ++ order.keys).flatMap Key.names, d.quote ∉ n.toList) :
    AllClean d (rows d t selection order limit offset) := by
  simp only [List.flatMap_append, List.mem_append] at h
  have hselection := clean_restriction htable fun n hn => h n (.inl hn)
  have horder := clean_ordering htable fun n hn => h n (.inr hn)
  exact every_seq (clean_table htable)
    (every_seq hselection (every_seq horder (clean_paging limit offset)))

theorem clean_subselect {columns : String} {s : Delete}
    (hcolumns : AllClean d (raw columns))
    (h : ∀ n ∈ (s.selection.keys ++ s.order.keys).flatMap Key.names, d.quote ∉ n.toList) :
    AllClean d (s.subselect d t columns) :=
  every_seq (clean_raw rfl rfl) (every_seq hcolumns
    (every_seq (clean_raw rfl rfl) (clean_rows htable s.limit ⟨none⟩ h)))

/-- A row is clean where its columns are, as its values are bound. -/
theorem clean_values {values : Assignments} (h : ∀ n ∈ values.map (·.1), d.quote ∉ n.toList) :
    AllClean d (Insert.valuesDraft t values) :=
  every_seq (clean_raw rfl rfl) (every_seq (clean_table htable) (every_seq (clean_raw rfl rfl)
    (every_seq (clean_names h) (every_seq (clean_raw rfl rfl)
      (every_seq (clean_placeholders _) (clean_raw rfl rfl))))))

end Clauses

end Draft

end DocumentQuery
