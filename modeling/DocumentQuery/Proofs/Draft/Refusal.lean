import DocumentQuery.Proofs.Clause.Columns

/-!
# Refused clauses

Exactly when a clause of a statement has no SQL, told by the clause and by what is known of the
table. Clauses are drafted one behind the other, so of several the first that is refused counts.
-/

namespace DocumentQuery
set_option autoImplicit false

variable {α β : Type}

/-! ## Results and their faults -/

/-- A result that is an error with exactly the faults in `F`, and a value where there are none. -/
structure FailsBy (F : StatementError → Prop) (result : Except StatementError α) : Prop where
  error : ∀ e, result = .error e ↔ F e
  ok : (∃ a, result = .ok a) ↔ ∀ e, ¬ F e

/-- The faults of the first of several parts that has any. -/
def FirstOf : List (StatementError → Prop) → StatementError → Prop
  | [], _ => False
  | F :: rest, e => F e ∨ (∀ other, ¬ F other) ∧ FirstOf rest e

namespace FailsBy

variable {F G : StatementError → Prop} {rest : List (StatementError → Prop)}
  {result : Except StatementError α}

/-- It is enough to know the faults, as a result without one is a value. -/
theorem of_error (h : ∀ e, result = .error e ↔ F e) : FailsBy F result := by
  refine ⟨h, ?_⟩
  cases result with
  | error first =>
    have hfirst := (h first).1 rfl
    exact iff_of_false (by simp) fun hnone => hnone first hfirst
  | ok a => exact iff_of_true ⟨a, rfl⟩ fun e he => nomatch (h e).2 he

theorem of_ok {a : α} (h : result = .ok a) (hF : ∀ e, ¬ F e) : FailsBy F result :=
  of_error fun e => iff_of_false (by simp [h]) (hF e)

/-- A check with a fault of its own. -/
theorem guard {c : Prop} [Decidable c] {first : StatementError} {a : α}
    (h : ∀ e, F e ↔ c ∧ e = first) : FailsBy F (if c then .error first else .ok a) := by
  refine of_error fun e => ?_
  rw [h]
  split
  · next hc =>
    rw [and_iff_right hc, Except.error.injEq]
    exact eq_comm
  · next hc => exact iff_of_false (by simp) fun he => hc he.1

theorem map (h : FailsBy F result) (f : α → β) : FailsBy F (result.map f) := by
  refine of_error fun e => ?_
  rw [← h.error]
  cases result <;> simp [Except.map]

theorem congr (h : FailsBy F result) (heq : ∀ e, F e ↔ G e) : FailsBy G result :=
  of_error fun e => (h.error e).trans (heq e)

/-- Behind a part that may fail, the others only count where it does not. -/
theorem bind (h : FailsBy F result) {next : α → Except StatementError β}
    (hnext : ∀ a, result = .ok a → FailsBy (FirstOf rest) (next a)) :
    FailsBy (FirstOf (F :: rest)) (result >>= next) := by
  refine of_error fun e => ?_
  cases result with
  | error first =>
    have hfirst := (h.error first).1 rfl
    have hrest : ¬((∀ other, ¬ F other) ∧ FirstOf rest e) := fun hrest => hrest.1 first hfirst
    have hbind : (.error first >>= next : Except StatementError β) = .error e ↔
        (.error first : Except StatementError α) = .error e := by simp [Bind.bind, Except.bind]
    exact (hbind.trans (h.error e)).trans (or_iff_left hrest).symm
  | ok a =>
    have hnone := h.ok.1 ⟨a, rfl⟩
    exact ((hnext a rfl).error e).trans
      ((or_iff_right (hnone e)).trans (and_iff_right hnone)).symm

/-- A part alone is the first one that can fail. -/
theorem last (h : FailsBy F result) : FailsBy (FirstOf [F]) result :=
  h.congr fun _ => (or_iff_left And.right).symm

end FailsBy

/-! ## Faults of keys -/

namespace Table

/-- Keys in a list are refused where the primary key is among them and has no columns. -/
inductive ListFault (t : Table) (keys : List Key) : StatementError → Prop where
  | missing (mem : .id ∈ keys) (none : t.primaryKey = []) :
      ListFault t keys (.missingKey t.name)

/-- Keys as operands are refused where the primary key is among them and is not one column. -/
inductive OperandFault (t : Table) (keys : List Key) : StatementError → Prop where
  | missing (mem : .id ∈ keys) (none : t.primaryKey = []) :
      OperandFault t keys (.missingKey t.name)
  | composite (mem : .id ∈ keys) (several : 2 ≤ t.primaryKey.length) :
      OperandFault t keys (.compositeKey t.name)

/-- A list of keys fails where one is the primary key of a table without any. -/
theorem failsBy_columnsOfAll (t : Table) (keys : List Key) :
    FailsBy (t.ListFault keys) (t.columnsOfAll keys) := by
  rw [columnsOfAll_eq]
  refine .guard fun e => ⟨?_, ?_⟩
  · rintro ⟨mem, none⟩
    exact ⟨⟨mem, none⟩, rfl⟩
  · rintro ⟨⟨mem, none⟩, rfl⟩
    exact .missing mem none

/-- Operands fail where a key is no single column, by how many columns the primary key has. -/
theorem failsBy_single (t : Table) (keys : List Key) :
    FailsBy (t.OperandFault keys) (t.single keys) := by
  rw [single_eq]
  split
  · next hmem =>
    refine FailsBy.map (.of_error fun e => ?_) _
    rcases hkey : t.primaryKey with _ | ⟨only, _ | ⟨second, others⟩⟩
    · have hcolumn : t.column .id = .error (.missingKey t.name) := by simp [column, hkey]
      rw [hcolumn]
      constructor
      · rintro ⟨⟩
        exact .missing hmem hkey
      · rintro (⟨-, -⟩ | ⟨-, several⟩)
        · rfl
        · simp [hkey] at several
    · have hcolumn : t.column .id = .ok only := by simp [column, hkey]
      rw [hcolumn]
      refine iff_of_false (by simp) ?_
      rintro (⟨-, none⟩ | ⟨-, several⟩)
      · simp [hkey] at none
      · simp [hkey] at several
    · have hcolumn : t.column .id = .error (.compositeKey t.name) := by simp [column, hkey]
      rw [hcolumn]
      constructor
      · rintro ⟨⟩
        exact .composite hmem (by simp [hkey])
      · rintro (⟨-, none⟩ | ⟨-, -⟩)
        · simp [hkey] at none
        · rfl
  · next hmem =>
    refine .of_ok rfl ?_
    rintro _ (⟨mem, -⟩ | ⟨mem, -⟩)
    · exact hmem mem
    · exact hmem mem

end Table

/-- Keys among which are all of the known columns, by name or as columns of the primary key. -/
def Table.Exhausted (t : Table) (keys : List Key) (known : List String) : Prop :=
  ∀ column ∈ known, .column column ∈ keys ∨ .id ∈ keys ∧ column ∈ t.primaryKey

/-- A projection is refused where it lists a primary key without columns, and where it excludes:
where the columns of the table are not known, or where it excludes all of them. -/
inductive Projection.Fault (t : Table) : Projection → StatementError → Prop where
  | including {keys : List Key} {e : StatementError} (h : t.ListFault keys e) :
      Fault t (.including keys) e
  | unknown {keys : List Key} (columns : t.columns = none) :
      Fault t (.excluding keys) (.unknownColumns t.name)
  | excluding {keys : List Key} {known : List String} {e : StatementError}
      (columns : t.columns = some known) (h : t.ListFault keys e) : Fault t (.excluding keys) e
  | empty {keys : List Key} {known : List String} (columns : t.columns = some known)
      (listed : ∀ e, ¬ t.ListFault keys e)
      (all : t.Exhausted keys known) :
      Fault t (.excluding keys) (.emptyProjection t.name)

/-- The columns of keys are the ones they name and, if one is the primary key, its columns. -/
theorem Key.mem_flatMap_columns {primaryKey : List String} {keys : List Key} {column : String} :
    column ∈ keys.flatMap (Key.columns primaryKey)
      ↔ .column column ∈ keys ∨ .id ∈ keys ∧ column ∈ primaryKey := by
  rw [List.mem_flatMap]
  constructor
  · rintro ⟨_ | name, hkey, hcolumn⟩
    · exact .inr ⟨hkey, hcolumn⟩
    · rw [List.mem_singleton.1 hcolumn]
      exact .inl hkey
  · rintro (hkey | ⟨hkey, hcolumn⟩)
    · exact ⟨_, hkey, List.mem_singleton_self column⟩
    · exact ⟨_, hkey, hcolumn⟩

/-- A projection leaves nothing where it excludes every column that is known. -/
theorem Table.exhausted_iff {t : Table} {keys : List Key} {known excluded : List String}
    (h : t.columnsOfAll keys = .ok excluded) :
    t.Exhausted keys known ↔ ∀ column ∈ known, column ∈ excluded := by
  rw [columnsOfAll_eq] at h
  split at h
  · cases h
  · cases h
    simp only [Exhausted, Key.mem_flatMap_columns]

namespace Projection

variable {t : Table}

/-- An exclusion leaves the known columns that are not excluded, if there are any. -/
theorem columns_excluding {known : List String} (h : t.columns = some known) (keys : List Key) :
    (excluding keys).columns t = t.columnsOfAll keys >>= fun excluded =>
      if ∀ column ∈ known, column ∈ excluded then .error (.emptyProjection t.name)
      else .ok (some (known.filter (!excluded.contains ·))) := by
  simp only [columns, h]
  congr
  funext excluded
  split
  · next hleft =>
    rw [List.filter_eq_nil_iff] at hleft
    rw [if_pos (by simpa using hleft)]
  · next left hleft =>
    rw [if_neg fun hall => hleft (List.filter_eq_nil_iff.2 (by simpa using hall))]

/-- A projection fails by its keys; one that leaves columns out fails by unknown columns in front of
them, and by no column left behind them. -/
theorem failsBy_columns (t : Table) (projection : Projection) :
    FailsBy (projection.Fault t) (projection.columns t) := by
  cases projection with
  | everything =>
    refine .of_ok rfl ?_
    rintro _ ⟨⟩
  | including keys =>
    refine ((t.failsBy_columnsOfAll keys).map _).congr fun e => ⟨.including, ?_⟩
    rintro ⟨h⟩
    exact h
  | excluding keys =>
    cases hknown : t.columns with
    | none =>
      refine .of_error fun e => ?_
      rw [columns, hknown]
      constructor
      · rintro ⟨⟩
        exact .unknown hknown
      · rintro (_ | _ | ⟨h, -⟩ | ⟨h, -, -⟩)
        · rfl
        · simp [hknown] at h
        · simp [hknown] at h
    | some known =>
      have hleft : ∀ excluded, t.columnsOfAll keys = .ok excluded →
          FailsBy (FirstOf [fun e => t.Exhausted keys known ∧ e = .emptyProjection t.name])
            (if ∀ column ∈ known, column ∈ excluded then .error (.emptyProjection t.name)
              else .ok (some (known.filter (!excluded.contains ·)))) := by
        intro excluded hexcluded
        exact (FailsBy.guard fun _ => and_congr_left' (Table.exhausted_iff hexcluded)).last
      rw [columns_excluding hknown]
      refine ((t.failsBy_columnsOfAll keys).bind hleft).congr fun e => ⟨?_, ?_⟩
      · rintro (h | ⟨listed, ⟨all, rfl⟩ | ⟨-, ⟨⟩⟩⟩)
        · exact .excluding hknown h
        · exact .empty hknown listed all
      · rintro (_ | h | ⟨columns, h⟩ | ⟨columns, listed, all⟩)
        · simp [hknown] at h
        · exact .inl h
        · cases hknown.symm.trans columns
          exact .inr ⟨listed, .inl ⟨all, rfl⟩⟩

end Projection

/-! ## Clauses -/

namespace Draft

variable {t : Table}

/-- A draft fails with the faults of its outcome, and so does the statement that it is. -/
theorem failsBy_query {F : StatementError → Prop} {draft : Draft Unit} (d : Dialect)
    (h : FailsBy F draft.outcome) : FailsBy F (draft.query d) := h.map _

/-- A projection is refused by its columns only. -/
theorem outcome_projected (projection : Projection) :
    (projected t projection).outcome = (projection.columns t).map fun _ => () := by
  rw [projected, outcome_bind, outcome_lift]
  rcases projection.columns t with e | _ | columns
  · rfl
  · rfl
  · exact outcome_names columns

/-- Terms fail as their keys do in a list. -/
theorem outcome_sortTerms (more : Bool) (terms : List SortTerm) :
    (sortTerms t more terms).outcome = (t.columnsOfAll (terms.map (·.key))).map fun _ => () := by
  induction terms generalizing more with
  | nil => rfl
  | cons term rest ih =>
    rw [sortTerms, outcome_bind, outcome_lift, List.map_cons, Table.columnsOfAll_cons]
    cases t.columnsOf term.key with
    | error e => rfl
    | ok columns =>
      have hrest : (directed term.direction columns >>= fun _ => sortTerms t true rest).outcome
          = ((t.columnsOfAll (rest.map (·.key))).map (columns ++ ·)).map fun _ => () := by
        rw [outcome_bind_of_ok (outcome_directed _ _), ih]
        cases t.columnsOfAll (rest.map (·.key)) <;> rfl
      cases more with
      | false => exact hrest
      | true => exact hrest

theorem outcome_ordering (order : SortOrder) :
    (ordering t order).outcome = (t.columnsOfAll order.keys).map fun _ => () := by
  rcases order with _ | ⟨_ | ⟨term, rest⟩⟩
  · rfl
  · rfl
  · rw [ordering, outcome_bind_of_ok (outcome_raw _), outcome_sortTerms]
    · rfl
    · rintro ⟨⟩

theorem failsBy_projected (projection : Projection) :
    FailsBy (projection.Fault t) (projected t projection).outcome := by
  rw [outcome_projected]
  exact (projection.failsBy_columns t).map _

theorem failsBy_restriction (selection : Selection) :
    FailsBy (t.OperandFault selection.keys) (restriction t selection).outcome := by
  rw [outcome_restriction]
  exact t.failsBy_single selection.keys

theorem failsBy_ordering (order : SortOrder) :
    FailsBy (t.ListFault order.keys) (ordering t order).outcome := by
  rw [outcome_ordering]
  exact (t.failsBy_columnsOfAll order.keys).map _

end Draft

end DocumentQuery
