import DocumentQuery.Proofs.Selection.Renaming
import DocumentQuery.Proofs.Statement.Related

/-!
# Renamed clauses

The clauses of a document whose columns are renamed, on a table whose columns are renamed along:
they list the renamed columns in the same places. Where names are compared with each other, as in a
list without repetitions, the renaming must take different names to different names.
-/

namespace DocumentQuery
set_option autoImplicit false

variable {r : String → String → Prop}

/-! ## Lists of names -/

/-- A renaming that maps no two names to one keeps whether a name is in a list. -/
theorem rel_contains (hr : Relator.BiUnique r) {xs ys : List String}
    (h : List.Forall₂ r xs ys) {n n' : String} (hn : r n n') :
    xs.contains n = ys.contains n' := by
  rw [Bool.eq_iff_iff, List.contains_iff_mem, List.contains_iff_mem]
  exact List.rel_mem hr hn h

/-- Names that are left out here are left out there. -/
theorem rel_filter_not {p q : String → Bool} (hpq : ∀ n n', r n n' → p n = q n')
    {xs ys : List String} (h : List.Forall₂ r xs ys) :
    List.Forall₂ r (xs.filter (!p ·)) (ys.filter (!q ·)) :=
  List.rel_filter (fun n n' hn => by simp only [hpq n n' hn]) h

/-- Repetitions stand in the same places, so the first mentions do. -/
theorem rel_eraseDups (hr : Relator.BiUnique r) {xs ys : List String} (h : List.Forall₂ r xs ys) :
    List.Forall₂ r xs.eraseDups ys.eraseDups := by
  cases h with
  | nil => exact .nil
  | @cons x y rest others hxy hrest =>
    have hsame : ∀ n n', r n n' → (n == x) = (n' == y) := fun n n' hn => by
      rw [Bool.eq_iff_iff, beq_iff_eq, beq_iff_eq]
      exact Relator.rel_eq hr hn hxy
    rw [List.eraseDups_cons, List.eraseDups_cons]
    exact .cons hxy (rel_eraseDups hr (rel_filter_not hsame hrest))
termination_by xs.length
decreasing_by
  have hle := List.length_filter_le (!· == x) rest
  rw [List.length_cons]
  omega

/-! ## Documents -/

/-- Clauses that differ in the names of columns: texts and the keys of objects, where these can be
columns. What stands under the keys is the same. -/
inductive Value.ClauseRenamed (r : String → String → Prop) : Value → Value → Prop where
  | leaf {v : Value} (htext : v.kind ≠ .string) (harray : v.kind ≠ .array)
      (hobject : v.kind ≠ .object) : ClauseRenamed r v v
  | text {n n' : String} (h : NameRenamed r Key.isColumnName n n') :
      ClauseRenamed r (.text n) (.text n')
  | array {items others : List Value} (h : List.Forall₂ (ClauseRenamed r) items others) :
      ClauseRenamed r (.array items) (.array others)
  | object {entries others : List (String × Value)}
      (h : List.Forall₂ (fun a b => NameRenamed r Key.isColumnName a.1 b.1 ∧ a.2 = b.2) entries
        others) :
      ClauseRenamed r (.object entries) (.object others)

/-- Names of columns are not reserved. -/
theorem Key.isUnreserved_of_isColumnName {n : String} (h : isColumnName n = true) :
    isUnreserved n = true := (Bool.and_eq_true_iff.1 h).2

/-- A name that a clause takes is renamed to one that it takes as well. -/
theorem Key.renamed_of_isClauseName {n n' : String} (h : NameRenamed r isColumnName n n')
    (hn : isClauseName n = true) : isClauseName n' = true ∧ Renamed r (ofName n) (ofName n') :=
  renamed_of_known (fun _ h => isUnreserved_of_isColumnName h) h hn

/-! ## Projections -/

namespace Projection

/-- Projections to renamed keys. -/
inductive Renamed (r : String → String → Prop) : Projection → Projection → Prop where
  | everything : Renamed r .everything .everything
  | including {keys keys' : List Key} (h : List.Forall₂ (Key.Renamed r) keys keys') :
      Renamed r (.including keys) (.including keys')
  | excluding {keys keys' : List Key} (h : List.Forall₂ (Key.Renamed r) keys keys') :
      Renamed r (.excluding keys) (.excluding keys')

/-- An accepted entry of a projection stays accepted, with its key renamed and the same flag. -/
theorem carries_flagOfEntry {name name' : String} {flag : Value}
    (h : NameRenamed r Key.isColumnName name name') :
    Carries (fun a b : Key × Bool => a.1.Renamed r b.1 ∧ a.2 = b.2) (flagOfEntry (name, flag))
      (flagOfEntry (name', flag)) := by
  simp only [flagOfEntry]
  by_cases hname : Key.isClauseName name = true
  · obtain ⟨hname', hkey⟩ := Key.renamed_of_isClauseName h hname
    rw [if_pos hname, if_pos hname']
    split
    · exact carries_ok ⟨hkey, rfl⟩
    · exact carries_ok ⟨hkey, rfl⟩
    · exact carries_ok ⟨hkey, rfl⟩
    · exact carries_error _ _
  · rw [if_neg hname]
    exact carries_error _ _

/-- Entries with the same flags include, or exclude, the renamed keys. -/
theorem renamed_ofFlags {flags flags' : List (Key × Bool)}
    (h : List.Forall₂ (fun a b => a.1.Renamed r b.1 ∧ a.2 = b.2) flags flags') :
    Renamed r (ofFlags flags) (ofFlags flags') := by
  have hkeys : List.Forall₂ (Key.Renamed r) (flags.map (·.1)) (flags'.map (·.1)) :=
    List.rel_map (fun _ _ hflag => hflag.1) h
  have hincluded : List.Forall₂ (Key.Renamed r) ((flags.filter (·.2)).map (·.1))
      ((flags'.filter (·.2)).map (·.1)) :=
    List.rel_map (fun _ _ hflag => hflag.1)
      (List.rel_filter (fun _ _ hflag => by simp only [hflag.2]) h)
  unfold ofFlags
  generalize (flags.filter (·.2)).map (·.1) = included,
    (flags'.filter (·.2)).map (·.1) = included' at hincluded ⊢
  generalize flags.map (·.1) = keys, flags'.map (·.1) = keys' at hkeys ⊢
  cases hincluded with
  | cons hfirst hrest => exact .including (.cons hfirst hrest)
  | nil =>
    cases hkeys with
    | nil => exact .everything
    | cons hfirst hrest => exact .excluding (.cons hfirst hrest)

/-- An accepted projection stays accepted under a renaming. -/
theorem carries_ofValue {v w : Value} (h : v.ClauseRenamed r w) :
    Carries (Renamed r) (ofValue v) (ofValue w) := by
  cases h with
  | leaf htext harray hobject =>
    cases v with
    | null => exact carries_ok .everything
    | object entries => exact absurd rfl hobject
    | _ => exact carries_error _ _
  | text h => exact carries_error _ _
  | array h => exact carries_error _ _
  | object h =>
    refine (Carries.mapM h ?_).map fun _ _ => renamed_ofFlags
    rintro ⟨name, flag⟩ ⟨name', _⟩ ⟨hname, rfl⟩
    exact carries_flagOfEntry hname

end Projection

/-! ## Orders -/

/-- A name of an order stays accepted and keeps its direction. -/
theorem SortTerm.carries_ofName {n n' : String} (h : NameRenamed r Key.isColumnName n n')
    (direction : Direction) :
    Carries (fun a b : SortTerm => a.key.Renamed r b.key ∧ a.direction = b.direction)
      (ofName n direction) (ofName n' direction) := by
  unfold ofName
  by_cases hn : Key.isClauseName n = true
  · obtain ⟨hn', hkey⟩ := Key.renamed_of_isClauseName h hn
    rw [if_pos hn, if_pos hn']
    exact carries_ok ⟨hkey, rfl⟩
  · rw [if_neg hn]
    exact carries_error _ _

theorem SortTerm.carries_ofValue {v w : Value} (h : v.ClauseRenamed r w) :
    Carries (fun a b : SortTerm => a.key.Renamed r b.key ∧ a.direction = b.direction)
      (ofValue v) (ofValue w) := by
  cases h with
  | leaf htext harray hobject =>
    cases v with
    | text n => exact absurd rfl htext
    | object entries => exact absurd rfl hobject
    | _ => exact carries_error _ _
  | text h => exact carries_ofName h .ascending
  | array h => exact carries_error _ _
  | object h =>
    cases h with
    | nil => exact carries_error _ _
    | @cons a b rest others hentry hrest =>
      obtain ⟨name, flag⟩ := a
      obtain ⟨name', _⟩ := b
      obtain ⟨hname, rfl⟩ := hentry
      cases hrest with
      | cons _ _ => exact carries_error _ _
      | nil =>
        simp only [ofValue]
        split
        · exact carries_ofName hname _
        · exact carries_error _ _

namespace SortOrder

theorem carries_ofElements {elements others : List Value}
    (h : List.Forall₂ (Value.ClauseRenamed r) elements others) :
    Carries (Rel (Key.Renamed r)) (ofElements elements) (ofElements others) := by
  have hindexed : List.Forall₂ (fun a b : Value × Nat => a.1.ClauseRenamed r b.1)
      elements.zipIdx others.zipIdx := by
    rw [← List.zipIdx_map_fst 0 elements, ← List.zipIdx_map_fst 0 others] at h
    exact List.forall₂_map_left_iff.1 (List.forall₂_map_right_iff.1 h)
  have hterms := Carries.mapM hindexed fun a b (hvalue : a.1.ClauseRenamed r b.1) =>
    (SortTerm.carries_ofValue hvalue).mapError (DocumentError.ordering a.2)
      (DocumentError.ordering b.2)
  cases h with
  | nil => exact carries_ok .unspecified
  | cons hfirst hrest => exact hterms.map fun _ _ => .terms

/-- An accepted order stays accepted under a renaming, with its terms in place. -/
theorem carries_ofValue {v w : Value} (h : v.ClauseRenamed r w) :
    Carries (Rel (Key.Renamed r)) (ofValue v) (ofValue w) := by
  cases h with
  | leaf htext harray hobject =>
    cases v with
    | null => exact carries_ok .unspecified
    | text n => exact absurd rfl htext
    | array items => exact absurd rfl harray
    | object entries => exact absurd rfl hobject
    | _ => exact carries_error _ _
  | text h => exact carries_ofElements (.cons (.text h) .nil)
  | array h => exact carries_ofElements h
  | object h => exact carries_ofElements (.cons (.object h) .nil)

end SortOrder

/-! ## Assigned values and column lists -/

/-- A column that may be assigned is renamed to one that may be. -/
theorem carries_checkColumn {n n' : String} (h : NameRenamed r Key.isColumnName n n') :
    Carries r (checkColumn n) (checkColumn n') := by
  unfold checkColumn
  cases h with
  | renamed h hn hn' =>
    rw [if_pos hn, if_pos hn']
    exact carries_ok h
  | kept hn =>
    rw [if_neg (by simp [hn])]
    exact carries_error _ _

/-- Accepted values stay accepted: their columns are renamed and the parameters are the same. -/
theorem Assignments.carries_ofValue {v w : Value} (h : v.ClauseRenamed r w) :
    Carries (Assignments.Rel r Eq) (ofValue v) (ofValue w) := by
  cases h with
  | leaf htext harray hobject =>
    cases v with
    | object entries => exact absurd rfl hobject
    | _ => exact carries_error _ _
  | text h => exact carries_error _ _
  | array h => exact carries_error _ _
  | object h =>
    refine Carries.mapM h ?_
    rintro ⟨name, value⟩ ⟨name', _⟩ ⟨hname, rfl⟩
    refine (carries_checkColumn hname).bind fun column column' hcolumn => ?_
    cases value.parameter? with
    | none => exact carries_error _ _
    | some p => exact carries_ok ⟨hcolumn, rfl⟩

theorem ColumnList.carries_textOfItem {v w : Value} (h : v.ClauseRenamed r w) :
    Carries (NameRenamed r Key.isColumnName) (textOfItem v) (textOfItem w) := by
  cases h with
  | leaf htext harray hobject =>
    cases v with
    | text n => exact absurd rfl htext
    | _ => exact carries_error _ _
  | text h => exact carries_ok h
  | array h => exact carries_error _ _
  | object h => exact carries_error _ _

/-- An accepted list of columns stays accepted under a renaming. -/
theorem ColumnList.carries_ofValue {v w : Value} (h : v.ClauseRenamed r w) :
    Carries (Option.Rel (List.Forall₂ r)) (ofValue v) (ofValue w) := by
  have hcolumns : ∀ {names names' : List String},
      List.Forall₂ (NameRenamed r Key.isColumnName) names names' →
      Carries (Option.Rel (List.Forall₂ r)) ((names.mapM checkColumn).map some)
        ((names'.mapM checkColumn).map some) := fun h =>
    (Carries.mapM h fun _ _ => carries_checkColumn).map fun _ _ => .some
  cases h with
  | leaf htext harray hobject =>
    cases v with
    | null => exact carries_ok .none
    | text n => exact absurd rfl htext
    | array items => exact absurd rfl harray
    | _ => exact carries_error _ _
  | text h => exact hcolumns (.cons h .nil)
  | array h => exact (Carries.mapM h fun _ _ => carries_textOfItem).bind fun _ _ => hcolumns
  | object h => exact carries_error _ _

/-! ## Names of keys -/

theorem Key.Renamed.names {k k' : Key} (h : k.Renamed r k') :
    List.Forall₂ r k.names k'.names := by
  cases h with
  | id => exact .nil
  | column hn => exact .cons hn .nil

/-- The names of renamed keys are the renamed names. -/
theorem Key.renamed_names {keys keys' : List Key} (h : List.Forall₂ (Key.Renamed r) keys keys') :
    List.Forall₂ r (keys.flatMap Key.names) (keys'.flatMap Key.names) :=
  List.rel_flatMap h fun _ _ => Renamed.names

section Keys

variable {keyed : Key → Key → Prop}

/-- Trees that differ in their keys only have these keys one by one. -/
theorem Node.rel_keys {same : Parameter → Parameter → Prop} :
    (∀ node : Node, ∀ other, node.Rel (Comparison.Rel keyed same) other →
      List.Forall₂ keyed node.keys other.keys) ∧
    ∀ nodes : List Node, ∀ others,
      List.Forall₂ (Node.Rel (Comparison.Rel keyed same)) nodes others →
      List.Forall₂ keyed (keysOfAll nodes) (keysOfAll others) := by
  refine keys.mutual_induct _ _ ?comparison ?and ?or ?nil ?cons
  case comparison =>
    intro c other h
    cases h with
    | comparison h => exact .cons h.key .nil
  case and =>
    intro children ih other h
    cases h with
    | and hchildren => exact ih _ hchildren
  case or =>
    intro children ih other h
    cases h with
    | or hchildren => exact ih _ hchildren
  case nil =>
    intro others h
    cases h
    exact .nil
  case cons =>
    intro child rest ihChild ihRest others h
    cases h with
    | cons hchild hrest => exact List.rel_append (ihChild _ hchild) (ihRest _ hrest)

/-- Selections with related trees have related keys one by one. -/
theorem Selection.Rel.keys {same : Parameter → Parameter → Prop} {selection other : Selection}
    (h : selection.Rel (Comparison.Rel keyed same) other) :
    List.Forall₂ keyed selection.keys other.keys := by
  cases h with
  | everything => exact .nil
  | matching h => exact Node.rel_keys.1 _ _ h

theorem SortOrder.Rel.keys {order other : SortOrder} (h : order.Rel keyed other) :
    List.Forall₂ keyed order.keys other.keys := by
  cases h with
  | unspecified => exact .nil
  | terms h => exact List.rel_map (fun _ _ hterm => hterm.1) h

end Keys

theorem Projection.Renamed.keys {projection other : Projection} (h : projection.Renamed r other) :
    List.Forall₂ (Key.Renamed r) projection.keys other.keys := by
  cases h with
  | everything => exact .nil
  | including h => exact h
  | excluding h => exact h

/-! ## Tables -/

namespace Table

/-- The table with its columns renamed. -/
structure Renamed (r : String → String → Prop) (t t' : Table) : Prop where
  name : t.name = t'.name
  primaryKey : List.Forall₂ r t.primaryKey t'.primaryKey
  columns : Option.Rel (List.Forall₂ r) t.columns t'.columns

/-- A name in a statement on the table and its renamed one: columns are renamed, and the names that
are not those of columns are the same. -/
def Named (t : Table) (r : String → String → Prop) (n n' : String) : Prop :=
  r n n' ∨ n ∈ t.keptNames ∧ n' = n

variable {t t' : Table} (h : t.Renamed r t')
include h

/-- In a renamed table a renamed key stands for the renamed column, or fails with the same fault. -/
theorem Renamed.agree_column {k k' : Key} (hk : k.Renamed r k') :
    Agree r (t.column k) (t'.column k') := by
  cases hk with
  | column hn => exact .ok hn
  | id =>
    have hkey := h.primaryKey
    unfold column
    simp only [h.name]
    generalize t.primaryKey = key, t'.primaryKey = key' at hkey ⊢
    cases hkey with
    | nil => exact .error _
    | cons hfirst hrest =>
      cases hrest with
      | nil => exact .ok hfirst
      | cons _ _ => exact .error _

/-- In a renamed table a renamed key stands for as many columns, renamed one by one. -/
theorem Renamed.agree_columnsOf {k k' : Key} (hk : k.Renamed r k') :
    Agree (List.Forall₂ r) (t.columnsOf k) (t'.columnsOf k') := by
  cases hk with
  | column hn => exact .ok (.cons hn .nil)
  | id =>
    have hkey := h.primaryKey
    unfold columnsOf
    simp only [h.name]
    generalize t.primaryKey = key, t'.primaryKey = key' at hkey ⊢
    cases hkey with
    | nil => exact .error _
    | cons hfirst hrest => exact .ok (.cons hfirst hrest)

theorem Renamed.agree_columnsOfAll {keys keys' : List Key}
    (hkeys : List.Forall₂ (Key.Renamed r) keys keys') :
    Agree (List.Forall₂ r) (t.columnsOfAll keys) (t'.columnsOfAll keys') :=
  (Agree.mapM hkeys fun _ _ hk => h.agree_columnsOf hk).map fun _ _ h => List.rel_flatten h

/-- Renamed keys stand for renamed columns. -/
theorem Renamed.rel : t.Rel (Key.Renamed r) (t.Named r) t' where
  name := h.name
  kept _ hn := .inr ⟨hn, rfl⟩
  column _ _ hk := (h.agree_column hk).imp fun _ _ _ _ => .inl
  columnsOf _ _ hk := (h.agree_columnsOf hk).imp fun _ _ _ _ hn => hn.imp fun _ _ => .inl

/-- A projection leaves the renamed columns. -/
theorem Renamed.agree_columns (hr : Relator.BiUnique r) {projection other : Projection}
    (hprojection : projection.Renamed r other) :
    Agree (Option.Rel (List.Forall₂ r)) (projection.columns t) (other.columns t') := by
  cases hprojection with
  | everything => exact .ok .none
  | including hkeys =>
    exact (h.agree_columnsOfAll hkeys).map fun _ _ hnames => .some (rel_eraseDups hr hnames)
  | excluding hkeys =>
    have hcolumns := h.columns
    unfold Projection.columns
    simp only [h.name]
    generalize t.columns = known, t'.columns = known' at hcolumns ⊢
    cases hcolumns with
    | none => exact .error _
    | @some known known' hknown =>
      refine (h.agree_columnsOfAll hkeys).bind fun excluded excluded' hexcluded => ?_
      have hleft : List.Forall₂ r (known.filter (!excluded.contains ·))
          (known'.filter (!excluded'.contains ·)) :=
        rel_filter_not (fun _ _ hn => rel_contains hr hexcluded hn) hknown
      generalize known.filter (!excluded.contains ·) = left,
        known'.filter (!excluded'.contains ·) = left' at hleft ⊢
      cases hleft with
      | nil => exact .error _
      | cons hfirst hrest => exact .ok (.some (.cons hfirst hrest))

end Table

end DocumentQuery
