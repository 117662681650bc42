import DocumentQuery.Configuration
import Mathlib.Data.List.Perm.Basic

/-!
# Consistent configurations

Which lists of tables pass the check of a configuration, said without a running set of names: every
table has a name, no two have the same, and primary keys are on the declared column lists. Of a list
that does not pass, the fault is that of the first table that stands against those before it.
-/

namespace DocumentQuery
set_option autoImplicit false

namespace Table

/-! ## One table -/

/-- The primary key is made of columns on the column list, where the table has one. -/
def KeyDeclared (t : Table) : Prop := ∀ columns, t.columns = some columns → t.primaryKey ⊆ columns

/-- No primary key is missing where the columns are unknown or hold all of them. -/
theorem undeclaredKey?_eq_none {t : Table} : t.undeclaredKey? = none ↔ t.KeyDeclared := by
  cases hcolumns : t.columns with
  | none => simp [undeclaredKey?, KeyDeclared, hcolumns]
  | some columns => simp [undeclaredKey?, KeyDeclared, hcolumns, List.subset_def]

/-- The missing key that is reported is the first one. -/
theorem undeclaredKey?_eq_some {t : Table} {key : String} :
    t.undeclaredKey? = some key ↔ ∃ columns before after, t.columns = some columns ∧
      t.primaryKey = before ++ key :: after ∧ before ⊆ columns ∧ key ∉ columns := by
  cases hcolumns : t.columns with
  | none => simp [undeclaredKey?, hcolumns]
  | some columns =>
    have hfind : t.undeclaredKey? = t.primaryKey.find? (!columns.contains ·) := by
      rw [undeclaredKey?, hcolumns]
      rfl
    rw [hfind, List.find?_eq_some_iff_append]
    constructor
    · rintro ⟨hkey, before, after, hsplit, hbefore⟩
      refine ⟨columns, before, after, rfl, hsplit, fun k hk => ?_, by simpa using hkey⟩
      simpa using hbefore k hk
    · rintro ⟨_, before, after, ⟨⟩, hsplit, hbefore, hkey⟩
      refine ⟨by simpa using hkey, before, after, hsplit, fun k hk => ?_⟩
      simpa using hbefore hk

/-- A table that may stand behind tables of the names `seen`. -/
structure Fits (seen : List String) (t : Table) : Prop where
  named : t.name ≠ ""
  fresh : t.name ∉ seen
  declared : t.KeyDeclared

/-- What is wrong with a table behind tables of the names `seen`: it has no name, or one of theirs,
or its column list lacks a column of the primary key, the first of which is told. -/
inductive Clashes (seen : List String) (t : Table) : ConfigurationError → Prop where
  | unnamed (h : t.name = "") : Clashes seen t .emptyTableName
  | repeated (named : t.name ≠ "") (h : t.name ∈ seen) : Clashes seen t (.duplicateTable t.name)
  | undeclared {columns before after : List String} {key : String} (named : t.name ≠ "")
      (fresh : t.name ∉ seen) (list : t.columns = some columns)
      (split : t.primaryKey = before ++ key :: after) (declared : before ⊆ columns)
      (h : key ∉ columns) : Clashes seen t (.undeclaredKey key t.name)

variable {seen seen' : List String} {t : Table} {e : ConfigurationError}

/-- A table fits in with the names before it, or clashes in some way. -/
theorem fits_or_clashes (seen : List String) (t : Table) :
    t.Fits seen ∨ ∃ e, t.Clashes seen e := by
  by_cases hnamed : t.name = ""
  · exact .inr ⟨_, .unnamed hnamed⟩
  by_cases hfresh : t.name ∈ seen
  · exact .inr ⟨_, .repeated hnamed hfresh⟩
  cases hkey : t.undeclaredKey? with
  | none => exact .inl ⟨hnamed, hfresh, undeclaredKey?_eq_none.1 hkey⟩
  | some key =>
    obtain ⟨columns, before, after, hlist, hsplit, hbefore, hout⟩ := undeclaredKey?_eq_some.1 hkey
    exact .inr ⟨_, .undeclared hnamed hfresh hlist hsplit hbefore hout⟩

/-- A fault is nothing that a fitting table has. -/
theorem Clashes.not_fits (h : t.Clashes seen e) : ¬ t.Fits seen := by
  intro hfits
  cases h with
  | unnamed h => exact hfits.named h
  | repeated _ h => exact hfits.fresh h
  | undeclared _ _ list split _ h =>
    refine h (hfits.declared _ list ?_)
    rw [split]
    simp

/-- Only which names were seen matters, not their order. -/
theorem Clashes.congr (h : t.Clashes seen e) (hseen : ∀ n, n ∈ seen ↔ n ∈ seen') :
    t.Clashes seen' e := by
  cases h with
  | unnamed h => exact .unnamed h
  | repeated named h => exact .repeated named ((hseen _).1 h)
  | undeclared named fresh list split declared h =>
    exact .undeclared named (mt (hseen _).2 fresh) list split declared h

end Table

namespace Configuration

variable {seen : List String} {t : Table} {tables rest : List Table} {e : ConfigurationError}

/-! ## Tables in a row -/

/-- A table that fits is passed over, and its name is taken. -/
theorem checkTables_of_fits (h : t.Fits seen) (rest : List Table) :
    checkTables seen (t :: rest) = checkTables (t.name :: seen) rest := by
  have hnamed : t.name.isEmpty = false := by simpa using h.named
  have hfresh : seen.contains t.name = false := by simpa using h.fresh
  have hkey : t.undeclaredKey? = none := Table.undeclaredKey?_eq_none.2 h.declared
  simp only [checkTables, hnamed, hfresh, hkey, Bool.false_eq_true, if_false]

theorem checkTables_of_clashes (h : t.Clashes seen e) (rest : List Table) :
    checkTables seen (t :: rest) = .error e := by
  cases h with
  | unnamed h => simp [checkTables, h]
  | repeated named h => simp [checkTables, named, h]
  | undeclared named fresh list split declared h =>
    have hkey := Table.undeclaredKey?_eq_some.2 ⟨_, _, _, list, split, declared, h⟩
    simp [checkTables, named, fresh, hkey]

/-- Tables that have names, no two of them the same, and primary keys on their column lists. -/
structure Consistent (tables : List Table) : Prop where
  named : ∀ t ∈ tables, t.name ≠ ""
  distinct : (tables.map (·.name)).Nodup
  declared : ∀ t ∈ tables, t.KeyDeclared

/-- Tables are consistent where the first fits in with the others and these are consistent. -/
theorem consistent_cons : Consistent (t :: rest) ↔
    t.Fits (rest.map (·.name)) ∧ Consistent rest := by
  constructor
  · rintro ⟨hnamed, hdistinct, hdeclared⟩
    obtain ⟨hfresh, hrest⟩ := List.nodup_cons.1 hdistinct
    obtain ⟨hname, hnames⟩ := List.forall_mem_cons.1 hnamed
    obtain ⟨hkey, hkeys⟩ := List.forall_mem_cons.1 hdeclared
    exact ⟨⟨hname, hfresh, hkey⟩, hnames, hrest, hkeys⟩
  · rintro ⟨⟨hname, hfresh, hkey⟩, hnames, hrest, hkeys⟩
    exact ⟨List.forall_mem_cons.2 ⟨hname, hnames⟩, List.nodup_cons.2 ⟨hfresh, hrest⟩,
      List.forall_mem_cons.2 ⟨hkey, hkeys⟩⟩

/-- The order of tables does not matter. -/
theorem Consistent.perm {other : List Table} (h : Consistent tables) (hperm : other.Perm tables) :
    Consistent other where
  named t ht := h.named t (hperm.subset ht)
  distinct := (hperm.map _).nodup_iff.2 h.distinct
  declared t ht := h.declared t (hperm.subset ht)

/-- Leaving tables out keeps the others consistent. -/
theorem Consistent.sublist {other : List Table} (h : Consistent tables)
    (hsub : other.Sublist tables) : Consistent other where
  named t ht := h.named t (hsub.subset ht)
  distinct := h.distinct.sublist (hsub.map _)
  declared t ht := h.declared t (hsub.subset ht)

/-- Tables pass behind others when they are consistent and have none of the names seen. -/
theorem checkTables_eq_ok : checkTables seen tables = .ok () ↔
    Consistent tables ∧ ∀ t ∈ tables, t.name ∉ seen := by
  induction tables generalizing seen with
  | nil => exact iff_of_true rfl ⟨⟨by simp, by simp, by simp⟩, by simp⟩
  | cons t rest ih =>
    rw [consistent_cons, List.forall_mem_cons]
    rcases Table.fits_or_clashes seen t with hfits | ⟨e, hclashes⟩
    · rw [checkTables_of_fits hfits, ih]
      constructor
      · rintro ⟨hrest, hnew⟩
        have hfresh : t.name ∉ rest.map (·.name) := by
          intro hmem
          obtain ⟨u, hu, heq⟩ := List.mem_map.1 hmem
          exact hnew u hu (heq ▸ List.mem_cons_self)
        exact ⟨⟨⟨hfits.named, hfresh, hfits.declared⟩, hrest⟩, hfits.fresh,
          fun u hu hmem => hnew u hu (List.mem_cons_of_mem _ hmem)⟩
      · rintro ⟨⟨hfirst, hrest⟩, -, hseen⟩
        refine ⟨hrest, fun u hu hmem => ?_⟩
        rcases List.mem_cons.1 hmem with heq | hmem
        · exact hfirst.fresh (heq ▸ List.mem_map.2 ⟨u, hu, rfl⟩)
        · exact hseen u hu hmem
    · rw [checkTables_of_clashes hclashes]
      refine iff_of_false nofun ?_
      rintro ⟨⟨hfirst, -⟩, hfresh, -⟩
      exact hclashes.not_fits ⟨hfirst.named, hfresh, hfirst.declared⟩

/-- The fault is that of the first table that clashes with what stands before it. -/
theorem checkTables_eq_error : checkTables seen tables = .error e ↔
    ∃ before t after, tables = before ++ t :: after ∧ checkTables seen before = .ok () ∧
      t.Clashes (seen ++ before.map (·.name)) e := by
  induction tables generalizing seen with
  | nil =>
    refine iff_of_false nofun ?_
    rintro ⟨before, t, after, h, -⟩
    exact List.append_ne_nil_of_right_ne_nil before (List.cons_ne_nil t after) h.symm
  | cons t rest ih =>
    constructor
    · intro h
      rcases Table.fits_or_clashes seen t with hfits | ⟨e', hclashes⟩
      · rw [checkTables_of_fits hfits, ih] at h
        obtain ⟨before, u, after, rfl, hbefore, hu⟩ := h
        refine ⟨t :: before, u, after, rfl, ?_, hu.congr fun n => ?_⟩
        · rw [checkTables_of_fits hfits, hbefore]
        · simp only [List.cons_append, List.mem_cons, List.mem_append, List.map_cons]
          tauto
      · rw [checkTables_of_clashes hclashes] at h
        cases h
        exact ⟨[], t, rest, rfl, rfl, by simpa using hclashes⟩
    · rintro ⟨_ | ⟨b, before⟩, u, after, hsplit, hbefore, hu⟩
      · cases hsplit
        exact checkTables_of_clashes (by simpa using hu) _
      · cases hsplit
        rcases Table.fits_or_clashes seen t with hfits | ⟨e', hclashes⟩
        · rw [checkTables_of_fits hfits] at hbefore ⊢
          refine ih.2 ⟨before, u, after, rfl, hbefore, hu.congr fun n => ?_⟩
          simp only [List.cons_append, List.mem_cons, List.mem_append, List.map_cons]
          tauto
        · rw [checkTables_of_clashes hclashes] at hbefore
          cases hbefore

/-! ## Configurations -/

/-- The check passes exactly the consistent configurations. -/
theorem check_eq_ok {c : Configuration} : c.check = .ok () ↔ Consistent c.tables := by
  rw [check, checkTables_eq_ok]
  simp

/-- The fault of the first table, in the order of the list, that those before it do not allow. -/
def FirstClash (tables : List Table) (e : ConfigurationError) : Prop :=
  ∃ before t after, tables = before ++ t :: after ∧ Consistent before ∧
    t.Clashes (before.map (·.name)) e

/-- The check reports exactly the first clash. -/
theorem check_eq_error {c : Configuration} {e : ConfigurationError} :
    c.check = .error e ↔ FirstClash c.tables e := by
  simp [check, checkTables_eq_error, checkTables_eq_ok, FirstClash]

end Configuration

end DocumentQuery
