import DocumentQuery.Catalog
import DocumentQuery.Proofs.Configuration
import DocumentQuery.Proofs.Result
import Mathlib.Data.List.Nodup

/-!
# Tables of a catalog

What a call is answered with depends on the dialect and on the table of its name alone. In a
consistent configuration each name has one table, so neither the order of the tables nor the tables
of other names are seen by a call, and a name that is not listed is answered as with no tables.
-/

namespace DocumentQuery
set_option autoImplicit false

namespace Catalog

open DocumentQuery.Configuration

/-- Two catalogs know the same of the table of a name, and give every call on it the same answer. -/
structure AnswersAlike (catalog other : Catalog) (name : String) : Prop where
  table : catalog.table name = other.table name
  query : ∀ (m : Method) (options : Document),
    catalog.query m name options = other.query m name options

variable {catalog other : Catalog} {name : String}

/-- A call looks at the dialect and looks up the table of its name, and nothing else. -/
theorem answersAlike_of_find? (hdialect : catalog.dialect = other.dialect)
    (h : catalog.tables.find? (·.name == name) = other.tables.find? (·.name == name)) :
    catalog.AnswersAlike other name := by
  have htable : catalog.table name = other.table name := by rw [table, table, h]
  refine ⟨htable, fun m options => ?_⟩
  rw [query, query, hdialect, htable]

theorem ofConfiguration_eq_ok {c : Configuration} :
    ofConfiguration c = .ok catalog ↔ Consistent c.tables ∧ catalog = ⟨c.dialect, c.tables⟩ := by
  rw [ofConfiguration, map_eq_ok]
  constructor
  · rintro ⟨u, hcheck, rfl⟩
    exact ⟨check_eq_ok.1 hcheck, rfl⟩
  · rintro ⟨hconsistent, rfl⟩
    exact ⟨(), check_eq_ok.2 hconsistent, rfl⟩

/-! ## Looking up a table -/

variable {tables others : List Table} {t : Table}

/-- Where no two tables have the same name, a look-up finds the one that has it. -/
theorem find?_name_eq_some (h : (tables.map (·.name)).Nodup) :
    tables.find? (·.name == name) = some t ↔ t ∈ tables ∧ t.name = name := by
  constructor
  · intro hfind
    exact ⟨List.mem_of_find?_eq_some hfind, by simpa using List.find?_some hfind⟩
  · rintro ⟨ht, rfl⟩
    cases hfind : tables.find? (·.name == t.name) with
    | none =>
      have hnone := List.find?_eq_none.1 hfind t ht
      simp at hnone
    | some u =>
      have hname : u.name = t.name := by simpa using List.find?_some hfind
      rw [List.inj_on_of_nodup_map h (List.mem_of_find?_eq_some hfind) ht hname]

theorem find?_name_perm (h : (tables.map (·.name)).Nodup) (hperm : others.Perm tables) :
    tables.find? (·.name == name) = others.find? (·.name == name) := by
  have hothers : (others.map (·.name)).Nodup := (hperm.map _).nodup_iff.2 h
  ext u
  rw [find?_name_eq_some h, find?_name_eq_some hothers, hperm.mem_iff]

/-- A table is passed over when another name is looked up. -/
theorem find?_name_of_ne (before after : List Table) (h : name ≠ t.name) :
    (before ++ t :: after).find? (·.name == name) = (before ++ after).find? (·.name == name) := by
  have hpass : (t.name == name) = false := beq_eq_false_iff_ne.2 (Ne.symm h)
  simp only [List.find?_append, List.find?_cons, hpass]

/-! ## Independence -/

/-- A configuration gives a catalog exactly when it is consistent, and otherwise the fault of its
first table that clashes. The answers of the catalog do not depend on the order of the tables, nor
on whether a table of another name is listed, and on a name that is not listed they are those of
the dialect without tables. -/
theorem tables_independent (c : Configuration) :
    (c.check = .ok () ↔ Consistent c.tables) ∧
    (∀ e, c.check = .error e ↔ FirstClash c.tables e) ∧
    ∀ catalog, ofConfiguration c = .ok catalog →
      (∀ tables : List Table, tables.Perm c.tables →
        ∃ other, ofConfiguration { c with tables } = .ok other ∧
          ∀ name, catalog.AnswersAlike other name) ∧
      (∀ (before : List Table) (t : Table) (after : List Table),
        c.tables = before ++ t :: after →
        ∃ other, ofConfiguration { c with tables := before ++ after } = .ok other ∧
          ∀ name, name ≠ t.name → catalog.AnswersAlike other name) ∧
      (∀ (before : List Table) (t : Table) (after : List Table),
        c.tables = before ++ after → Consistent (before ++ t :: after) →
        ∃ other, ofConfiguration { c with tables := before ++ t :: after } = .ok other ∧
          ∀ name, name ≠ t.name → catalog.AnswersAlike other name) ∧
      ∀ name, name ∉ c.tables.map (·.name) →
        catalog.AnswersAlike { dialect := c.dialect } name := by
  refine ⟨check_eq_ok, fun e => check_eq_error, fun catalog hcatalog => ?_⟩
  obtain ⟨hconsistent, rfl⟩ := ofConfiguration_eq_ok.1 hcatalog
  refine ⟨fun tables hperm => ?permuted, fun before t after hsplit => ?removed,
    fun before t after hsplit hadded => ?added, fun name hname => ?unlisted⟩
  case permuted =>
    refine ⟨_, ofConfiguration_eq_ok.2 ⟨hconsistent.perm hperm, rfl⟩, fun name => ?_⟩
    exact answersAlike_of_find? rfl (find?_name_perm hconsistent.distinct hperm)
  case removed =>
    have hsub : (before ++ after).Sublist c.tables := by
      rw [hsplit]
      exact (List.sublist_cons_self t after).append_left before
    refine ⟨_, ofConfiguration_eq_ok.2 ⟨hconsistent.sublist hsub, rfl⟩, fun name hne => ?_⟩
    refine answersAlike_of_find? rfl ?_
    show c.tables.find? _ = _
    rw [hsplit]
    exact find?_name_of_ne before after hne
  case added =>
    refine ⟨_, ofConfiguration_eq_ok.2 ⟨hadded, rfl⟩, fun name hne => ?_⟩
    refine answersAlike_of_find? rfl ?_
    show c.tables.find? _ = _
    rw [hsplit]
    exact (find?_name_of_ne before after hne).symm
  case unlisted =>
    refine answersAlike_of_find? rfl ?_
    show c.tables.find? _ = _
    rw [List.find?_nil, List.find?_eq_none]
    intro t ht hfound
    exact hname (List.mem_map.2 ⟨t, ht, by simpa using hfound⟩)

/-- Two tables, one of them with a key of its own, one with a column list. -/
def blogTables : List Table :=
  [{ name := "posts", primaryKey := ["slug"] },
    { name := "users", columns := some ["id", "name"] }]

/-- With the tables the other way round, and without one of them, the other answers as before. -/
theorem posts_independent :
    ∃ catalog reversed single, ofConfiguration ⟨.mysql, blogTables⟩ = .ok catalog ∧
      ofConfiguration ⟨.mysql, blogTables.reverse⟩ = .ok reversed ∧
      ofConfiguration ⟨.mysql, blogTables.take 1⟩ = .ok single ∧
      (∀ name, catalog.AnswersAlike reversed name) ∧ catalog.AnswersAlike single "posts" ∧
      catalog.AnswersAlike { dialect := .mysql } "comments" := by
  obtain ⟨-, -, hanswers⟩ := tables_independent ⟨.mysql, blogTables⟩
  obtain ⟨hpermuted, hremoved, -, hunlisted⟩ := hanswers ⟨.mysql, blogTables⟩ rfl
  obtain ⟨reversed, hreversed, halike⟩ := hpermuted blogTables.reverse (List.reverse_perm _)
  obtain ⟨single, hsingle, hother⟩ := hremoved (blogTables.take 1) _ [] rfl
  exact ⟨_, reversed, single, rfl, hreversed, hsingle, halike, hother "posts" (by decide),
    hunlisted "comments" (by decide)⟩

end Catalog

end DocumentQuery
