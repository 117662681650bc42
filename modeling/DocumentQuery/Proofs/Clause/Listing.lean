import DocumentQuery.Proofs.Clause.Columns
import DocumentQuery.Proofs.Clause.Paging

/-!
# Names and flags in clauses

What a projection and an order have in common: which names they may list, the columns that a listed
name stands for on a table, and the numbers that are flags.
-/

namespace DocumentQuery
set_option autoImplicit false

namespace Key

/-- A name that clauses may list: the one of the primary key, or a name that is neither empty nor
begins with the sign that is kept for operators. -/
def Listable (name : String) : Prop := name = "$id" ∨ name ≠ "" ∧ name.toList.head? ≠ some '$'

instance (name : String) : Decidable (Listable name) :=
  inferInstanceAs (Decidable (_ ∨ _))

theorem isClauseName_iff {name : String} : isClauseName name = true ↔ Listable name := by
  simp [isClauseName, isColumnName, isReserved, idName, Listable]

end Key

namespace Table

/-- The columns of a table that a listed name stands for. -/
def listed (t : Table) (name : String) : List String :=
  if name = "$id" then t.primaryKey else [name]

theorem columns_ofName (t : Table) (name : String) :
    (Key.ofName name).columns t.primaryKey = t.listed name := by
  rw [Key.ofName, listed, Key.idName]
  split <;> rfl

/-- Listed names stand for their columns one after the other, where these can be told. -/
theorem columnsOfAll_ofName {t : Table} {names columns : List String}
    (h : t.columnsOfAll (names.map Key.ofName) = .ok columns) :
    columns = names.flatMap t.listed := by
  rw [columnsOfAll_eq] at h
  split at h
  · cases h
  · cases h
    rw [List.flatMap_map]
    exact congrArg names.flatMap (funext t.columns_ofName)

end Table

/-- An integer away from the ends of the range is read just from the values that denote it. -/
theorem Value.integer?_eq_iff_rational? {v : Value} {n : Int} (hlow : -2 ^ 63 ≤ n)
    (hhigh : n < 2 ^ 63 - 1) : v.integer? = some n ↔ v.rational? = some (n : ℚ) := by
  rw [integer?_eq_some]
  constructor
  · rintro ⟨m, hm, -, hn⟩
    have heq : n = m := by omega
    rw [heq, hm]
  · intro h
    exact ⟨n, h, by omega, by omega⟩

end DocumentQuery
