import DocumentQuery.Proofs.Draft.Outcome

/-!
# Columns of keys

What keys stand for on a table, in one equation for each of the two ways in which they are looked
up. In a list the primary key is all of its columns and must have one; as an operand it must be a
single column. Any other key is a column by its name.
-/

namespace DocumentQuery
set_option autoImplicit false

/-- The columns of a key on a table whose primary key has these columns. -/
def Key.columns (primaryKey : List String) : Key → List String
  | .id => primaryKey
  | .column name => [name]

namespace Table

/-- The columns of keys are found key by key. -/
theorem columnsOfAll_cons (t : Table) (key : Key) (rest : List Key) :
    t.columnsOfAll (key :: rest)
      = t.columnsOf key >>= fun first => (t.columnsOfAll rest).map (first ++ ·) := by
  rw [columnsOfAll, List.mapM_cons, columnsOfAll]
  cases t.columnsOf key with
  | error e => rfl
  | ok first => cases rest.mapM t.columnsOf <;> rfl

/-- Keys in a list stand for their columns, unless the primary key is listed and has none. -/
theorem columnsOfAll_eq (t : Table) (keys : List Key) :
    t.columnsOfAll keys = if .id ∈ keys ∧ t.primaryKey = [] then .error (.missingKey t.name)
      else .ok (keys.flatMap (Key.columns t.primaryKey)) := by
  induction keys with
  | nil => rfl
  | cons key rest ih =>
    rw [columnsOfAll_cons, ih]
    cases key with
    | column name =>
      have hmem : .id ∈ Key.column name :: rest ↔ .id ∈ rest := by simp
      rw [if_congr (and_congr_left' hmem) rfl rfl]
      split <;> rfl
    | id =>
      cases hkey : t.primaryKey with
      | nil => simp [columnsOf, hkey, bind, Except.bind]
      | cons first others => simp [columnsOf, hkey, Except.map, Key.columns]

/-- Where the table has a primary key every list of keys has columns. -/
theorem columnsOfAll_of_key {t : Table} (h : t.primaryKey ≠ []) (keys : List Key) :
    t.columnsOfAll keys = .ok (keys.flatMap (Key.columns t.primaryKey)) := by
  rw [columnsOfAll_eq, if_neg fun hid => h hid.2]

theorem columnsOf_of_key {t : Table} (h : t.primaryKey ≠ []) (key : Key) :
    t.columnsOf key = .ok (key.columns t.primaryKey) := by
  cases key with
  | column name => rfl
  | id => simp [columnsOf, h, Key.columns]

/-- Keys are operands unless the primary key is one of them and is not a single column. -/
theorem single_eq (t : Table) (keys : List Key) :
    t.single keys = if .id ∈ keys then (t.column .id).map fun _ => () else .ok () := by
  induction keys with
  | nil => rfl
  | cons key rest ih =>
    rw [single, ih]
    cases key with
    | column name =>
      have hmem : .id ∈ Key.column name :: rest ↔ .id ∈ rest := by simp
      rw [if_congr hmem rfl rfl]
      rfl
    | id =>
      rw [if_pos List.mem_cons_self]
      cases t.column .id with
      | error e => rfl
      | ok column => split <;> rfl

end Table

end DocumentQuery
