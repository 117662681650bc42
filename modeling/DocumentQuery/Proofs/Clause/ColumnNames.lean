import DocumentQuery.Proofs.Clause.Renaming
import DocumentQuery.Proofs.Selection.Comparisons
import DocumentQuery.Proofs.Selection.Expressible

/-!
# Names of columns

Which names the parts of a document can give to columns: none that is reserved, and in the clauses
none that is empty. A selector is the exception, its fields may be unnamed: the main statement says
that its tree has an unnamed column exactly where the document compares an unnamed field.
-/

namespace DocumentQuery
set_option autoImplicit false

namespace Key

/-- The primary key, or a column with a name that values can be assigned to. -/
def IsNamed : Key → Prop
  | .id => True
  | .column name => isColumnName name = true

/-- Of the keys that a document can name, only the column without a name is not named. -/
theorem Expressible.isNamed_iff {key : Key} (h : key.Expressible) :
    key.IsNamed ↔ key ≠ .column "" := by
  cases key with
  | id => exact iff_of_true trivial nofun
  | column name =>
    have hreserved : isReserved name = false := h
    simp [IsNamed, isColumnName, hreserved]

end Key

/-! ## Selectors -/

/-- The comparisons in a tree that a document can say can be said themselves. -/
theorem Node.Expressible.comparison_mem {node : Node} (h : node.Expressible) :
    ∀ c ∈ node.comparisons, c.Expressible := by
  induction h with
  | comparison hc =>
    intro c hmem
    rw [comparisons, List.mem_singleton] at hmem
    exact hmem ▸ hc
  | and _ _ ih | or _ _ ih =>
    intro c hmem
    rw [comparisons, comparisonsOfAll_eq_flatMap] at hmem
    obtain ⟨child, hchild, hc⟩ := List.mem_flatMap.1 hmem
    exact ih child hchild c hc

/-- The keys of a tree are those of its comparisons. -/
theorem Node.keys_eq_map :
    (∀ node : Node, node.keys = node.comparisons.map (·.key)) ∧
      ∀ nodes : List Node, keysOfAll nodes = (comparisonsOfAll nodes).map (·.key) := by
  refine keys.mutual_induct _ _ ?comparison ?and ?or ?nil ?cons
  case comparison => exact fun c => rfl
  case and => exact fun children ih => ih
  case or => exact fun children ih => ih
  case nil => rfl
  case cons =>
    intro child rest ihChild ihRest
    rw [keysOfAll, comparisonsOfAll, ihChild, ihRest, List.map_append]

namespace Selection

theorem keys_eq_map (selection : Selection) :
    selection.keys = selection.comparisons.map (·.key) := by
  cases selection with
  | everything => rfl
  | matching node => exact Node.keys_eq_map.1 node

/-- A selection that a document can say has keys that it can say. -/
theorem Expressible.keys {selection : Selection} (h : selection.Expressible) :
    ∀ key ∈ selection.keys, key.Expressible := by
  intro key hkey
  rw [keys_eq_map] at hkey
  obtain ⟨c, hc, rfl⟩ := List.mem_map.1 hkey
  cases selection with
  | everything => cases hc
  | matching node => exact (Node.Expressible.comparison_mem h c hc).1

/-- The keys in the tree of an accepted document are those that the document compares. -/
theorem keys_of_ofSelector {field : Option Key} {v : Value} {sel : Selection}
    (h : ofSelector field v = .ok sel) : sel.keys = (v.comparisons field).map (·.key) := by
  rw [keys_eq_map]
  exact map_eq_of_forall₂ ((comparisons_of_ofSelector h).imp fun w c hc => hc.key_eq)

end Selection

/-! ## Clauses -/

namespace Key

/-- The names that columns can have, each renamed to itself. -/
def SameColumn (n n' : String) : Prop := isColumnName n = true ∧ n' = n

theorem nameRenamed_self (n : String) : NameRenamed SameColumn isColumnName n n := by
  cases h : isColumnName n with
  | true => exact .renamed ⟨h, rfl⟩ h h
  | false => exact .kept h

/-- Keys that are renamed to themselves have names of columns. -/
theorem isNamed_of_renamed {keys : List Key} (h : List.Forall₂ (Renamed SameColumn) keys keys) :
    ∀ key ∈ keys, key.IsNamed := by
  intro key hkey
  cases List.forall₂_same.1 h key hkey with
  | id => trivial
  | column hsame => exact hsame.1

end Key

namespace Value

mutual

/-- Every clause is its own under the renaming of columns to themselves. What is carried by this
renaming holds only names that it renames. -/
theorem clauseRenamed_self (v : Value) : v.ClauseRenamed Key.SameColumn v := by
  match v with
  | .text n => exact .text (Key.nameRenamed_self n)
  | .array items => exact .array (clauseRenamed_items items)
  | .object entries =>
    exact .object (List.forall₂_same.2 fun entry _ => ⟨Key.nameRenamed_self entry.1, rfl⟩)
  | .null | .bool _ | .int _ | .float _ | .date _ | .binary _ =>
    exact .leaf (by simp [kind]) (by simp [kind]) (by simp [kind])

theorem clauseRenamed_items (items : List Value) :
    List.Forall₂ (ClauseRenamed Key.SameColumn) items items := by
  match items with
  | [] => exact .nil
  | item :: rest => exact .cons (clauseRenamed_self item) (clauseRenamed_items rest)

end

end Value

/-- The columns of an accepted document are named in every clause of a statement, and those of a
selector unless the document compares a field with the empty name. -/
theorem columns_named (v : Value) :
    (∀ sel, Selection.ofValue v = .ok sel →
        ((∀ key ∈ sel.keys, key.IsNamed) ↔ .column "" ∉ (v.comparisons none).map (·.key))) ∧
      (∀ projection, Projection.ofValue v = .ok projection → ∀ key ∈ projection.keys, key.IsNamed) ∧
      (∀ order, SortOrder.ofValue v = .ok order → ∀ key ∈ order.keys, key.IsNamed) ∧
      (∀ values, Assignments.ofValue v = .ok values →
        ∀ column ∈ values.map (·.1), Key.isColumnName column = true) ∧
      ∀ columns, ColumnList.ofValue v = .ok (some columns) →
        ∀ column ∈ columns, Key.isColumnName column = true := by
  have hself := v.clauseRenamed_self
  refine ⟨?selector, ?projection, ?order, ?values, ?columns⟩
  case selector =>
    intro sel h
    have hexpressible : sel.Expressible := Selection.expressible_of_ofSelector (by simp) h
    have hnamed : ∀ key ∈ sel.keys, key.IsNamed ↔ key ≠ .column "" :=
      fun key hkey => (hexpressible.keys key hkey).isNamed_iff
    rw [← Selection.keys_of_ofSelector h, forall₂_congr hnamed]
    exact ⟨fun hall hmem => hall _ hmem rfl, fun hnone key hkey heq => hnone (heq ▸ hkey)⟩
  case projection =>
    intro projection h
    exact Key.isNamed_of_renamed ((Projection.carries_ofValue hself).self h).keys
  case order =>
    intro order h
    exact Key.isNamed_of_renamed ((SortOrder.carries_ofValue hself).self h).keys
  case values =>
    intro values h column hcolumn
    obtain ⟨value, hvalue, rfl⟩ := List.mem_map.1 hcolumn
    exact (List.forall₂_same.1 ((Assignments.carries_ofValue hself).self h) value hvalue).1.1
  case columns =>
    intro columns h column hcolumn
    cases (ColumnList.carries_ofValue hself).self h with
    | some hsame => exact (List.forall₂_same.1 hsame column hcolumn).1

/-- An unnamed field is compared as a column without a name; every clause refuses such a name. -/
theorem unnamed_field_taken :
    Selection.ofValue (.object [("", .int 1)])
        = .ok (.comparing ⟨.eq, .column "", .value (.int 1)⟩) ∧
      Projection.ofValue (.object [("", .int 1)]) = .error (.columnName "") ∧
      Assignments.ofValue (.object [("", .int 1)]) = .error (.columnName "") :=
  ⟨rfl, rfl, rfl⟩

end DocumentQuery
