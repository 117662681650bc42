import DocumentQuery.Proofs.Selection.Vacuous

/-!
# Comparisons of documents

The comparisons that a document writes, one after the other, whatever groups they stand in. The main
statement is that the comparisons in the tree of an accepted document are these, each read by
itself, so what holds of each comparison that can be read holds throughout a tree.
-/

namespace DocumentQuery
set_option autoImplicit false

/-- A comparison as a document writes it: its operand is a value of the document. -/
structure Comparison.Written where
  op : Operator
  key : Key
  operand : Value

namespace Comparison.Written

/-- The comparison is what is read of the written one. -/
def Reads (w : Written) (c : Comparison) : Prop := ofValue w.op w.key w.operand = .ok c

/-- A comparison is read for the key that it is written with. -/
theorem Reads.key_eq {w : Written} {c : Comparison} (h : w.Reads c) : c.key = w.key := by
  obtain ⟨operand, -, rfl⟩ := ofValue_eq_ok.1 h
  rfl

end Comparison.Written

/-! ## Comparisons of trees -/

namespace Node

mutual

/-- The comparisons in a tree, in order. -/
def comparisons : Node → List Comparison
  | .comparison c => [c]
  | .and children => comparisonsOfAll children
  | .or children => comparisonsOfAll children

def comparisonsOfAll : List Node → List Comparison
  | [] => []
  | child :: rest => comparisons child ++ comparisonsOfAll rest

end

theorem comparisonsOfAll_eq_flatMap (nodes : List Node) :
    comparisonsOfAll nodes = nodes.flatMap comparisons := by
  induction nodes with
  | nil => rfl
  | cons child rest ih => rw [comparisonsOfAll, ih, List.flatMap_cons]

end Node

namespace Selection

def comparisons : Selection → List Comparison
  | .everything => []
  | .matching node => node.comparisons

/-- Parts that select every row have no comparisons, so leaving them out changes none. -/
theorem flatMap_comparisons_nodes (parts : List Selection) :
    (parts.filterMap node?).flatMap Node.comparisons = parts.flatMap comparisons := by
  induction parts with
  | nil => rfl
  | cons part rest ih =>
    rw [List.flatMap_cons, ← ih]
    cases part <;> rfl

/-- A conjunction drops only what selects every row, and with it no comparison. -/
theorem comparisons_conjunction (parts : List Selection) :
    (conjunction parts).comparisons = parts.flatMap comparisons := by
  rw [← flatMap_comparisons_nodes, conjunction]
  split
  · next hnone =>
    rw [hnone]
    rfl
  · exact Node.comparisonsOfAll_eq_flatMap _

/-- The joined entries of a document compare what each of them does. -/
theorem comparisons_joined (parts : List Selection) :
    (joined parts).comparisons = parts.flatMap comparisons := by
  rcases parts with _ | ⟨only, _ | ⟨second, rest⟩⟩
  · exact comparisons_conjunction []
  · simp [joined]
  · exact comparisons_conjunction (only :: second :: rest)

/-- A disjunction keeps the comparisons of its parts where none of them selects every row. -/
theorem comparisons_disjunction {parts : List Selection}
    (h : ¬ ∃ part ∈ parts, part = .everything) :
    (disjunction parts).comparisons = parts.flatMap comparisons := by
  have hnone : parts.any isEverything = false := by
    refine List.any_eq_false.2 fun part hpart heq => h ⟨part, hpart, ?_⟩
    cases part with
    | everything => rfl
    | matching node => cases heq
  rw [← flatMap_comparisons_nodes, disjunction, hnone]
  exact Node.comparisonsOfAll_eq_flatMap _

end Selection

/-! ## Comparisons of documents -/

namespace Value

/-- The comparison that an entry without selectors in its value writes, if it is about a key. -/
def leafComparisons (field : Option Key) (name : String) (v : Value) : List Comparison.Written :=
  match Operator.ofName? name, field with
  | some op, some key => [⟨op, key, v⟩]
  | some _, none => []
  | none, _ => [⟨.eq, Key.ofName name, v⟩]

mutual

/-- The comparisons that a document writes, in order. -/
def comparisons (field : Option Key) : Value → List Comparison.Written
  | .null => []
  | .array items => [⟨.oneOf, .id, .array items⟩]
  | .object entries => comparisonsOfEntries field entries
  | scalar => [⟨.eq, .id, scalar⟩]

def comparisonsOfEntries (field : Option Key) : List (String × Value) → List Comparison.Written
  | [] => []
  | (name, v) :: rest => entryComparisons field name v ++ comparisonsOfEntries field rest

/-- The comparisons of an entry. A choice with an item that asks nothing of a row asks nothing
itself, so no comparison in it counts. -/
def entryComparisons (field : Option Key) (name : String) : Value → List Comparison.Written
  | .array items =>
    if name = "$and" then comparisonsOfItems field items
    else if name = "$or" then
      if ∃ item ∈ items, item.Vacuous then [] else comparisonsOfItems field items
    else leafComparisons field name (.array items)
  | .object entries =>
    if Key.isFieldName name then comparisonsOfEntries (some (Key.ofName name)) entries
    else leafComparisons field name (.object entries)
  | plain => leafComparisons field name plain

def comparisonsOfItems (field : Option Key) : List Value → List Comparison.Written
  | [] => []
  | item :: rest => comparisons field item ++ comparisonsOfItems field rest

end

theorem comparisonsOfEntries_eq_flatMap (field : Option Key) (entries : List (String × Value)) :
    comparisonsOfEntries field entries
      = entries.flatMap fun entry => entryComparisons field entry.1 entry.2 := by
  induction entries with
  | nil => rfl
  | cons entry rest ih => rw [comparisonsOfEntries, ih, List.flatMap_cons]

theorem comparisonsOfItems_eq_flatMap (field : Option Key) (items : List Value) :
    comparisonsOfItems field items = items.flatMap (comparisons field) := by
  induction items with
  | nil => rfl
  | cons item rest ih => rw [comparisonsOfItems, ih, List.flatMap_cons]

/-- A scalar compares the primary key. -/
theorem comparisons_scalar (field : Option Key) {v : Value} (h : v.isScalar = true) :
    comparisons field v = [⟨.eq, .id, v⟩] := by
  cases v with
  | null | array _ | object _ => cases h
  | _ => rfl

/-- An operator compares the field in front of it. -/
theorem entryComparisons_operator (key : Key) (op : Operator) (v : Value) :
    entryComparisons (some key) op.name v = [⟨op, key, v⟩] := by
  have hand : op.name ≠ "$and" := by cases op <;> decide
  have hor : op.name ≠ "$or" := by cases op <;> decide
  have hleaf : leafComparisons (some key) op.name v = [⟨op, key, v⟩] := by simp [leafComparisons]
  cases v <;> simp [entryComparisons, hand, hor, Operator.isFieldName_name, hleaf]

theorem entryComparisons_object (field : Option Key) {name : String}
    (h : Key.isFieldName name = true) (entries : List (String × Value)) :
    entryComparisons field name (.object entries)
      = comparisons (some (Key.ofName name)) (.object entries) := by
  simp [entryComparisons, comparisons, h]

theorem entryComparisons_equal (field : Option Key) {name : String}
    (h : Key.isFieldName name = true) {v : Value} (hv : v.kind ≠ .object) :
    entryComparisons field name v = [⟨.eq, Key.ofName name, v⟩] := by
  have hand : name ≠ "$and" := by
    rintro rfl
    exact absurd h (by decide)
  have hor : name ≠ "$or" := by
    rintro rfl
    exact absurd h (by decide)
  have hleaf : leafComparisons field name v = [⟨.eq, Key.ofName name, v⟩] := by
    simp [leafComparisons, Operator.ofName?_of_isFieldName h]
  cases v with
  | object entries => exact absurd rfl hv
  | _ => simp [entryComparisons, hand, hor, hleaf]

end Value

/-! ## Reading comparisons -/

namespace Selection

open Comparison.Written (Reads)

theorem reads_only {op : Operator} {key : Key} {v : Value} {c : Comparison}
    (h : Comparison.ofValue op key v = .ok c) :
    List.Forall₂ Reads [⟨op, key, v⟩] (comparing c).comparisons :=
  .cons h .nil

/-- In every way in which a document is read, its comparisons are read one by one; where every row
is selected, there are none. -/
theorem inductive_comparisons :
    Inductive
      (fun field v sel => (sel = .everything ↔ v.Vacuous) ∧
        List.Forall₂ Reads (v.comparisons field) sel.comparisons)
      (fun field entry sel => (sel = .everything ↔ Value.VacuousEntry entry.1 entry.2) ∧
        List.Forall₂ Reads (Value.entryComparisons field entry.1 entry.2) sel.comparisons) := by
  -- Which disjunctions are absorbed is told by vacuity, which is carried along.
  have vacuous := inductive_vacuous
  refine ⟨?null, ?array, ?scalar, ?object, ?operator, ?connective, ?narrowed, ?equal⟩
  case null => exact fun field => ⟨vacuous.null field, .nil⟩
  case array =>
    intro field items c hc
    exact ⟨vacuous.array field items c hc, reads_only hc⟩
  case scalar =>
    intro field v c hv hc
    refine ⟨vacuous.scalar field v c hv hc, ?_⟩
    rw [Value.comparisons_scalar field hv]
    exact reads_only hc
  case object =>
    intro field entries parts hparts
    refine ⟨vacuous.object field entries parts (hparts.imp fun _ _ h => h.1), ?_⟩
    rw [comparisons_joined, Value.comparisons, Value.comparisonsOfEntries_eq_flatMap]
    exact List.rel_flatMap hparts fun _ _ h => h.2
  case operator =>
    intro key op v c hc
    refine ⟨vacuous.operator key op v c hc, ?_⟩
    rw [Value.entryComparisons_operator]
    exact reads_only hc
  case connective =>
    intro field c items parts hitems hparts
    have hvacuous : List.Forall₂ (fun (v : Value) sel => sel = .everything ↔ v.Vacuous) items
        parts := hparts.imp fun _ _ h => h.1
    have hreads : List.Forall₂ Reads (Value.comparisonsOfItems field items)
        (parts.flatMap comparisons) := by
      rw [Value.comparisonsOfItems_eq_flatMap]
      exact List.rel_flatMap hparts fun _ _ h => h.2
    refine ⟨vacuous.connective field c items parts hitems hvacuous, ?_⟩
    cases c with
    | and => exact comparisons_conjunction parts ▸ hreads
    | or =>
      have habsorbed := exists_mem_iff_of_forall₂ hvacuous
      by_cases h : ∃ item ∈ items, item.Vacuous
      · have hall : disjunction parts = .everything :=
          disjunction_eq_everything.2 (habsorbed.2 h)
        simp [Connective.join, Connective.name, Value.entryComparisons, hall, comparisons, h]
      · have hjoined := comparisons_disjunction fun hpart => h (habsorbed.1 hpart)
        simp [Connective.join, Connective.name, Value.entryComparisons, hjoined, hreads, h]
  case narrowed =>
    intro field name entries sel hname hsel
    refine ⟨vacuous.narrowed field name entries sel hname hsel.1, ?_⟩
    rw [Value.entryComparisons_object field hname]
    exact hsel.2
  case equal =>
    intro field name v c hname hv hc
    refine ⟨vacuous.equal field name v c hname hv hc, ?_⟩
    rw [Value.entryComparisons_equal field hname hv]
    exact reads_only hc

/-- The comparisons of an accepted document are read one by one, in its order. -/
theorem comparisons_of_ofSelector {field : Option Key} {v : Value} {sel : Selection}
    (h : ofSelector field v = .ok sel) :
    List.Forall₂ Reads (v.comparisons field) sel.comparisons :=
  (ofSelector_induction inductive_comparisons field v sel h).2

end Selection

end DocumentQuery
