import DocumentQuery.Json
import DocumentQuery.Proofs.Entries

/-!
# Query documents as ordered maps

A document keeps its names in the order in which they first came, each with what came last, and is
told from others by both. So the order that a caller gives is the order of conjunctions and of
inserted columns, whichever way the document was made, from JSON too.
-/

namespace DocumentQuery
set_option autoImplicit false

namespace Value

/-! ## Equality -/

/-- Documents are equal where their entries agree one by one, in names and in equal values. -/
theorem equalEntries_iff {as bs : Document} :
    equalEntries as bs = true ↔ Entries.Agreeing (fun a b => a.equal b = true) as bs := by
  induction as generalizing bs with
  | nil => cases bs <;> simp [equalEntries]
  | cons entry rest ih =>
    cases bs with
    | nil => simp [equalEntries]
    | cons other rest' => simp [equalEntries, ih]

/-- No float in a value, however deep it stands, is a NaN. -/
inductive NaNFree : Value → Prop where
  | null : NaNFree .null
  | bool (b : Bool) : NaNFree (.bool b)
  | int (n : Int64) : NaNFree (.int n)
  | float {x : Binary64} (h : x.isNaN = false) : NaNFree (.float x)
  | text (s : String) : NaNFree (.text s)
  | date (t : Instant) : NaNFree (.date t)
  | binary (bytes : List UInt8) : NaNFree (.binary bytes)
  | array {items : List Value} (each : ∀ item ∈ items, NaNFree item) : NaNFree (.array items)
  | object {entries : List (String × Value)} (each : ∀ entry ∈ entries, NaNFree entry.2) :
      NaNFree (.object entries)

theorem nanFree_float {x : Binary64} : (float x).NaNFree ↔ x.isNaN = false := by
  refine ⟨fun h => ?_, .float⟩
  cases h with
  | float h => exact h

/-- A list is free of NaN where its items are. -/
theorem nanFree_array {items : List Value} :
    (array items).NaNFree ↔ ∀ item ∈ items, item.NaNFree := by
  refine ⟨fun h => ?_, .array⟩
  cases h with
  | array each => exact each

theorem nanFree_object {entries : List (String × Value)} :
    (object entries).NaNFree ↔ ∀ entry ∈ entries, entry.2.NaNFree := by
  refine ⟨fun h => ?_, .object⟩
  cases h with
  | object each => exact each

mutual

/-- A value equals itself unless it holds a NaN, which differs from everything. -/
theorem equal_self_iff : ∀ v : Value, v.equal v = true ↔ v.NaNFree
  | .null => iff_of_true rfl .null
  | .bool b => iff_of_true (by simp [equal]) (.bool b)
  | .int n => iff_of_true (by simp [equal]) (.int n)
  | .float x => by simp [equal, nanFree_float, Binary64.numEq]
  | .text s => iff_of_true (by simp [equal]) (.text s)
  | .date t => iff_of_true (by simp [equal]) (.date t)
  | .binary bytes => iff_of_true (by simp [equal]) (.binary bytes)
  | .array items => by rw [equal, equalItems_self_iff items, nanFree_array]
  | .object entries => by rw [equal, equalEntries_self_iff entries, nanFree_object]

theorem equalItems_self_iff : ∀ items : List Value,
    equalItems items items = true ↔ ∀ item ∈ items, item.NaNFree
  | [] => by simp [equalItems]
  | item :: rest => by
    rw [equalItems, Bool.and_eq_true, equal_self_iff item, equalItems_self_iff rest,
      List.forall_mem_cons]

/-- Entries equal themselves where their values are free of NaN. -/
theorem equalEntries_self_iff : ∀ entries : List (String × Value),
    equalEntries entries entries = true ↔ ∀ entry ∈ entries, entry.2.NaNFree
  | [] => by simp [equalEntries]
  | (name, value) :: rest => by
    rw [equalEntries, beq_self_eq_true, Bool.true_and, Bool.and_eq_true, equal_self_iff value,
      equalEntries_self_iff rest, List.forall_mem_cons]

end

end Value

/-! ## JSON -/

/-- The value that a JSON document denotes, with its nesting kept. An object has the names of the
JSON object in the order in which they first come there, each with the value of what it has last. -/
inductive Json.Denotes : Json → Value → Prop where
  | null : Denotes .null .null
  | bool (b : Bool) : Denotes (.bool b) (.bool b)
  | number (n : Json.Number) : Denotes (.number n) n.value
  | text (s : String) : Denotes (.text s) (.text s)
  | array {items : List Json} {values : List Value} (h : List.Forall₂ Denotes items values) :
      Denotes (.array items) (.array values)
  | object {named : List (String × Json)} {entries : List (String × Value)}
      (order : Entries.keys entries = (named.map (·.1)).eraseDups)
      (values : ∀ key, Option.Rel Denotes (named.reverse.lookup key) (Entries.get? key entries)) :
      Denotes (.object named) (.object entries)

namespace Value

theorem ofJsonEntries_eq_map (named : List (String × Json)) :
    ofJsonEntries named = named.map fun entry => (entry.1, ofJson entry.2) := by
  induction named with
  | nil => rfl
  | cons entry rest ih => rw [ofJsonEntries, ih, List.map_cons]

/-- An object keeps the order of its names when what stands under them is carried over. -/
theorem denotes_object {named : List (String × Json)}
    (h : ∀ entry ∈ named, entry.2.Denotes (ofJson entry.2)) :
    (Json.object named).Denotes (.object (Entries.ofList (ofJsonEntries named))) := by
  rw [ofJsonEntries_eq_map]
  refine .object ?_ fun key => ?_
  · rw [Entries.keys_ofList, List.map_map]
    rfl
  · rw [Entries.get?_ofList, ← List.map_reverse, Entries.lookup_map_snd]
    cases hlast : named.reverse.lookup key with
    | none => exact .none
    | some json =>
      have hmem := List.mem_reverse.1 (Entries.mem_of_lookup_eq_some hlast)
      exact .some (h (key, json) hmem)

mutual

/-- A document is read of JSON without a change of order, at any depth. -/
theorem denotes_ofJson : ∀ json : Json, json.Denotes (ofJson json)
  | .null => .null
  | .bool b => .bool b
  | .number n => .number n
  | .text s => .text s
  | .array items => .array (denotes_ofJsonItems items)
  | .object named => denotes_object (denotes_ofJsonEntries named)

theorem denotes_ofJsonItems : ∀ items : List Json,
    List.Forall₂ Json.Denotes items (ofJsonItems items)
  | [] => .nil
  | item :: rest => .cons (denotes_ofJson item) (denotes_ofJsonItems rest)

/-- The members of a JSON object are read one by one. -/
theorem denotes_ofJsonEntries : ∀ named : List (String × Json),
    ∀ entry ∈ named, entry.2.Denotes (ofJson entry.2)
  | [], _, hentry => absurd hentry List.not_mem_nil
  | (name, value) :: rest, entry, hentry => by
    rcases List.mem_cons.1 hentry with rfl | hentry
    · exact denotes_ofJson value
    · exact denotes_ofJsonEntries rest entry hentry

end

end Value

/-! ## Documents -/

/-- A document that was made of pairs, in whatever portions, holds their names in order, each with
what it was given last, and answers by that. Two documents are equal when their entries are, one by
one, which is when the names first came in the same order and have equal last values; a document
without NaNs equals itself. JSON is carried over in its order at any depth. -/
theorem Document.made_in_order :
    (∀ (pairs : List (String × Value)) (doc : Document), Entries.Built pairs doc →
      Entries.InOrder pairs doc) ∧
    (∀ (pairs pairs' : List (String × Value)) (doc doc' : Document),
      Entries.Built pairs doc → Entries.Built pairs' doc' →
        ((Value.object doc).equal (.object doc') = true ↔
          List.Forall₂ (fun a b => a.1 = b.1 ∧ a.2.equal b.2 = true) doc doc') ∧
        ((Value.object doc).equal (.object doc') = true ↔
          (pairs.map (·.1)).eraseDups = (pairs'.map (·.1)).eraseDups ∧
            ∀ key, Option.Rel (fun v w => v.equal w = true) (pairs.reverse.lookup key)
              (pairs'.reverse.lookup key))) ∧
    (∀ v : Value, v.equal v = true ↔ v.NaNFree) ∧
    ∀ json : Json, json.Denotes (Value.ofJson json) := by
  refine ⟨fun pairs doc h => ?_, fun pairs pairs' doc doc' h h' => ⟨?_, ?_⟩,
    Value.equal_self_iff, Value.denotes_ofJson⟩
  · rw [h.eq_ofList]
    exact Entries.inOrder_ofList pairs
  · rw [Value.equal]
    exact Value.equalEntries_iff
  · rw [Value.equal, Value.equalEntries_iff, h.eq_ofList, h'.eq_ofList]
    exact Entries.agreeing_ofList

/-- Pairs in which a name comes again. -/
def Document.recounted : List (String × Value) := [("a", .int 1), ("b", .int 2), ("a", .int 3)]

/-- What they make, and the same entries the other way round. -/
def Document.counted : Document := [("a", .int 3), ("b", .int 2)]

/-- The name that comes again keeps its first place and has its last value, and the entries differ
from the same ones the other way round. -/
theorem Document.counted_in_order :
    Entries.Built recounted counted ∧ Entries.InOrder recounted counted ∧
      Entries.Built counted.reverse counted.reverse ∧
      (Value.object counted).equal (.object counted.reverse) ≠ true := by
  obtain ⟨horder, hequal, -⟩ := Document.made_in_order
  have hmade : Entries.Built recounted counted :=
    .inserted (.collected (recounted.take 2)) "a" (.int 3)
  have hreversed : Entries.Built counted.reverse counted.reverse := .collected counted.reverse
  refine ⟨hmade, horder _ _ hmade, hreversed, fun h => ?_⟩
  obtain ⟨hnames, -⟩ := (hequal _ _ _ _ hmade hreversed).2.1 h
  exact absurd hnames (by decide)

end DocumentQuery
