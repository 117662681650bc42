import DocumentQuery.Entries
import Mathlib.Data.Finset.Card

/-!
# Entries built of pairs

What entries are after pairs have been inserted, told by the list of pairs alone: a name stands
where it came first, with what came last under it. A look-up reads the list from its end.
-/

namespace DocumentQuery.Entries
set_option autoImplicit false

variable {α β : Type}

/-- Entries that were made of pairs, in order: of a list of them at once, or by putting one more
pair to entries that were made of the others. -/
inductive Built : List (String × α) → Entries α → Prop where
  | collected (pairs : List (String × α)) : Built pairs (ofList pairs)
  | inserted {pairs : List (String × α)} {es : Entries α} (h : Built pairs es) (key : String)
      (value : α) : Built (pairs ++ [(key, value)]) (insert key value es)

theorem ofList_concat (pairs : List (String × α)) (key : String) (value : α) :
    ofList (pairs ++ [(key, value)]) = insert key value (ofList pairs) := by
  simp [ofList, insertAll]

/-- However the pairs came in, the entries are those of the whole list. -/
theorem Built.eq_ofList {pairs : List (String × α)} {es : Entries α} (h : Built pairs es) :
    es = ofList pairs := by
  induction h with
  | collected pairs => rfl
  | inserted _ key value ih => rw [ofList_concat, ih]

/-! ## Look-ups in pairs -/

theorem lookup_map_snd (f : α → β) (pairs : List (String × α)) (key : String) :
    (pairs.map fun pair => (pair.1, f pair.2)).lookup key = (pairs.lookup key).map f := by
  induction pairs with
  | nil => rfl
  | cons pair rest ih =>
    rw [List.map_cons, List.lookup_cons, List.lookup_cons, ih]
    split <;> rfl

theorem mem_of_lookup_eq_some {pairs : List (String × α)} {key : String} {a : α}
    (h : pairs.lookup key = some a) : (key, a) ∈ pairs := by
  obtain ⟨before, after, rfl, -⟩ := List.lookup_eq_some_iff.1 h
  simp

/-! ## Names and values -/

/-- A name at the end counts only where it is new. -/
theorem eraseDups_concat (names : List String) (name : String) :
    (names ++ [name]).eraseDups
      = if name ∈ names then names.eraseDups else names.eraseDups ++ [name] := by
  rw [List.eraseDups_append]
  by_cases h : name ∈ names
  · simp [List.removeAll, h]
  · simp [List.removeAll, h, List.eraseDups_cons]

/-- The names stand in the order in which they first came. -/
theorem keys_ofList (pairs : List (String × α)) :
    (ofList pairs).keys = (pairs.map (·.1)).eraseDups := by
  induction pairs using List.reverseRecOn with
  | nil => rfl
  | append_singleton pairs pair ih =>
    rw [ofList_concat, keys_insert, ih, List.map_append, List.map_singleton, eraseDups_concat]
    simp only [List.mem_eraseDups]

/-- Under a name stands what came last. -/
theorem get?_ofList (pairs : List (String × α)) (key : String) :
    get? key (ofList pairs) = pairs.reverse.lookup key := by
  induction pairs using List.reverseRecOn with
  | nil => rfl
  | append_singleton pairs pair ih =>
    rw [ofList_concat, get?_insert, ih, List.reverse_append, List.reverse_singleton,
      List.singleton_append]
    by_cases h : pair.1 = key
    · rw [if_pos h, ← h, List.lookup_cons_self]
    · have hne : (key == pair.1) = false := beq_eq_false_iff_ne.2 (Ne.symm h)
      rw [if_neg h, List.lookup_cons, hne]

/-- Distinct names that are all the same are one name. -/
theorem eq_singleton_of_nodup {names : List String} {name : String} (hnodup : names.Nodup)
    (h : ∀ n, n ∈ names ↔ n = name) : names = [name] := by
  refine List.perm_singleton.1 ((List.perm_ext_iff_of_nodup hnodup (List.nodup_singleton _)).2 ?_)
  exact fun n => (h n).trans List.mem_singleton.symm

theorem single?_eq_some {es : Entries α} {entry : String × α} :
    single? es = some entry ↔ es = [entry] := by
  rcases es with _ | ⟨first, _ | ⟨second, rest⟩⟩
  · simp [single?]
  · simp [single?]
  · simp [single?]

/-- Entries are in the order of pairs when each name stands once, where it came first, and has what
came last. All that entries are asked for is then told by the pairs. -/
structure InOrder (pairs : List (String × α)) (es : Entries α) : Prop where
  distinct : es.keys.Nodup
  order : es.keys = (pairs.map (·.1)).eraseDups
  latest : ∀ entry ∈ es, pairs.reverse.lookup entry.1 = some entry.2
  count : es.length = (pairs.map (·.1)).toFinset.card
  found : ∀ key, get? key es = pairs.reverse.lookup key
  single : ∀ entry, single? es = some entry ↔
    (∀ name, name ∈ pairs.map (·.1) ↔ name = entry.1) ∧
      pairs.reverse.lookup entry.1 = some entry.2

/-- Putting pairs in one by one keeps first places and last values. -/
theorem inOrder_ofList (pairs : List (String × α)) : InOrder pairs (ofList pairs) where
  distinct := nodup_keys_ofList pairs
  order := keys_ofList pairs
  latest entry hentry := by
    rw [← get?_ofList]
    exact get?_eq_some_of_mem (nodup_keys_ofList pairs) hentry
  count := by
    have hnames : (ofList pairs).keys.toFinset = (pairs.map (·.1)).toFinset := by
      ext name
      rw [List.mem_toFinset, List.mem_toFinset, keys_ofList, List.mem_eraseDups]
    rw [← hnames, List.toFinset_card_of_nodup (nodup_keys_ofList pairs), keys, List.length_map]
  found := get?_ofList pairs
  single entry := by
    have hmem : ∀ name, name ∈ pairs.map (·.1) ↔ name ∈ (ofList pairs).keys := fun name => by
      rw [keys_ofList, List.mem_eraseDups]
    simp only [single?_eq_some, hmem, ← get?_ofList]
    constructor
    · intro h
      rw [h]
      simp [keys, get?]
    · rintro ⟨hnames, hvalue⟩
      have hkeys := eq_singleton_of_nodup (nodup_keys_ofList pairs) hnames
      obtain ⟨only, honly, hname⟩ := List.map_eq_singleton_iff.1 hkeys
      rw [honly, get?, if_pos hname] at hvalue
      rw [honly, Prod.ext hname (Option.some.inj hvalue)]

/-! ## Two lists of entries -/

/-- Entries that agree one by one in their names and are related in their values. -/
abbrev Agreeing (r : α → β → Prop) : Entries α → Entries β → Prop :=
  List.Forall₂ fun entry other => entry.1 = other.1 ∧ r entry.2 other.2

variable {r : α → β → Prop} {es : Entries α} {others : Entries β}

/-- Where names are distinct, entries agree when the names stand in the same order and each name is
found with related values. -/
theorem agreeing_iff (h : es.keys.Nodup) :
    Agreeing r es others ↔
      es.keys = others.keys ∧ ∀ key, Option.Rel r (get? key es) (get? key others) := by
  constructor
  · intro hagree
    induction hagree with
    | nil => exact ⟨rfl, fun key => .none⟩
    | @cons entry other rest rest' hfirst hrest ih =>
      obtain ⟨hname, hvalue⟩ := hfirst
      obtain ⟨hkeys, hfound⟩ := ih (List.nodup_cons.1 h).2
      refine ⟨congrArg₂ List.cons hname hkeys, fun key => ?_⟩
      rw [get?, get?, ← hname]
      split
      · exact .some hvalue
      · exact hfound key
  · rintro ⟨hkeys, hfound⟩
    induction es generalizing others with
    | nil =>
      cases others with
      | nil => exact .nil
      | cons other rest' => cases hkeys
    | cons entry rest ih =>
      cases others with
      | nil => cases hkeys
      | cons other rest' =>
        obtain ⟨hname, hkeys⟩ : entry.1 = other.1 ∧ keys rest = keys rest' := List.cons.inj hkeys
        obtain ⟨hfresh, hrest⟩ : entry.1 ∉ keys rest ∧ (keys rest).Nodup := List.nodup_cons.1 h
        refine .cons ⟨hname, ?_⟩ (ih hrest hkeys fun key => ?_)
        · have hfirst := hfound entry.1
          rw [get?, get?, if_pos rfl, if_pos hname.symm] at hfirst
          cases hfirst with
          | some hvalue => exact hvalue
        · by_cases heq : entry.1 = key
          · -- The first name does not come again on either side.
            rw [heq] at hfresh
            rw [get?_eq_none_iff.2 hfresh, get?_eq_none_iff.2 (hkeys ▸ hfresh)]
            exact .none
          · have hother := hfound key
            rwa [get?, get?, if_neg heq, if_neg (hname ▸ heq)] at hother

/-- Entries that were made of two lists of pairs agree when the names first came in the same order
and what came last under them is related. -/
theorem agreeing_ofList {pairs : List (String × α)} {pairs' : List (String × β)} :
    Agreeing r (ofList pairs) (ofList pairs') ↔
      (pairs.map (·.1)).eraseDups = (pairs'.map (·.1)).eraseDups ∧
        ∀ key, Option.Rel r (pairs.reverse.lookup key) (pairs'.reverse.lookup key) := by
  rw [agreeing_iff (nodup_keys_ofList pairs), keys_ofList, keys_ofList]
  simp only [get?_ofList]

end DocumentQuery.Entries
