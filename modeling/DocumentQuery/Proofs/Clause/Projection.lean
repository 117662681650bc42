import DocumentQuery.Proofs.Clause.Listing

/-!
# Documents of projections

Which documents are projections, what is wrong with the others, and which names a projection
includes. Every entry is judged, also one that excludes a name where others are included.
-/

namespace DocumentQuery
set_option autoImplicit false

namespace Projection

/-- A flag is one of three numbers. -/
def IsFlag (v : Value) : Prop :=
  v.rational? = some 1 ∨ v.rational? = some 0 ∨ v.rational? = some (-1)

/-- Whether a document is a projection: it is none at all, or flags names that may be listed. -/
def Accepts : Value → Prop
  | .null => True
  | .object entries => ∀ entry ∈ entries, Key.Listable entry.1 ∧ IsFlag entry.2
  | _ => False

/-- What is wrong with an entry. Its name is judged before its flag. -/
inductive EntryFault : String × Value → DocumentError → Prop where
  | name {name : String} {flag : Value} (h : ¬ Key.Listable name) :
      EntryFault (name, flag) (.columnName name)
  | flag {name : String} {flag : Value} (listable : Key.Listable name) (h : ¬ IsFlag flag) :
      EntryFault (name, flag) (.projection name flag.described)

/-- What is wrong with a document: the first entry that something is wrong with, or its kind. -/
inductive Refuses : Value → DocumentError → Prop where
  | entry {before after : List (String × Value)} {entry : String × Value} {e : DocumentError}
      (accepted : ∀ b ∈ before, Key.Listable b.1 ∧ IsFlag b.2) (fault : EntryFault entry e) :
      Refuses (.object (before ++ entry :: after)) e
  | kind {v : Value} (null : v.kind ≠ .null) (object : v.kind ≠ .object) :
      Refuses v (.argument "object or null" v.kind)

/-- The names that entries include. -/
def includedNames (entries : List (String × Value)) : List String :=
  (entries.filter fun entry => entry.2.rational? = some 1).map (·.1)

/-! ## Entries -/

/-- An entry is judged by its name first, then by its flag. -/
theorem flagOfEntry_eq (name : String) (flag : Value) :
    flagOfEntry (name, flag) =
      if Key.Listable name then
        if flag.rational? = some 1 then .ok (Key.ofName name, true)
        else if flag.rational? = some 0 ∨ flag.rational? = some (-1) then
          .ok (Key.ofName name, false)
        else .error (.projection name flag.described)
      else .error (.columnName name) := by
  have hone : flag.integer? = some 1 ↔ flag.rational? = some 1 := by
    exact_mod_cast flag.integer?_eq_iff_rational? (n := 1) (by decide) (by decide)
  have hzero : flag.integer? = some 0 ↔ flag.rational? = some 0 := by
    exact_mod_cast flag.integer?_eq_iff_rational? (n := 0) (by decide) (by decide)
  have hminus : flag.integer? = some (-1) ↔ flag.rational? = some (-1) := by
    exact_mod_cast flag.integer?_eq_iff_rational? (n := -1) (by decide) (by decide)
  rw [flagOfEntry, if_congr Key.isClauseName_iff rfl rfl, ← if_congr hone rfl rfl,
    ← if_congr (or_congr hzero hminus) rfl rfl]
  split
  · split
    · next h => rw [if_pos h]
    · next h => rw [if_neg (by simp [h]), if_pos (.inl h)]
    · next h => rw [if_neg (by simp [h]), if_pos (.inr h)]
    · next hone hzero hminus => rw [if_neg hone, if_neg (not_or_intro hzero hminus)]
  · rfl

/-- The key and the flag that are read off an entry. -/
def flagged (entry : String × Value) : Key × Bool :=
  (Key.ofName entry.1, entry.2.rational? = some 1)

/-- An entry is accepted exactly where its name is listable and its value a flag. -/
theorem flagOfEntry_eq_ok {entry : String × Value} {flag : Key × Bool} :
    flagOfEntry entry = .ok flag
      ↔ (Key.Listable entry.1 ∧ IsFlag entry.2) ∧ flag = flagged entry := by
  obtain ⟨name, v⟩ := entry
  rw [flagOfEntry_eq, IsFlag, flagged]
  by_cases hname : Key.Listable name
  · by_cases hone : v.rational? = some 1
    · simp [hname, hone, eq_comm]
    · by_cases hother : v.rational? = some 0 ∨ v.rational? = some (-1)
      · rw [if_pos hname, if_neg hone, if_pos hother]
        simp [hname, hone, hother, @eq_comm _ flag]
      · simp [hname, hone, hother]
  · simp [hname]

theorem flagOfEntry_eq_error {entry : String × Value} {e : DocumentError} :
    flagOfEntry entry = .error e ↔ EntryFault entry e := by
  obtain ⟨name, v⟩ := entry
  constructor
  · intro h
    rw [flagOfEntry_eq] at h
    split at h
    · next hname =>
      split at h
      · cases h
      · next hone =>
        split at h
        · cases h
        · next hother =>
          cases h
          exact .flag hname (not_or_intro hone hother)
    · next hname =>
      cases h
      exact .name hname
  · rintro (hname | ⟨hname, hflag⟩)
    · rw [flagOfEntry_eq, if_neg hname]
    · obtain ⟨hone, hother⟩ := not_or.1 hflag
      rw [flagOfEntry_eq, if_pos hname, if_neg hone, if_neg hother]

/-! ## Documents -/

/-- The projection of entries that are accepted. -/
def ofEntries (entries : List (String × Value)) : Projection := ofFlags (entries.map flagged)

/-- A document is accepted exactly where each entry is. -/
theorem ofValue_object_eq_ok {entries : List (String × Value)} {projection : Projection} :
    ofValue (.object entries) = .ok projection
      ↔ Accepts (.object entries) ∧ projection = ofEntries entries := by
  rw [ofValue, map_eq_ok]
  simp only [mapM_eq_ok, flagOfEntry_eq_ok, List.forall₂_and_left]
  constructor
  · rintro ⟨flags, ⟨haccepts, hflags⟩, rfl⟩
    refine ⟨haccepts, ?_⟩
    have heq : flags.map id = entries.map flagged := map_eq_of_forall₂ hflags
    rw [List.map_id] at heq
    rw [ofEntries, heq]
  · rintro ⟨haccepts, rfl⟩
    exact ⟨_, ⟨haccepts, List.forall₂_map_right_iff.2 (List.forall₂_same.2 fun _ _ => rfl)⟩, rfl⟩

/-- A document is taken just where it is a projection. -/
theorem exists_ofValue {v : Value} : (∃ projection, ofValue v = .ok projection) ↔ Accepts v := by
  cases v with
  | null => exact iff_of_true ⟨_, rfl⟩ trivial
  | object entries => simp [ofValue_object_eq_ok]
  | _ => exact iff_of_false (by simp [ofValue]) not_false

/-- A projection is refused exactly with what is wrong with its document. -/
theorem ofValue_eq_error {v : Value} {e : DocumentError} : ofValue v = .error e ↔ Refuses v e := by
  cases v with
  | object entries =>
    rw [ofValue, map_eq_error, mapM_eq_error]
    simp only [flagOfEntry_eq_error, flagOfEntry_eq_ok, exists_and_left, exists_eq, and_true]
    constructor
    · rintro ⟨before, entry, after, rfl, haccepts, hfault⟩
      exact .entry haccepts hfault
    · rintro (⟨haccepts, hfault⟩ | ⟨-, hobject⟩)
      · exact ⟨_, _, _, rfl, haccepts, hfault⟩
      · exact absurd rfl hobject
  | null => exact iff_of_false (by simp [ofValue]) (by rintro (_ | ⟨hnull, -⟩); exact hnull rfl)
  | _ =>
    constructor
    · rintro ⟨⟩
      exact .kind (by simp [Value.kind]) (by simp [Value.kind])
    · rintro (_ | _)
      rfl

/-- One included name makes a projection list what it includes, and otherwise it lists what is left.
-/
theorem ofEntries_eq (entries : List (String × Value)) :
    ofEntries entries =
      if includedNames entries ≠ [] then .including ((includedNames entries).map Key.ofName)
      else if entries ≠ [] then .excluding ((entries.map (·.1)).map Key.ofName)
      else .everything := by
  have hincluded : ((entries.map flagged).filter (·.2)).map (·.1)
      = (includedNames entries).map Key.ofName := by
    simp [includedNames, flagged, List.filter_map, Function.comp_def]
  have hkeys : (entries.map flagged).map (·.1) = (entries.map (·.1)).map Key.ofName := by
    simp [flagged]
  rw [ofEntries, ofFlags, hincluded, hkeys]
  cases includedNames entries with
  | cons name rest => rfl
  | nil => cases entries <;> rfl

end Projection

end DocumentQuery
