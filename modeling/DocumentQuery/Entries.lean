/-!
# Ordered entries

Names with what stands under them, in the order in which the names first came. `insert` replaces
the entry of a known name in place and puts a new name last, so entries built by it have distinct
names.
-/

namespace DocumentQuery
set_option autoImplicit false

/-- Named entries in order. -/
abbrev Entries (α : Type) := List (String × α)

namespace Entries

variable {α : Type}

def keys (entries : Entries α) : List String := entries.map (·.1)

/-- Puts `value` under `key`: in the place of the entry of that key, or behind all others. -/
def insert (key : String) (value : α) : Entries α → Entries α
  | [] => [(key, value)]
  | (k, v) :: rest => if k = key then (k, value) :: rest else (k, v) :: insert key value rest

/-- Inserts pairs one after the other. -/
def insertAll (entries : Entries α) (pairs : List (String × α)) : Entries α :=
  pairs.foldl (fun es pair => es.insert pair.1 pair.2) entries

def ofList (pairs : List (String × α)) : Entries α := insertAll [] pairs

def get? (key : String) : Entries α → Option α
  | [] => none
  | (k, v) :: rest => if k = key then some v else get? key rest

/-- The only entry, when there is exactly one. -/
def single? : Entries α → Option (String × α)
  | [entry] => some entry
  | _ => none

/-- A key that is there keeps its place, and a new one comes last. -/
theorem keys_insert (key : String) (value : α) (es : Entries α) :
    (insert key value es).keys = if key ∈ es.keys then es.keys else es.keys ++ [key] := by
  induction es with
  | nil => simp [insert, keys]
  | cons entry rest ih =>
    obtain ⟨k, v⟩ := entry
    by_cases h : k = key
    · simp [insert, keys, h]
    · have hne : key ≠ k := Ne.symm h
      have step : (insert key value ((k, v) :: rest)).keys = k :: (insert key value rest).keys := by
        simp [insert, keys, h]
      have names : keys ((k, v) :: rest) = k :: keys rest := rfl
      rw [step, ih, names]
      by_cases hk : key ∈ keys rest <;> simp [hk, hne]

/-- Putting a value in changes what is found under its own key only. -/
theorem get?_insert (key k : String) (value : α) (es : Entries α) :
    get? k (insert key value es) = if key = k then some value else get? k es := by
  induction es with
  | nil => simp [insert, get?]
  | cons entry rest ih =>
    obtain ⟨l, v⟩ := entry
    by_cases h : l = key
    · subst h
      by_cases hk : l = k <;> simp [insert, get?, hk]
    · by_cases hk : l = k
      · subst hk
        simp [insert, get?, h, Ne.symm h]
      · simp [insert, get?, h, hk, ih]

/-- What is found is an entry. -/
theorem mem_of_get?_eq_some {key : String} {value : α} {es : Entries α}
    (h : get? key es = some value) : (key, value) ∈ es := by
  induction es with
  | nil => cases h
  | cons entry rest ih =>
    obtain ⟨k, v⟩ := entry
    by_cases hk : k = key
    · subst hk
      simp only [get?, if_pos, Option.some.injEq] at h
      simp [h]
    · rw [get?, if_neg hk] at h
      exact List.mem_cons_of_mem _ (ih h)

/-- Nothing is found exactly under the keys that are not there. -/
theorem get?_eq_none_iff {key : String} {es : Entries α} : get? key es = none ↔ key ∉ es.keys := by
  induction es with
  | nil => simp [get?, keys]
  | cons entry rest ih =>
    obtain ⟨k, v⟩ := entry
    by_cases hk : k = key
    · simp [get?, keys, hk]
    · have hne : key ≠ k := Ne.symm hk
      have names : keys ((k, v) :: rest) = k :: keys rest := rfl
      rw [get?, if_neg hk, ih, names, List.mem_cons, or_iff_right hne]

/-- Where names are distinct, each is found with its own value. -/
theorem get?_eq_some_of_mem {key : String} {value : α} {es : Entries α} (hes : es.keys.Nodup)
    (h : (key, value) ∈ es) : get? key es = some value := by
  induction es with
  | nil => cases h
  | cons entry rest ih =>
    obtain ⟨k, v⟩ := entry
    obtain ⟨hk, hrest⟩ := List.nodup_cons.1 hes
    rcases List.mem_cons.1 h with heq | hmem
    · cases heq
      exact if_pos rfl
    · have hne : k ≠ key := by
        rintro rfl
        exact hk (List.mem_map.2 ⟨_, hmem, rfl⟩)
      rw [get?, if_neg hne]
      exact ih hrest hmem

/-- No key is there twice after a value is put in. -/
theorem nodup_keys_insert (key : String) (value : α) {es : Entries α} (h : es.keys.Nodup) :
    (insert key value es).keys.Nodup := by
  rw [keys_insert]
  split
  · exact h
  · next hk =>
    refine List.nodup_append.2 ⟨h, by simp, ?_⟩
    intro a ha b hb e
    have hb' : b = key := by simpa using hb
    exact hk (hb' ▸ e ▸ ha)

/-- No key is there twice after any number of values are put in. -/
theorem nodup_keys_insertAll (pairs : List (String × α)) {es : Entries α} (h : es.keys.Nodup) :
    (insertAll es pairs).keys.Nodup := by
  induction pairs generalizing es with
  | nil => exact h
  | cons pair rest ih => exact ih (nodup_keys_insert pair.1 pair.2 h)

theorem nodup_keys_ofList (pairs : List (String × α)) : (ofList pairs).keys.Nodup :=
  nodup_keys_insertAll pairs (by simp [keys])

end Entries

end DocumentQuery
