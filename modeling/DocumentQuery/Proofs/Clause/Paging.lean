import DocumentQuery.Proofs.Binary64.Rational
import DocumentQuery.Proofs.Draft.Rows

/-!
# Row counts

Which numbers are taken for limits and offsets, told by the rational numbers that values denote, and
what is printed of them. Every natural number below `2 ^ 63` is taken and printed as itself. The
next one is the exception: `2 ^ 63` is out of range and yet taken, for the number before it. The
main statement says that there is no other.
-/

namespace DocumentQuery
set_option autoImplicit false

open Sql.Clauses (pageTokens)

/-! ## Numbers of values -/

namespace Value

/-- The rational number that a value denotes, when it is a number. -/
def rational? : Value → Option ℚ
  | .int n => some n.toInt
  | .float x => x.toRat?
  | _ => none

/-- The value asks for so many rows: null for none in particular, an integer from `least` on for as
many. -/
def Asks (least : Nat) (v : Value) : Option Nat → Prop
  | none => v = .null
  | some n => v.rational? = some (n : ℚ) ∧ least ≤ n ∧ n < 2 ^ 63

/-- The integer of a value is the number that it denotes. The magnitude `2 ^ 63` is let through on
both sides of zero, and above it is past the range of the integers. -/
theorem integer?_eq_some {v : Value} {n : Int} :
    v.integer? = some n ↔
      ∃ m : Int, v.rational? = some (m : ℚ) ∧ m.natAbs ≤ 2 ^ 63 ∧ n = min m (2 ^ 63 - 1) := by
  cases v with
  | int i =>
    have hlt := Int64.toInt_lt i
    have hge := Int64.le_toInt i
    simp only [integer?, rational?, Option.some_inj]
    constructor
    · rintro rfl
      exact ⟨i.toInt, rfl, by omega, by omega⟩
    · rintro ⟨m, hm, -, rfl⟩
      have heq : i.toInt = m := by exact_mod_cast hm
      omega
  | float x =>
    have hmax : Int64.maxValue.toInt = 2 ^ 63 - 1 := by decide
    simp only [integer?, rational?, Option.bind_eq_some_iff, Binary64.toInt?_eq_some, hmax,
      Nat.pow_eq, Option.ite_none_right_eq_some, Option.some_inj]
    exact exists_congr fun m => and_congr_right fun _ => and_congr_right fun _ => eq_comm
  | _ => simp [integer?, rational?]

/-- A count of rows is read from the numbers in range and from the one just past it, which is taken
for the last in range. -/
theorem rowCount?_eq_some {least n : Nat} (hleast : least < 2 ^ 63) {v : Value} :
    v.rowCount? least = some n ↔
      v.Asks least (some n) ∨ v.rational? = some (2 ^ 63) ∧ n = 2 ^ 63 - 1 := by
  rw [rowCount?, Option.bind_eq_some_iff]
  simp only [integer?_eq_some, Option.ite_none_right_eq_some, Option.some_inj, Asks]
  constructor
  · rintro ⟨_, ⟨m, hm, hrange, rfl⟩, hle, rfl⟩
    by_cases hpast : m = 2 ^ 63
    · subst hpast
      exact .inr ⟨by exact_mod_cast hm, by omega⟩
    · obtain ⟨k, rfl⟩ := Int.eq_ofNat_of_zero_le (by omega : 0 ≤ m)
      have hk : (min (k : Int) (2 ^ 63 - 1)).toNat = k := by omega
      rw [hk]
      exact .inl ⟨by exact_mod_cast hm, by omega, by omega⟩
  · rintro (⟨hn, hle, hlt⟩ | ⟨hn, rfl⟩)
    · exact ⟨n, ⟨n, by exact_mod_cast hn, by omega, by omega⟩, by omega, by omega⟩
    · exact ⟨2 ^ 63 - 1, ⟨2 ^ 63, by exact_mod_cast hn, by decide, by decide⟩, by omega, by decide⟩

/-- The rows that are read of a value; none where it is refused. -/
def asked? (least : Nat) (v : Value) : Option (Option Nat) :=
  if v.isNull then some none else (v.rowCount? least).map some

section Asked

variable {least : Nat} {v : Value}

/-- A document asks for rows as it says, or by the one number just past the range. -/
theorem asked?_eq_some (hleast : least < 2 ^ 63) {rows : Option Nat} :
    v.asked? least = some rows ↔
      v.Asks least rows ∨ v.rational? = some (2 ^ 63) ∧ rows = some (2 ^ 63 - 1) := by
  have hcount : ∀ n, v.rowCount? least = some n ↔
      v.Asks least (some n) ∨ v.rational? = some (2 ^ 63) ∧ n = 2 ^ 63 - 1 :=
    fun n => rowCount?_eq_some hleast
  cases v with
  | null => cases rows <;> simp [asked?, isNull, Asks, rational?]
  | _ =>
    cases rows with
    | none => simp [asked?, isNull, Asks]
    | some n => simp [asked?, isNull, hcount]

/-- Every other document is refused. -/
theorem asked?_eq_none (hleast : least < 2 ^ 63) :
    v.asked? least = none ↔ (∀ rows, ¬ v.Asks least rows) ∧ v.rational? ≠ some (2 ^ 63) := by
  simp only [Option.eq_none_iff_forall_ne_some, ne_eq, asked?_eq_some hleast, not_or, not_and,
    forall_and]
  exact and_congr_right fun _ => ⟨fun h hpast => h _ hpast rfl, fun h _ hpast => absurd hpast h⟩

/-- What is read of a value is what it asks for, unless it is the first number out of range. -/
theorem asked?_exact_iff (hleast : least < 2 ^ 63) :
    (∀ rows, v.asked? least = some rows ↔ v.Asks least rows) ↔ v.rational? ≠ some (2 ^ 63) := by
  constructor
  · intro hexact hpast
    have hread : v.asked? least = some (some (2 ^ 63 - 1)) :=
      (asked?_eq_some hleast).2 (.inr ⟨hpast, rfl⟩)
    obtain ⟨hdenoted, -⟩ := (hexact _).1 hread
    rw [hpast] at hdenoted
    norm_num at hdenoted
  · intro hrange rows
    rw [asked?_eq_some hleast]
    exact or_iff_left fun h => hrange h.1

end Asked

end Value

/-! ## Limits and offsets -/

namespace Limit

/-- A limit asks for one row at least. -/
theorem ofValue_eq_elim (v : Value) :
    ofValue v = (v.asked? 1).elim (.error (.limit v.described)) fun rows => .ok ⟨rows⟩ := by
  rw [ofValue, Value.asked?]
  cases v.isNull <;> cases v.rowCount? 1 <;> rfl

theorem ofValue_eq_ok {v : Value} {rows : Option Nat} :
    ofValue v = .ok ⟨rows⟩ ↔ v.asked? 1 = some rows := by
  rw [ofValue_eq_elim]
  cases v.asked? 1 <;> simp

theorem ofValue_eq_error {v : Value} {e : DocumentError} :
    ofValue v = .error e ↔ v.asked? 1 = none ∧ e = .limit v.described := by
  rw [ofValue_eq_elim]
  cases v.asked? 1 <;> simp [eq_comm]

end Limit

namespace Offset

/-- An offset may ask for no row. -/
theorem ofValue_eq_elim (v : Value) :
    ofValue v = (v.asked? 0).elim (.error (.offset v.described)) fun rows => .ok ⟨rows⟩ := by
  rw [ofValue, Value.asked?]
  cases v.isNull <;> cases v.rowCount? 0 <;> rfl

theorem ofValue_eq_ok {v : Value} {rows : Option Nat} :
    ofValue v = .ok ⟨rows⟩ ↔ v.asked? 0 = some rows := by
  rw [ofValue_eq_elim]
  cases v.asked? 0 <;> simp

theorem ofValue_eq_error {v : Value} {e : DocumentError} :
    ofValue v = .error e ↔ v.asked? 0 = none ∧ e = .offset v.described := by
  rw [ofValue_eq_elim]
  cases v.asked? 0 <;> simp [eq_comm]

end Offset

/-! ## Pages -/

/-- A limit and an offset are read exactly from what asks for rows, with one exception: the first
number out of range. Everything else is refused with a description of it, and the page that is
printed has the numbers that are asked for. -/
theorem page_asked (d : Dialect) (v w : Value) :
    ((∀ rows, Limit.ofValue v = .ok ⟨rows⟩ ↔ v.Asks 1 rows) ↔ v.rational? ≠ some (2 ^ 63)) ∧
      ((∀ rows, Offset.ofValue w = .ok ⟨rows⟩ ↔ w.Asks 0 rows) ↔ w.rational? ≠ some (2 ^ 63)) ∧
      (∀ e, Limit.ofValue v = .error e ↔
        ((∀ rows, ¬ v.Asks 1 rows) ∧ v.rational? ≠ some (2 ^ 63)) ∧ e = .limit v.described) ∧
      (∀ e, Offset.ofValue w = .error e ↔
        ((∀ rows, ¬ w.Asks 0 rows) ∧ w.rational? ≠ some (2 ^ 63)) ∧ e = .offset w.described) ∧
      ∀ taken passed, v.Asks 1 taken → w.Asks 0 passed →
        ∃ limit offset, Limit.ofValue v = .ok limit ∧ Offset.ofValue w = .ok offset ∧
          (Draft.paging d limit offset).tokens d
            = pageTokens (d.limitRows ⟨taken⟩ ⟨passed⟩) passed := by
  have hone : 1 < 2 ^ 63 := by decide
  have hzero : 0 < 2 ^ 63 := by decide
  refine ⟨?limit, ?offset, ?limitRefused, ?offsetRefused, ?page⟩
  case limit =>
    simp only [Limit.ofValue_eq_ok]
    exact Value.asked?_exact_iff hone
  case offset =>
    simp only [Offset.ofValue_eq_ok]
    exact Value.asked?_exact_iff hzero
  case limitRefused =>
    intro e
    rw [Limit.ofValue_eq_error, Value.asked?_eq_none hone]
  case offsetRefused =>
    intro e
    rw [Offset.ofValue_eq_error, Value.asked?_eq_none hzero]
  case page =>
    intro taken passed htaken hpassed
    have hlimit : Limit.ofValue v = .ok ⟨taken⟩ :=
      Limit.ofValue_eq_ok.2 ((Value.asked?_eq_some hone).2 (.inl htaken))
    have hoffset : Offset.ofValue w = .ok ⟨passed⟩ :=
      Offset.ofValue_eq_ok.2 ((Value.asked?_eq_some hzero).2 (.inl hpassed))
    exact ⟨⟨taken⟩, ⟨passed⟩, hlimit, hoffset, Draft.tokens_paging _ _⟩

/-- The one number that is not taken for itself: it is out of range and yet taken. -/
theorem past_range_taken :
    (Value.float ⟨0x43E0000000000000⟩).rational? = some (2 ^ 63) ∧
      Limit.ofValue (.float ⟨0x43E0000000000000⟩) = .ok ⟨some (2 ^ 63 - 1)⟩ ∧
      Offset.ofValue (.float ⟨0x43E0000000000000⟩) = .ok ⟨some (2 ^ 63 - 1)⟩ := by
  have hdenoted : (⟨0x43E0000000000000⟩ : Binary64).toInt? = some (2 ^ 63) := by decide
  refine ⟨?_, by decide, by decide⟩
  exact_mod_cast Binary64.toInt?_eq_some.1 hdenoted

end DocumentQuery
