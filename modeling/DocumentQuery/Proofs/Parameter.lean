import DocumentQuery.Proofs.Selection.Shape
import DocumentQuery.Proofs.Sql.Spelling
import DocumentQuery.Proofs.Text.Quoted

/-!
# Texts of parameters

The text of a parameter stands either bare, made of letters, digits and a few other signs, or
between quotes. In a list each of them shows where it ends: a bare text at the comma or bracket
behind it, a quoted one at its closing quote. For nulls, truth values, integers and texts it also
shows the parameter; numbers with a fraction, instants and bytes may share their text with others.
-/

namespace DocumentQuery
set_option autoImplicit false

namespace Text

/-! ## Bare texts -/

/-- The characters of bare texts. -/
def isBareChar (c : Char) : Bool := c.isAlphanum || "-+.:".toList.contains c

def Bare (s : String) : Prop := s.toList.all isBareChar = true

instance (s : String) : Decidable (Bare s) := inferInstanceAs (Decidable (_ = true))

theorem bare_iff {s : String} : Bare s ↔ ∀ c ∈ s.toList, isBareChar c = true := List.all_eq_true

@[simp] theorem bare_append {s t : String} : Bare (s ++ t) ↔ Bare s ∧ Bare t := by
  rw [Bare, String.toList_append, List.all_append, Bool.and_eq_true]
  exact Iff.rfl

theorem bare_ofList {cs : List Char} (h : ∀ c ∈ cs, isBareChar c = true) :
    Bare (String.ofList cs) := by
  rwa [bare_iff, String.toList_ofList]

@[simp] theorem bare_toString (n : Nat) : Bare (toString n) := by
  refine bare_iff.2 fun c hc => ?_
  rw [isBareChar, Char.isAlphanum, Sql.isDigit_toString n c hc, Bool.or_true, Bool.true_or]

theorem toString_ne_empty (n : Nat) : toString n ≠ "" :=
  fun h => Sql.toList_toString_ne_nil n (String.toList_eq_nil_iff.2 h)

/-- An integer is its digits, with a minus sign in front if it is negative. -/
theorem toString_int (n : Int) :
    toString n = if 0 ≤ n then toString n.toNat else "-" ++ toString (-n).toNat := by
  rw [Int.toString_eq_repr]
  exact Int.repr_eq_if

/-- An integer has digits and at most a minus sign. -/
theorem mem_toString_int {n : Int} {c : Char} (h : c ∈ (toString n).toList) :
    c.isDigit = true ∨ c = '-' := by
  rw [toString_int] at h
  split at h
  · exact .inl (Sql.isDigit_toString _ c h)
  · rcases List.mem_append.1 (String.toList_append ▸ h) with hsign | hdigit
    · exact .inr (List.mem_singleton.1 hsign)
    · exact .inl (Sql.isDigit_toString _ c hdigit)

theorem bare_toString_int (n : Int) : Bare (toString n) := by
  rw [toString_int]
  split
  · exact bare_toString _
  · exact bare_append.2 ⟨by decide, bare_toString _⟩

theorem toString_int_ne_empty (n : Int) : toString n ≠ "" := by
  rw [toString_int]
  split
  · exact toString_ne_empty _
  · simp

/-- A number is what its digits are read as. -/
theorem toString_nat_injective {m n : Nat} (h : toString m = toString n) : m = n := by
  have hread : ∀ k : Nat, Sql.lexFrom .mysql .blank (toString k).toList = [.number k] := by
    intro k
    have hlex := Sql.lexFrom_nat (d := .mysql) k Sql.endsWord_nil
    rwa [List.append_nil] at hlex
  have hnumbers : [Sql.Token.number m] = [.number n] := by rw [← hread, ← hread, h]
  exact Sql.Token.number.inj (List.cons.inj hnumbers).1

/-- A minus sign is no digit, so a text shows the integer with its sign. -/
theorem toString_int_injective {m n : Int} (h : toString m = toString n) : m = n := by
  have hsign : ∀ a b : Nat, toString a ≠ "-" ++ toString b := by
    intro a b heq
    have hdigit := Sql.isDigit_toString a '-' (by rw [heq]; simp)
    exact absurd hdigit (by decide)
  rw [toString_int, toString_int] at h
  split at h
  · split at h
    · have hnat := toString_nat_injective h
      omega
    · exact absurd h (hsign _ _)
  · split at h
    · exact absurd h.symm (hsign _ _)
    · have hnat := toString_nat_injective (String.append_right_inj _ |>.1 h)
      omega

theorem bare_replicate_zero (n : Nat) : Bare (String.ofList (List.replicate n '0')) :=
  bare_ofList fun c hc => by
    rw [List.eq_of_mem_replicate hc]
    decide

/-- The characters of bare texts stand for themselves between quotes. -/
theorem Bare.plain {s : String} (h : Bare s) : ∀ c ∈ s.toList, Plain c := by
  intro c hc
  have hbare := bare_iff.1 h c hc
  constructor
  · rintro rfl
    exact absurd hbare (by decide)
  · rintro rfl
    exact absurd hbare (by decide)

end Text

open Text

theorem Decimal.bare_positional {whole : String} (hwhole : Bare whole) (d : Decimal) :
    Bare (d.positional whole) := by
  have hdigits : Bare d.digitText := bare_toString d.digits
  unfold Decimal.positional
  split
  · simp only [bare_append]
    exact ⟨⟨hdigits, bare_replicate_zero _⟩, hwhole⟩
  split
  · simp only [bare_append]
    exact ⟨⟨bare_ofList fun c hc => bare_iff.1 hdigits c (List.mem_of_mem_take hc), by decide⟩,
      bare_ofList fun c hc => bare_iff.1 hdigits c (List.mem_of_mem_drop hc)⟩
  · simp only [bare_append]
    exact ⟨⟨by decide, bare_replicate_zero _⟩, hdigits⟩

theorem Decimal.positional_ne_empty (whole : String) (d : Decimal) : d.positional whole ≠ "" := by
  have hdigits : d.digitText ≠ "" := toString_ne_empty d.digits
  unfold Decimal.positional
  split
  · simp [hdigits]
  split
  · simp
  · simp

/-- A float is bare also where it is infinite or no number. -/
theorem Binary64.bare_toText (x : Binary64) : Bare x.toText := by
  have hsign : Bare x.signText := by
    unfold Binary64.signText
    split <;> decide
  unfold Binary64.toText
  split
  · decide
  split
  · exact bare_append.2 ⟨hsign, by decide⟩
  split
  · exact bare_append.2 ⟨hsign, by decide⟩
  · exact bare_append.2 ⟨hsign, Decimal.bare_positional (by decide) _⟩

theorem Binary64.toText_ne_empty (x : Binary64) : x.toText ≠ "" := by
  unfold Binary64.toText
  split
  · decide
  split
  · simp
  split
  · simp
  · simp [Decimal.positional_ne_empty]

namespace Instant

theorem bare_padded (width n : Nat) : Bare (padded width n) :=
  bare_append.2 ⟨bare_replicate_zero _, bare_toString n⟩

/-- An instant is digits with hyphens, colons and the letter between day and time. -/
theorem bare_toText (t : Instant) : Bare t.toText := by
  have hyear : ∀ y, Bare (yearText y) := by
    intro y
    unfold yearText
    split
    · exact bare_padded 4 _
    · refine bare_append.2 ⟨?_, bare_padded 4 _⟩
      split <;> decide
  have hfraction : ∀ n, Bare (fractionText n) := by
    intro n
    unfold fractionText
    split
    · decide
    split
    · exact bare_append.2 ⟨by decide, bare_padded 3 _⟩
    split
    · exact bare_append.2 ⟨by decide, bare_padded 6 _⟩
    · exact bare_append.2 ⟨by decide, bare_padded 9 _⟩
  have hsigns : Bare "-" ∧ Bare "T" ∧ Bare ":" ∧ Bare "+00:00" := by decide
  simp [toText, hyear, hfraction, bare_padded, hsigns]

end Instant

/-! ## Where the text of a parameter ends -/

namespace Text

/-- A text that shows where it ends: bare characters up to one that is not, or a quoted text. -/
inductive Atomic : List Char → Prop where
  | bare {s : List Char} (hne : s ≠ []) (h : ∀ c ∈ s, isBareChar c = true) : Atomic s
  | quoted {s : List Char} (h : Escaped s) : Atomic ('\x22' :: (s ++ ['\x22']))

/-- A bare text ends where the first other character stands. -/
theorem atomic_of_bare {s : String} (hne : s ≠ "") (h : Bare s) : Atomic s.toList :=
  .bare (mt String.toList_eq_nil_iff.1 hne) (bare_iff.1 h)

/-- A bare text in quotes ends at the second quote. -/
theorem atomic_of_enclosed {s : String} (h : Bare s) : Atomic ("\"" ++ s ++ "\"").toList := by
  have hlist : ("\"" ++ s ++ "\"").toList = '\x22' :: (s.toList ++ ['\x22']) := by simp
  rw [hlist]
  exact .quoted (escaped_of_plain h.plain)

/-- A quoted text ends at the first quote that is not escaped. -/
theorem atomic_quoted (s : String) : Atomic (quoted s).toList := by
  rw [toList_quoted]
  exact .quoted (escaped_flatMap_quotedChar s.toList)

/-- What may stand behind a member of a list: nothing, a comma or a closing bracket. -/
def Closed (r : List Char) : Prop := ∀ c ∈ r.head?, c = ',' ∨ c = ']'

/-- No bare character stands behind a member of a list. -/
theorem Closed.not_bare {r : List Char} (h : Closed r) : ∀ c ∈ r.head?, ¬ isBareChar c = true := by
  intro c hc
  rcases h c hc with rfl | rfl
  · decide
  · decide

/-- Neither is a bare text the beginning of another member, nor a quoted one. -/
theorem Atomic.unique {s t r u : List Char} (hs : Atomic s) (ht : Atomic t) (hr : Closed r)
    (hu : Closed u) (h : s ++ r = t ++ u) : s = t ∧ r = u := by
  have hapart : ∀ {v w x y : List Char}, v ≠ [] → (∀ c ∈ v, isBareChar c = true) →
      v ++ x = '\x22' :: w ++ y → False := by
    intro v w x y hne hv heq
    obtain ⟨c, rest, rfl⟩ := List.exists_cons_of_ne_nil hne
    have hbare := hv c (by simp)
    rw [List.head_eq_of_cons_eq heq] at hbare
    exact absurd hbare (by decide)
  cases hs with
  | bare hne hs =>
    cases ht with
    | bare _ ht => exact split_unique hs ht hr.not_bare hu.not_bare h
    | quoted _ => exact (hapart hne hs h).elim
  | quoted hs =>
    cases ht with
    | bare hne ht => exact (hapart hne ht h.symm).elim
    | quoted ht =>
      simp only [List.cons_append, List.append_assoc, List.nil_append, List.cons_eq_cons,
        true_and] at h
      obtain ⟨rfl, rfl⟩ := hs.unique ht h
      exact ⟨rfl, rfl⟩

end Text

namespace Parameter

theorem bare_hexBytes (bytes : List UInt8) : Bare (hexBytes bytes) := by
  have hdigit : ∀ d < 16, isBareChar (Nat.digitChar d) = true := by decide
  refine bare_ofList fun c hc => ?_
  obtain ⟨b, -, hmem⟩ := List.mem_flatMap.1 hc
  have hsize : b.toNat < 256 := b.toNat_lt
  simp only [hexByte, List.mem_cons, List.not_mem_nil, or_false] at hmem
  rcases hmem with rfl | rfl
  · exact hdigit _ (by omega)
  · exact hdigit _ (by omega)

/-- Every parameter shows where its text ends. -/
theorem atomic_tagged (p : Parameter) : Atomic p.tagged.toList := by
  cases p with
  | null => exact atomic_of_bare (by decide) (by decide)
  | bool b => cases b <;> exact atomic_of_bare (by decide) (by decide)
  | int n => exact atomic_of_bare (toString_int_ne_empty n.toInt) (bare_toString_int n.toInt)
  | float x => exact atomic_of_bare x.toText_ne_empty x.bare_toText
  | text s => exact atomic_quoted s
  | timestamp t => exact atomic_of_enclosed t.bare_toText
  | blob bytes =>
    have hprefix : "\"0x" ++ hexBytes bytes ++ "\"" = "\"" ++ ("0x" ++ hexBytes bytes) ++ "\"" := by
      rw [← String.append_assoc]
      rfl
    rw [tagged, hprefix]
    exact atomic_of_enclosed (bare_append.2 ⟨by decide, bare_hexBytes bytes⟩)

/-! ## Parameters that their texts tell -/

/-- The kinds whose parameters have texts of their own. -/
def isExact : Parameter → Bool
  | .null | .bool _ | .int _ | .text _ => true
  | .float _ | .timestamp _ | .blob _ => false

/-- What the first character of a text tells of the parameter. -/
def kindOf (c : Char) : Kind :=
  if c = 'n' then .null
  else if c = 't' ∨ c = 'f' then .boolean
  else if c = '\x22' then .string
  else .number

/-- The first character of an exact parameter's text tells its kind. -/
theorem kindOf_tagged {p : Parameter} (h : p.isExact = true) :
    ∃ c cs, p.tagged.toList = c :: cs ∧ kindOf c = p.kind := by
  cases p with
  | null => exact ⟨'n', _, rfl, rfl⟩
  | bool b =>
    cases b with
    | false => exact ⟨'f', _, rfl, rfl⟩
    | true => exact ⟨'t', _, rfl, rfl⟩
  | int n =>
    obtain ⟨c, cs, hlist⟩ := List.exists_cons_of_ne_nil
      (mt String.toList_eq_nil_iff.1 (toString_int_ne_empty n.toInt))
    refine ⟨c, cs, hlist, ?_⟩
    have hc : c.isDigit = true ∨ c = '-' := mem_toString_int (by rw [hlist]; simp)
    unfold kindOf
    rw [if_neg, if_neg, if_neg]
    · rfl
    · rintro rfl
      exact absurd hc (by decide)
    · rintro (rfl | rfl)
      · exact absurd hc (by decide)
      · exact absurd hc (by decide)
    · rintro rfl
      exact absurd hc (by decide)
  | text s => exact ⟨'\x22', _, toList_quoted s, rfl⟩
  | float x => cases h
  | timestamp t => cases h
  | blob bytes => cases h

/-- The first character tells the kind of an exact parameter, and the rest of the text tells it
from others of that kind. -/
theorem tagged_injective {p q : Parameter} (hp : p.isExact = true) (hq : q.isExact = true)
    (h : p.tagged = q.tagged) : p = q := by
  obtain ⟨c, cs, hc, hkind⟩ := kindOf_tagged hp
  obtain ⟨e, es, he, hkind'⟩ := kindOf_tagged hq
  rw [h, he] at hc
  obtain ⟨rfl, -⟩ := List.cons_eq_cons.1 hc
  rw [hkind'] at hkind
  cases p with
  | null => cases q <;> first | rfl | cases hkind
  | bool b =>
    cases q with
    | bool b' => cases b <;> cases b' <;> first | rfl | exact absurd h (by decide)
    | _ => cases hkind
  | int m =>
    cases q with
    | int n => exact congrArg int (Int64.toInt_inj.1 (toString_int_injective h))
    | float x => cases hq
    | _ => cases hkind
  | text s =>
    cases q with
    | text t => exact congrArg text (quoted_injective h)
    | _ => cases hkind
  | float x => cases hp
  | timestamp t => cases hp
  | blob bytes => cases hp

end Parameter

end DocumentQuery
