import DocumentQuery.Text.Quoted
import Mathlib.Data.List.Basic

/-!
# Reading quoted text back

A quoted text shows where it ends and which text it quotes. Its end is the first double quote that
has no backslash in front of it, and what stands before is read character by character: the
character behind a backslash tells which escape it is, and the digits of a code point end at the
closing brace.
-/

namespace DocumentQuery.Text
set_option autoImplicit false

/-! ## Where a part of a text ends -/

/-- A part that ends in front of the first character without the property `p` is told by the text
it stands in. -/
theorem split_unique {p : Char → Prop} {s t r u : List Char} (hs : ∀ c ∈ s, p c)
    (ht : ∀ c ∈ t, p c) (hr : ∀ c ∈ r.head?, ¬ p c) (hu : ∀ c ∈ u.head?, ¬ p c)
    (h : s ++ r = t ++ u) : s = t ∧ r = u := by
  induction s generalizing t with
  | nil =>
    cases t with
    | nil => exact ⟨rfl, h⟩
    | cons e others =>
      rw [List.nil_append] at h
      exact absurd (ht e (by simp)) (hr e (by rw [h]; rfl))
  | cons c rest ih =>
    cases t with
    | nil =>
      rw [List.nil_append] at h
      exact absurd (hs c (by simp)) (hu c (by rw [← h]; rfl))
    | cons e others =>
      rw [List.cons_append, List.cons_append, List.cons_eq_cons] at h
      obtain ⟨rfl, h⟩ := h
      obtain ⟨rfl, rfl⟩ := ih (fun x hx => hs x (List.mem_cons_of_mem c hx))
        (fun x hx => ht x (List.mem_cons_of_mem c hx)) h
      exact ⟨rfl, rfl⟩

/-! ## Hexadecimal digits -/

/-- Hexadecimal digits differ in their characters. -/
theorem digitChar_inj {m n : Nat} (hm : m < 16) (hn : n < 16) (h : m.digitChar = n.digitChar) :
    m = n := by
  have hall : ∀ a < 16, ∀ b < 16, Nat.digitChar a = Nat.digitChar b → a = b := by decide
  exact hall m hm n hn h

/-- By induction on the number: the last digit and the digits in front of it tell it. -/
theorem hex_injective {m n : Nat} (h : hex m = hex n) : m = n := by
  induction m using Nat.strongRecOn generalizing n with
  | ind m ih =>
    have hsplit : ∀ k, 16 ≤ k → hex k = hex (k / 16) ++ [(k % 16).digitChar] :=
      fun k hk => Nat.toDigits_of_base_le (by decide) hk
    have hshort : ∀ k, k < 16 → hex k = [] ++ [k.digitChar] :=
      fun k hk => Nat.toDigits_of_lt_base hk
    rcases Nat.lt_or_ge m 16 with hm | hm <;> rcases Nat.lt_or_ge n 16 with hn | hn
    · rw [hshort m hm, hshort n hn] at h
      exact digitChar_inj hm hn (List.singleton_inj.1 h)
    · rw [hshort m hm, hsplit n hn] at h
      exact absurd (List.append_inj_left' h rfl).symm Nat.toDigits_ne_nil
    · rw [hsplit m hm, hshort n hn] at h
      exact absurd (List.append_inj_left' h rfl) Nat.toDigits_ne_nil
    · rw [hsplit m hm, hsplit n hn] at h
      have hfront : m / 16 = n / 16 := ih (m / 16) (by omega) (List.append_inj_left' h rfl)
      have hlast : m % 16 = n % 16 :=
        digitChar_inj (Nat.mod_lt m (by decide)) (Nat.mod_lt n (by decide))
          (List.singleton_inj.1 (List.append_inj_right' h rfl))
      omega

theorem exists_digit_of_mem_hex {n : Nat} {c : Char} (h : c ∈ hex n) :
    ∃ d < 16, c = Nat.digitChar d := by
  induction n using Nat.strongRecOn with
  | ind n ih =>
    rcases Nat.lt_or_ge n 16 with hn | hn
    · rw [hex, Nat.toDigits_of_lt_base hn] at h
      exact ⟨n, hn, List.mem_singleton.1 h⟩
    · rw [hex, Nat.toDigits_of_base_le (by decide) hn] at h
      rcases List.mem_append.1 h with hfront | hlast
      · exact ih (n / 16) (by omega) hfront
      · exact ⟨n % 16, Nat.mod_lt n (by decide), List.mem_singleton.1 hlast⟩

/-! ## Where a quoted text ends -/

/-- A character that stands for itself between quotes. -/
def Plain (c : Char) : Prop := c ≠ '\x22' ∧ c ≠ '\\'

instance (c : Char) : Decidable (Plain c) := inferInstanceAs (Decidable (_ ∧ _))

theorem plain_digitChar {d : Nat} (h : d < 16) : Plain d.digitChar := by
  have hall : ∀ a < 16, Plain (Nat.digitChar a) := by decide
  exact hall d h

/-- What may stand between quotes: plain characters, and any character behind a backslash. -/
inductive Escaped : List Char → Prop where
  | nil : Escaped []
  | plain {c : Char} {cs : List Char} (hc : Plain c) (h : Escaped cs) : Escaped (c :: cs)
  | escape {c : Char} {cs : List Char} (h : Escaped cs) : Escaped ('\\' :: c :: cs)

theorem Escaped.append {s t : List Char} (hs : Escaped s) (ht : Escaped t) : Escaped (s ++ t) := by
  induction hs with
  | nil => exact ht
  | plain hc _ ih => exact .plain hc ih
  | escape _ ih => exact .escape ih

/-- A text without quotes and backslashes needs no escape. -/
theorem escaped_of_plain {s : List Char} (h : ∀ c ∈ s, Plain c) : Escaped s := by
  induction s with
  | nil => exact .nil
  | cons c cs ih =>
    exact .plain (h c (by simp)) (ih fun other hmem => h other (List.mem_cons_of_mem c hmem))

/-- Behind an opening quote, the closing one is the first that is not escaped. -/
theorem Escaped.unique {s t r u : List Char} (hs : Escaped s) (ht : Escaped t)
    (h : s ++ '\x22' :: r = t ++ '\x22' :: u) : s = t ∧ r = u := by
  induction hs generalizing t with
  | nil =>
    cases ht with
    | nil => exact ⟨rfl, List.tail_eq_of_cons_eq h⟩
    | plain hc _ => exact absurd (List.head_eq_of_cons_eq h).symm hc.1
    | escape _ => exact absurd (List.head_eq_of_cons_eq h) (by decide)
  | plain hc _ ih =>
    cases ht with
    | nil => exact absurd (List.head_eq_of_cons_eq h) hc.1
    | plain _ ht =>
      rw [List.cons_append, List.cons_append, List.cons_eq_cons] at h
      obtain ⟨rfl, h⟩ := h
      obtain ⟨rfl, rfl⟩ := ih ht h
      exact ⟨rfl, rfl⟩
    | escape _ => exact absurd (List.head_eq_of_cons_eq h) hc.2
  | escape _ ih =>
    cases ht with
    | nil => exact absurd (List.head_eq_of_cons_eq h) (by decide)
    | plain hc _ => exact absurd (List.head_eq_of_cons_eq h).symm hc.2
    | escape ht =>
      simp only [List.cons_append, List.cons_eq_cons] at h
      obtain ⟨-, rfl, h⟩ := h
      obtain ⟨rfl, rfl⟩ := ih ht h
      exact ⟨rfl, rfl⟩

/-! ## What a quoted text quotes -/

/-- The character that an escape of two characters stands for. -/
def unescaped? : Char → Option Char
  | '0' => some '\x00'
  | 't' => some '\t'
  | 'n' => some '\n'
  | 'r' => some '\r'
  | '\x22' => some '\x22'
  | '\\' => some '\\'
  | _ => none

/-- The three forms in which a character stands between quotes. -/
inductive QuotedAs (c : Char) : List Char → Prop where
  | plain (hc : Plain c) : QuotedAs c [c]
  | escape {e : Char} (he : unescaped? e = some c) : QuotedAs c ['\\', e]
  | codePoint : QuotedAs c ('\\' :: 'u' :: '\x7b' :: (hex c.toNat ++ ['\x7d']))

/-- A character is quoted in one of the ways that there are. -/
theorem quotedAs_quotedChar (c : Char) : QuotedAs c (quotedChar c) := by
  unfold quotedChar
  split
  · next hc => exact .escape (hc ▸ rfl)
  split
  · next hc => exact .escape (hc ▸ rfl)
  split
  · next hc => exact .escape (hc ▸ rfl)
  split
  · next hc => exact .escape (hc ▸ rfl)
  split
  · next hc =>
    rw [Bool.or_eq_true, decide_eq_true_eq, decide_eq_true_eq] at hc
    rcases hc with rfl | rfl
    · exact .escape rfl
    · exact .escape rfl
  · next hc =>
    rw [Bool.or_eq_true, decide_eq_true_eq, decide_eq_true_eq, not_or] at hc
    split
    · exact .codePoint
    · exact .plain hc

/-- Each way of quoting a character is escaped. -/
theorem QuotedAs.escaped {c : Char} {s : List Char} (h : QuotedAs c s) : Escaped s := by
  cases h with
  | plain hc => exact .plain hc .nil
  | escape he => exact .escape .nil
  | codePoint =>
    have hdigits : Escaped (hex c.toNat) := escaped_of_plain fun d hd => by
      obtain ⟨n, hn, rfl⟩ := exists_digit_of_mem_hex hd
      exact plain_digitChar hn
    exact .escape (.plain (by decide) (hdigits.append (.plain (by decide) .nil)))

/-- The digits of a code point end at the brace. -/
theorem hex_append_brace {m n : Nat} {r u : List Char}
    (h : hex m ++ '\x7d' :: r = hex n ++ '\x7d' :: u) : m = n ∧ r = u := by
  have hbrace : ∀ k, ∀ c ∈ hex k, c ≠ '\x7d' := by
    intro k c hmem
    obtain ⟨d, hd, rfl⟩ := exists_digit_of_mem_hex hmem
    have hall : ∀ a < 16, Nat.digitChar a ≠ '\x7d' := by decide
    exact hall d hd
  obtain ⟨hdigits, hrest⟩ := split_unique (hbrace m) (hbrace n) (by simp) (by simp) h
  exact ⟨hex_injective hdigits, List.tail_eq_of_cons_eq hrest⟩

/-- A quoted character in front of a text can be told from any other: by its first character, and
behind a backslash by the second. -/
theorem QuotedAs.unique {c e : Char} {s t r u : List Char} (hs : QuotedAs c s) (ht : QuotedAs e t)
    (h : s ++ r = t ++ u) : c = e ∧ r = u := by
  cases hs with
  | plain hc =>
    cases ht with
    | plain _ => exact List.cons_eq_cons.1 h
    | escape _ => exact absurd (List.head_eq_of_cons_eq h) hc.2
    | codePoint => exact absurd (List.head_eq_of_cons_eq h) hc.2
  | @escape x hx =>
    cases ht with
    | plain he => exact absurd (List.head_eq_of_cons_eq h).symm he.2
    | @escape y hy =>
      simp only [List.cons_append, List.cons_eq_cons, List.nil_append] at h
      obtain ⟨-, rfl, hrest⟩ := h
      exact ⟨Option.some.inj (hx.symm.trans hy), hrest⟩
    | codePoint =>
      simp only [List.cons_append, List.cons_eq_cons] at h
      obtain ⟨-, rfl, -⟩ := h
      cases hx
  | codePoint =>
    cases ht with
    | plain he => exact absurd (List.head_eq_of_cons_eq h).symm he.2
    | @escape y hy =>
      simp only [List.cons_append, List.cons_eq_cons] at h
      obtain ⟨-, rfl, -⟩ := h
      cases hy
    | codePoint =>
      simp only [List.cons_append, List.append_assoc, List.cons_eq_cons, List.nil_append,
        true_and] at h
      obtain ⟨hcode, hrest⟩ := hex_append_brace h
      exact ⟨Char.toNat_inj.1 hcode, hrest⟩

/-! ## Quoted texts -/

theorem toList_quoted (s : String) :
    (quoted s).toList = '\x22' :: (s.toList.flatMap quotedChar ++ ['\x22']) :=
  String.toList_ofList

/-- The inside of a quoted text is escaped. -/
theorem escaped_flatMap_quotedChar (cs : List Char) : Escaped (cs.flatMap quotedChar) := by
  induction cs with
  | nil => exact .nil
  | cons c rest ih =>
    rw [List.flatMap_cons]
    exact (quotedAs_quotedChar c).escaped.append ih

/-- What stands between the quotes tells the text, character by character. -/
theorem flatMap_quotedChar_injective {cs es : List Char}
    (h : cs.flatMap quotedChar = es.flatMap quotedChar) : cs = es := by
  have hne : ∀ c, quotedChar c ≠ [] := fun c hnone => by
    have hform := quotedAs_quotedChar c
    rw [hnone] at hform
    cases hform
  induction cs generalizing es with
  | nil =>
    cases es with
    | nil => rfl
    | cons e others => exact absurd (List.append_eq_nil_iff.1 h.symm).1 (hne e)
  | cons c rest ih =>
    cases es with
    | nil => exact absurd (List.append_eq_nil_iff.1 h).1 (hne c)
    | cons e others =>
      obtain ⟨rfl, hrest⟩ := (quotedAs_quotedChar c).unique (quotedAs_quotedChar e) h
      rw [ih hrest]

/-- Quoting loses nothing. -/
theorem quoted_injective {s t : String} (h : quoted s = quoted t) : s = t := by
  have hlist := congrArg String.toList h
  rw [toList_quoted, toList_quoted] at hlist
  obtain ⟨-, hlist⟩ := List.cons_eq_cons.1 hlist
  exact String.toList_injective (flatMap_quotedChar_injective (List.append_left_injective _ hlist))

end DocumentQuery.Text
