import DocumentQuery.Proofs.Sql.Grammar
import DocumentQuery.Proofs.Sql.Placeholder

/-!
# Texts of a language

Which language the tokens of a text belong to, and when the tokens of two texts are the tokens of
both in a row: the first must end between two tokens, or the second must begin with a character
that ends every token.
-/

namespace DocumentQuery
set_option autoImplicit false

namespace Sql

variable {d : Dialect} {s t : List Char} {L M : Language Token}

/-! ## Texts in a row -/

/-- Characters that end every token outside of identifiers. -/
def isGapChar (c : Char) : Bool := c == ' ' || c == ',' || c == ')' || c == ';'

/-- A text that can stand behind any token: empty, or with a gap in front. -/
def hasGap (cs : List Char) : Bool := cs.head?.all isGapChar

theorem hasGap_append (h : hasGap s = true) (ht : hasGap t = true) : hasGap (s ++ t) = true := by
  cases s with
  | nil => exact ht
  | cons c rest => exact h

theorem hasGap_of_any (h : s.head?.any isGapChar = true) : hasGap (s ++ t) = true := by
  cases s with
  | nil => cases h
  | cons c rest => exact h

/-- Outside of identifiers a gap ends every unfinished token. -/
theorem Pending.extend?_of_gap {p : Pending} (hp : p.outside = true) {c : Char}
    (hc : isGapChar c = true) : p.extend? d c = none := by
  simp only [isGapChar, Bool.or_eq_true, beq_iff_eq] at hc
  cases p with
  | name read => cases hp
  | _ => rcases hc with ((rfl | rfl) | rfl) | rfl <;> cases d <;> rfl

/-- Nothing of a text with a gap in front belongs to the token before it. -/
theorem Pending.extend?_of_hasGap {p : Pending} (hp : p.outside = true) (h : hasGap t = true) :
    ∀ c ∈ t.head?, p.extend? d c = none :=
  fun c hc => extend?_of_gap hp (Option.all_eq_true _ _ |>.1 h c hc)

/-- A text that does not go on with the last token in front of it is split apart from it. -/
theorem lexFrom_append (p : Pending)
    (h : ∀ c ∈ t.head?, (pendingAfter d p s).extend? d c = none) :
    lexFrom d p (s ++ t) = lexFrom d p s ++ lexFrom d .blank t := by
  induction s generalizing p with
  | nil => exact lexFrom_flush h
  | cons c rest ih => rw [List.cons_append, lexFrom, lexFrom, ih _ h, List.append_assoc]

theorem pendingAfter_append (p : Pending) :
    pendingAfter d p (s ++ t) = pendingAfter d (pendingAfter d p s) t :=
  List.foldl_append

/-- Behind a text that starts afresh nothing is left of what stood in front of it. -/
theorem outside_pendingAfter {p : Pending} (hp : p.outside = true)
    (h : ∀ c ∈ t.head?, p.extend? d c = none)
    (ht : (pendingAfter d .blank t).outside = true) : (pendingAfter d p t).outside = true := by
  cases t with
  | nil => exact hp
  | cons c rest =>
    have hstep : (p.step d c).2 = (Pending.blank.step d c).2 := by
      rw [Pending.step, h c (by simp)]
      rfl
    rw [pendingAfter, List.foldl_cons] at ht ⊢
    rwa [hstep]

/-! ## Languages of texts -/

/-- The tokens of the text are in `L`, and it does not end within an identifier. -/
structure Spells (d : Dialect) (s : List Char) (L : Language Token) : Prop where
  tokens : lexFrom d .blank s ∈ L
  outside : (pendingAfter d .blank s).outside = true

theorem Spells.mono (h : Spells d s L) (hle : L ≤ M) : Spells d s M := ⟨hle h.tokens, h.outside⟩

/-- Two texts spell a product of languages where no token goes on from one to the other. -/
theorem spells_append (h : Spells d s L) (ht : Spells d t M)
    (hfresh : ∀ c ∈ t.head?, (pendingAfter d .blank s).extend? d c = none) :
    Spells d (s ++ t) (L * M) where
  tokens := by
    rw [lexFrom_append .blank hfresh]
    exact Language.append_mem_mul h.tokens ht.tokens
  outside := by
    rw [pendingAfter_append]
    exact outside_pendingAfter h.outside hfresh ht.outside

/-- A text with a gap in front can stand behind any other. -/
theorem Spells.append_gap (h : Spells d s L) (ht : Spells d t M) (hgap : hasGap t = true) :
    Spells d (s ++ t) (L * M) :=
  spells_append h ht (Pending.extend?_of_hasGap h.outside hgap)

/-- A text that ends between tokens can stand in front of any other. -/
theorem Spells.append_closed (h : Spells d s L) (hclosed : pendingAfter d .blank s = .blank)
    (ht : Spells d t M) : Spells d (s ++ t) (L * M) :=
  spells_append h ht (by simp [hclosed, Pending.extend?])

theorem spells_nil : Spells d [] 1 := ⟨Language.nil_mem_one, rfl⟩

/-- A name without the quote is one identifier between two of them. -/
theorem spells_quoted {n : String} (h : d.quote ∉ n.toList) :
    Spells d (d.quoted n).toList (named n) where
  tokens := by
    have hname : lexFrom d .blank ((d.quoted n).toList ++ []) = [.name n] :=
      lexFrom_quoted h (by simp)
    rw [List.append_nil] at hname
    rw [hname]
    exact rfl
  outside := (passes_quoted rfl 0 h).outside

theorem named_le_identifier (n : String) : named n ≤ identifier := fun _ h => ⟨n, h⟩

theorem spells_placeholder : Spells d ['?'] placeholder := by
  constructor
  · cases d <;> exact rfl
  · cases d <;> rfl

/-! ## Texts of keywords and punctuation -/

/-- `sql` is written for the tokens of `word`, in either dialect, and ends with a token. -/
def isWritten (sql word : String) : Bool :=
  [Dialect.mysql, .postgres].all fun d =>
    lex d sql == lex d word && (pendingAfter d .blank sql.toList).outside

/-- `sql` is written for the tokens of `word`, in either dialect, and ends between tokens. -/
def isClosed (sql word : String) : Bool :=
  [Dialect.mysql, .postgres].all fun d =>
    lex d sql == lex d word && pendingAfter d .blank sql.toList == .blank

/-- Whether a fixed text spells a word is decided by reading both. -/
theorem spells_of_isWritten {sql word : String} (h : isWritten sql word = true) :
    Spells d sql.toList (fixed d word) := by
  have hd := List.all_eq_true.1 h d (by cases d <;> simp)
  simp only [Bool.and_eq_true, beq_iff_eq] at hd
  exact ⟨hd.1, hd.2⟩

theorem spells_of_isClosed {sql word : String} (h : isClosed sql word = true) :
    Spells d sql.toList (fixed d word) ∧ pendingAfter d .blank sql.toList = .blank := by
  have hd := List.all_eq_true.1 h d (by cases d <;> simp)
  simp only [Bool.and_eq_true, beq_iff_eq] at hd
  exact ⟨⟨hd.1, by rw [hd.2]; rfl⟩, hd.2⟩

/-- `sql` goes behind any token. -/
def isBehind (sql word : String) : Bool :=
  sql.toList.head?.any isGapChar && isWritten sql word

/-- `sql` goes between any two tokens. -/
def isBetween (sql word : String) : Bool :=
  sql.toList.head?.any isGapChar && isClosed sql word

/-! ## Numbers -/

/-- Letters and digits go on with a word. -/
theorem pendingAfter_word (read : List Char) {run : List Char}
    (h : ∀ c ∈ run, isWordChar c = true) :
    lexFrom d (.word read) run = [.ofWord (read.reverse ++ run)] ∧
      pendingAfter d (.word read) run = .word (run.reverse ++ read) := by
  induction run generalizing read with
  | nil => simp [lexFrom, pendingAfter, Pending.flush]
  | cons c rest ih =>
    have hstep : (Pending.word read).step d c = ([], .word (c :: read)) := by
      simp [Pending.step, Pending.extend?, h c (by simp)]
    obtain ⟨htokens, hpending⟩ := ih (c :: read) fun other hmem =>
      h other (List.mem_cons_of_mem c hmem)
    rw [pendingAfter] at hpending ⊢
    rw [lexFrom, List.foldl_cons, hstep, htokens, hpending]
    simp

/-- A run of digits is the number that they denote. -/
theorem ofWord_digits {run : List Char} (h : run.all Char.isDigit = true) :
    Token.ofWord run = .number (Nat.ofDigitChars 10 run 0) := by
  have hkeyword : Keyword.ofText? (String.ofList run) = none := by
    unfold Keyword.ofText?
    split
    case h_8 => rfl
    all_goals
      next heq =>
      rw [← String.toList_ofList (l := run), heq] at h
      exact absurd h (by decide)
  simp [Token.ofWord, hkeyword, h, Nat.ofDigitChars]

/-- A run of digits is one number, and it is unfinished at its end. -/
theorem lexFrom_digits {run : List Char} (hne : run ≠ []) (h : ∀ c ∈ run, c.isDigit = true) :
    lexFrom d .blank run = [.ofWord run] ∧ pendingAfter d .blank run = .word run.reverse := by
  obtain ⟨c, rest, rfl⟩ := List.exists_cons_of_ne_nil hne
  have hword : ∀ other ∈ c :: rest, isWordChar other = true := fun other hmem => by
    simp [isWordChar, Char.isAlphanum, h other hmem]
  have hstart : Pending.blank.step d c = ([], .word [c]) := by
    have hdigit := h c (by simp)
    have hquote : c ≠ d.quote := by
      rintro rfl
      cases d <;> cases hdigit
    have hspace : c.isWhitespace = false := by
      refine Bool.eq_false_iff.2 fun hspace => ?_
      simp only [Char.isWhitespace, Bool.or_eq_true, decide_eq_true_eq] at hspace
      rcases hspace with ((rfl | rfl) | rfl) | rfl <;> cases hdigit
    simp [Pending.step, Pending.extend?, Pending.start, Pending.flush, hquote, hspace,
      hword c (by simp)]
  obtain ⟨htokens, hpending⟩ := pendingAfter_word (d := d) [c] fun other hmem =>
    hword other (List.mem_cons_of_mem c hmem)
  constructor
  · rw [lexFrom, hstart, htokens]
    rfl
  · rw [pendingAfter] at hpending ⊢
    rw [List.foldl_cons, hstart, hpending, List.reverse_cons]

theorem isDigit_toString (n : Nat) : ∀ c ∈ (toString n).toList, c.isDigit = true := by
  have hdigits : (toString n).toList = Nat.toDigits 10 n := by simp [toString]
  rw [hdigits]
  exact fun c hc => Nat.isDigit_of_mem_toDigits (by decide) (by decide) hc

theorem toList_toString_ne_nil (n : Nat) : (toString n).toList ≠ [] := by
  have hdigits : (toString n).toList = Nat.toDigits 10 n := by simp [toString]
  rw [hdigits]
  exact Nat.toDigits_ne_nil

/-- The digits of a number are read as that number. -/
theorem lexFrom_nat (n : Nat) {rest : List Char} (h : EndsWord rest) :
    lexFrom d .blank ((toString n).toList ++ rest) = .number n :: lexFrom d .blank rest := by
  obtain ⟨htokens, hpending⟩ :=
    lexFrom_digits (d := d) (toList_toString_ne_nil n) (isDigit_toString n)
  have hnumber : Token.ofWord (toString n).toList = .number n := by
    have hdigits : (toString n).toList = Nat.toDigits 10 n := by simp [toString]
    rw [ofWord_digits (List.all_eq_true.2 (isDigit_toString n)), hdigits,
      Nat.ofDigitChars_toDigits (by decide) (by decide)]
  rw [lexFrom_append, htokens, hnumber]
  · rfl
  · intro c hc
    rw [hpending]
    simp [Pending.extend?, h c hc]

/-- A number that is written in decimal is one in the language. -/
theorem spells_nat (n : Nat) : Spells d (toString n).toList number := by
  obtain ⟨htokens, hpending⟩ :=
    lexFrom_digits (d := d) (toList_toString_ne_nil n) (isDigit_toString n)
  constructor
  · rw [htokens, ofWord_digits (List.all_eq_true.2 (isDigit_toString n))]
    exact ⟨_, rfl⟩
  · rw [hpending]
    rfl

end Sql

end DocumentQuery
