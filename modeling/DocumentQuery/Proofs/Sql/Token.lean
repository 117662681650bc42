import DocumentQuery.Dialect

/-!
# Tokens of SQL

How a database splits SQL text: words, numbers, signs, quoted identifiers and placeholders. The
lexer reads one character at a time and keeps what it has read of an unfinished token, so the
tokens of a text are found from left to right, and a text that ends between two tokens is split
apart from what follows it.
-/

namespace DocumentQuery
set_option autoImplicit false

namespace Sql

/-- The words of conditions. -/
inductive Keyword where
  | and
  | or
  | not
  | is
  | null
  | oneOf
  | like
  deriving DecidableEq, Inhabited

def Keyword.ofText? (text : String) : Option Keyword :=
  match text with
  | "AND" => some .and
  | "OR" => some .or
  | "NOT" => some .not
  | "IS" => some .is
  | "NULL" => some .null
  | "IN" => some .oneOf
  | "LIKE" => some .like
  | _ => none

inductive Token where
  | keyword (k : Keyword)
  | word (text : String)
  | number (n : Nat)
  /-- A run of the characters of comparison signs. -/
  | sign (text : String)
  | opening
  | closing
  | comma
  | symbol (c : Char)
  /-- A quoted identifier, as one token. -/
  | name (identifier : String)
  | placeholder
  /-- A quoted identifier that the text leaves open. -/
  | unclosed
  deriving DecidableEq, Inhabited

/-- The token of a run of letters and digits. -/
def Token.ofWord (run : List Char) : Token :=
  match Keyword.ofText? (String.ofList run) with
  | some k => .keyword k
  | none =>
    if run.all Char.isDigit then
      .number (run.foldl (fun n c => 10 * n + (c.toNat - '0'.toNat)) 0)
    else
      .word (String.ofList run)

/-- The token of a character that stands alone. -/
def Token.ofChar : Char → Token
  | '(' => .opening
  | ')' => .closing
  | ',' => .comma
  | '?' => .placeholder
  | c => .symbol c

def isWordChar (c : Char) : Bool := c.isAlphanum || c == '_'

def isSignChar (c : Char) : Bool := c == '<' || c == '>' || c == '=' || c == '!'

/-- What the lexer has read of an unfinished token, last character first. A quoted identifier may
go on behind its closing quote, by a second one. -/
inductive Pending where
  | blank
  | word (read : List Char)
  | sign (read : List Char)
  | name (read : List Char)
  | closed (read : List Char)
  deriving DecidableEq, Inhabited

namespace Pending

/-- The token that ends where nothing more belongs to it. -/
def flush : Pending → List Token
  | .blank => []
  | .word read => [.ofWord read.reverse]
  | .sign read => [.sign (String.ofList read.reverse)]
  | .name _ => [.unclosed]
  | .closed read => [.name (String.ofList read.reverse)]

/-- A character between tokens. -/
def start (d : Dialect) (c : Char) : List Token × Pending :=
  if c = d.quote then ([], .name [])
  else if c.isWhitespace then ([], .blank)
  else if isWordChar c then ([], .word [c])
  else if isSignChar c then ([], .sign [c])
  else ([.ofChar c], .blank)

/-- The unfinished token with one more character, if that belongs to it. -/
def extend? (d : Dialect) (c : Char) : Pending → Option Pending
  | .blank => none
  | .word read => if isWordChar c then some (.word (c :: read)) else none
  | .sign read => if isSignChar c then some (.sign (c :: read)) else none
  | .name read => some (if c = d.quote then .closed read else .name (c :: read))
  | .closed read => if c = d.quote then some (.name (c :: read)) else none

/-- The tokens that a character completes, and what is unfinished behind it. -/
def step (d : Dialect) (p : Pending) (c : Char) : List Token × Pending :=
  match p.extend? d c with
  | some longer => ([], longer)
  | none => (p.flush ++ (start d c).1, (start d c).2)

/-- Whether the lexer is not between the quotes of an identifier. -/
def outside : Pending → Bool
  | .name _ => false
  | _ => true

end Pending

/-- The tokens of a text behind an unfinished one. -/
def lexFrom (d : Dialect) (p : Pending) : List Char → List Token
  | [] => p.flush
  | c :: rest => (p.step d c).1 ++ lexFrom d (p.step d c).2 rest

/-- The tokens of a text. -/
def lex (d : Dialect) (sql : String) : List Token := lexFrom d .blank sql.toList

example :
    lex .mysql "`a?` IN (?, 10) AND b<=?" =
    [.name "a?", .keyword .oneOf, .opening, .placeholder, .comma, .number 10, .closing,
      .keyword .and, .word "b", .sign "<=", .placeholder] := by
  decide

/-! ## Texts that end with a token -/

variable {d : Dialect}

/-- A text behind which a word cannot go on. -/
def EndsWord (rest : List Char) : Prop := ∀ c ∈ rest.head?, isWordChar c = false

theorem endsWord_nil : EndsWord [] := by simp [EndsWord]

theorem endsWord_cons {c : Char} (h : isWordChar c = false) (rest : List Char) :
    EndsWord (c :: rest) := by
  simpa [EndsWord] using h

/-- An unfinished token that does not go on is split off. -/
theorem lexFrom_flush {p : Pending} {rest : List Char}
    (h : ∀ c ∈ rest.head?, p.extend? d c = none) :
    lexFrom d p rest = p.flush ++ lexFrom d .blank rest := by
  cases rest with
  | nil => exact (List.append_nil _).symm
  | cons c rest =>
    have hend : p.step d c = (p.flush ++ (Pending.start d c).1, (Pending.start d c).2) := by
      rw [Pending.step, h c (by simp)]
    have hblank : Pending.blank.step d c = Pending.start d c := rfl
    rw [lexFrom, lexFrom, hend, hblank, List.append_assoc]

theorem lexFrom_word (read : List Char) {rest : List Char} (h : EndsWord rest) :
    lexFrom d (.word read) rest = .ofWord read.reverse :: lexFrom d .blank rest := by
  rw [lexFrom_flush]
  · rfl
  · intro c hc
    simp [Pending.extend?, h c hc]

/-- The characters between the quotes of an identifier are read as they are. -/
theorem lexFrom_name (read : List Char) {cs : List Char} (h : d.quote ∉ cs) (rest : List Char) :
    lexFrom d (.name read) (cs ++ d.quote :: rest)
      = lexFrom d (.closed (cs.reverse ++ read)) rest := by
  induction cs generalizing read with
  | nil => simp [lexFrom, Pending.step, Pending.extend?]
  | cons c others ih =>
    have hc : c ≠ d.quote := fun heq => h (by simp [heq])
    have hothers := ih (c :: read) fun hmem => h (List.mem_cons_of_mem c hmem)
    simpa [lexFrom, Pending.step, Pending.extend?, hc] using hothers

/-- An identifier without the quote is one token, unless a quote stands behind it. -/
theorem lexFrom_quoted {name : String} (h : d.quote ∉ name.toList) {rest : List Char}
    (hrest : rest.head? ≠ some d.quote) :
    lexFrom d .blank ((d.quoted name).toList ++ rest) = .name name :: lexFrom d .blank rest := by
  have hchars : (d.quoted name).toList ++ rest = d.quote :: (name.toList ++ d.quote :: rest) := by
    simp [Dialect.quoted]
  have hopen : Pending.blank.step d d.quote = ([], .name []) := by
    simp [Pending.step, Pending.extend?, Pending.start, Pending.flush]
  rw [hchars, lexFrom, hopen, lexFrom_name [] h, lexFrom_flush]
  · simp [Pending.flush]
  · intro c hc
    have hne : c ≠ d.quote := by
      rintro rfl
      exact hrest hc
    simp [Pending.extend?, hne]

/-- An identifier is shorter than its text: a quote inside is written twice, and the last one ends
it. Behind a quote that may end it, nothing or another quote goes on. -/
theorem length_of_lexFrom {cs : List Char} : ∀ {read : List Char} {name : String},
    (lexFrom d (.name read) cs = [.name name] → name.length < read.length + cs.length) ∧
    (lexFrom d (.closed read) cs = [.name name] →
      name.length ≤ read.length + (cs.length - 1)) := by
  induction cs with
  | nil =>
    intro read name
    refine ⟨fun h => by simp [lexFrom, Pending.flush] at h, fun h => ?_⟩
    obtain rfl : String.ofList read.reverse = name := by simpa [lexFrom, Pending.flush] using h
    simp
  | cons c rest ih =>
    intro read name
    constructor
    · intro h
      by_cases hc : c = d.quote
      · have hrest : lexFrom d (.closed read) rest = [.name name] := by
          simpa [lexFrom, Pending.step, Pending.extend?, hc] using h
        have hlength := ih.2 hrest
        rw [List.length_cons]
        omega
      · have hrest : lexFrom d (.name (c :: read)) rest = [.name name] := by
          simpa [lexFrom, Pending.step, Pending.extend?, hc] using h
        have hlength := ih.1 hrest
        rw [List.length_cons] at hlength ⊢
        omega
    · intro h
      by_cases hc : c = d.quote
      · have hrest : lexFrom d (.name (c :: read)) rest = [.name name] := by
          simpa [lexFrom, Pending.step, Pending.extend?, hc] using h
        have hlength := ih.1 hrest
        rw [List.length_cons] at hlength ⊢
        omega
      · rw [lexFrom_flush (by simp [Pending.extend?, hc])] at h
        obtain rfl := Token.name.inj (List.cons.inj h).1
        simp

/-- A quoted name is one identifier of that name exactly if it does not contain the quote. -/
theorem lex_quoted_iff (name : String) :
    lex d (d.quoted name) = [.name name] ↔ d.quote ∉ name.toList := by
  constructor
  · intro h hmem
    obtain ⟨front, behind, hname, hfront⟩ := List.eq_append_cons_of_mem hmem
    have hchars : (d.quoted name).toList
        = d.quote :: (front ++ d.quote :: (behind ++ [d.quote])) := by
      simp [Dialect.quoted, hname]
    have hopen : Pending.blank.step d d.quote = ([], .name []) := by
      simp [Pending.step, Pending.extend?, Pending.start, Pending.flush]
    rw [lex, hchars, lexFrom, hopen, List.nil_append, lexFrom_name [] hfront] at h
    have hshort := length_of_lexFrom.2 h
    have hlength : name.length = front.length + (behind.length + 1) := by
      rw [← String.length_toList, hname, List.length_append, List.length_cons]
    simp only [List.length_append, List.length_reverse, List.length_nil, List.length_cons] at hshort
    omega
  · intro h
    have hquoted : lexFrom d .blank ((d.quoted name).toList ++ []) = [.name name] :=
      lexFrom_quoted h (by simp)
    rwa [List.append_nil] at hquoted

end Sql

end DocumentQuery
