import DocumentQuery.Options
import DocumentQuery.Proofs.Connective
import DocumentQuery.Proofs.Sql.Token
import Mathlib.Computability.Language
import Mathlib.Order.CompletePartialOrder

/-!
# Grammar of statements

The shapes of the statements that a database of each dialect takes, as languages of tokens: sums
are choices, products are sequences. Every list asks for a member, so a statement with an empty
column list, an empty set or an empty assignment list is not among them; neither is a condition
that compares two numbers, or clauses in another order. Names are not judged beyond their quotes: an
identifier is whatever stands between two of them, also nothing at all, and whether a database has
such a name, or allows it, is not told here.
-/

namespace DocumentQuery
set_option autoImplicit false

namespace Sql

open scoped Computability

/-! ## Parts -/

section Parts

variable (d : Dialect)

/-- Keywords and punctuation as they are written. -/
def fixed (sql : String) : Language Token := {lex d sql}

/-- A quoted name of any content. -/
def identifier : Language Token := {tokens | ∃ n, tokens = [.name n]}

/-- The identifier of this name. -/
def named (n : String) : Language Token := {[.name n]}

def number : Language Token := {tokens | ∃ n, tokens = [.number n]}

def placeholder : Language Token := {[.placeholder]}

def optional (part : Language Token) : Language Token := 1 + part

/-- As many members as `k` and one more, with commas between them. -/
def listOf (k : Nat) (member : Language Token) : Language Token :=
  member * (fixed d "," * member) ^ k

/-- At least one member, with commas between them. -/
def list (member : Language Token) : Language Token := member * (fixed d "," * member)∗

/-! ## Conditions -/

/-- What stands between a column and the value it is compared with. -/
def relations : List String := ["=", "!=", ">", ">=", "<", "<=", "LIKE", "NOT LIKE"]

def relation : Language Token := {tokens | ∃ sql ∈ relations, tokens = lex d sql}

/-- A column tested against a value, for null, or against a list of values. -/
def test : Language Token :=
  identifier * relation d * placeholder +
    identifier * (fixed d "IS NULL" + fixed d "IS NOT NULL") +
    identifier * (fixed d "IN (" + fixed d "NOT IN (") * list d placeholder * fixed d ")"

/-- The phrases of conditions: NOT stands in front of operands, AND joins operands, and OR joins
what AND has joined. -/
inductive Phrase where
  | operand
  | conjunction
  | disjunction

inductive Derives : Phrase → List Token → Prop where
  | test {ts : List Token} (h : ts ∈ test d) : Derives .operand ts
  | not {ts : List Token} (h : Derives .operand ts) : Derives .operand (.keyword .not :: ts)
  | group {ts : List Token} (h : Derives .disjunction ts) :
      Derives .operand (.opening :: (ts ++ [.closing]))
  | factor {ts : List Token} (h : Derives .operand ts) : Derives .conjunction ts
  | and {ts us : List Token} (h : Derives .conjunction ts) (operand : Derives .operand us) :
      Derives .conjunction (ts ++ .keyword .and :: us)
  | alternative {ts : List Token} (h : Derives .conjunction ts) : Derives .disjunction ts
  | or {ts us : List Token} (h : Derives .disjunction ts) (conjunction : Derives .conjunction us) :
      Derives .disjunction (ts ++ .keyword .or :: us)

def phrase (p : Phrase) : Language Token := {tokens | Derives d p tokens}

def condition : Language Token := phrase d .disjunction

/-! ## Clauses -/

def restriction : Language Token := fixed d "WHERE" * condition d

def sortTerm : Language Token := identifier * (fixed d "ASC" + fixed d "DESC")

def ordering : Language Token := fixed d "ORDER BY" * list d (sortTerm d)

def limit : Language Token := fixed d "LIMIT" * number

def offset : Language Token := fixed d "OFFSET" * number

end Parts

/-- MySQL has no offset without a limit. -/
def paging : Dialect → Language Token
  | .mysql => limit .mysql * optional (offset .mysql)
  | .postgres => limit .postgres * optional (offset .postgres) + offset .postgres

/-! ## Statements -/

section Statements

variable (d : Dialect)

def select : Language Token :=
  fixed d "SELECT" * (fixed d "*" + list d identifier) * fixed d "FROM" * identifier *
    optional (restriction d) * optional (ordering d) * optional (paging d)

/-- The rows that paging leaves, as a table of their own. -/
def derived : Language Token :=
  fixed d "(SELECT 1 FROM" * identifier * optional (restriction d) * paging d * fixed d ") AS" *
    named "bounded"

def count : Language Token :=
  fixed d "SELECT COUNT(*) AS" * named "count" * fixed d "FROM" *
    (identifier * optional (restriction d) + derived d)

/-- The row identifiers of a bounded deletion. -/
def rowIds : Language Token :=
  fixed d "SELECT" * fixed d "ctid" * fixed d "FROM" * identifier * optional (restriction d) *
    optional (ordering d) * limit d

/-- PostgreSQL has neither order nor limit here; there a bounded deletion restricts itself to the
identifiers of its rows. -/
def delete : Dialect → Language Token
  | .mysql =>
    fixed .mysql "DELETE FROM" * identifier * optional (restriction .mysql) *
      optional (ordering .mysql) * optional (limit .mysql)
  | .postgres =>
    fixed .postgres "DELETE FROM" * identifier *
      (optional (restriction .postgres) +
        fixed .postgres "WHERE ctid IN (" * rowIds .postgres * fixed .postgres ")")

/-- The insertion of a row of `k` values and one more. -/
def row (k : Nat) : Language Token :=
  fixed d "INSERT INTO" * identifier * fixed d "(" * listOf d k identifier * fixed d ") VALUES (" *
    listOf d k placeholder * fixed d ")"

/-- The row of defaults. -/
def defaults : Dialect → Language Token
  | .mysql => fixed .mysql "() VALUES ()"
  | .postgres => fixed .postgres "DEFAULT VALUES"

def insert : Language Token :=
  (⨆ k, row d k) + fixed d "INSERT INTO" * identifier * defaults d

/-- The update of PostgreSQL, which is always restricted, and behind it the insertion of a row of
`k` values and one more where the update found none. -/
def updateOrInsert (k : Nat) : Language Token :=
  fixed d "WITH" * named "updated" * fixed d "AS (UPDATE" * identifier * fixed d "SET" *
    list d (identifier * fixed d "=" * placeholder) * restriction d * fixed d "RETURNING *)," *
    named "inserted" * fixed d "AS (INSERT INTO" * identifier * fixed d "(" *
    listOf d k identifier * fixed d ") SELECT" * listOf d k placeholder *
    fixed d "WHERE NOT EXISTS (SELECT * FROM" * named "updated" *
    fixed d ") RETURNING *) SELECT * FROM" * named "updated" * fixed d "UNION ALL SELECT * FROM" *
    named "inserted"

def upsert : Dialect → Language Token
  | .mysql =>
    (⨆ k, row .mysql k) * fixed .mysql "ON DUPLICATE KEY UPDATE" *
      list .mysql (identifier * fixed .mysql "= VALUES(" * identifier * fixed .mysql ")")
  | .postgres => ⨆ k, updateOrInsert .postgres k

/-- A statement of a call, in front of its semicolon. -/
def body : Method → Language Token
  | .select => select d
  | .count => count d
  | .delete => delete d
  | .insert => insert d
  | .upsert => upsert d

/-- The statements of a kind of call. -/
def statement (m : Method) : Language Token := body d m * fixed d ";"

end Statements

/-! ## Lists and phrases -/

section Lemmas

variable {d : Dialect}

theorem listOf_le_list (k : Nat) (member : Language Token) : listOf d k member ≤ list d member :=
  mul_le_mul_right pow_le_kstar _

/-- Fixed texts are the tokens that they are read as. -/
theorem mem_fixed {sql : String} {ts us : List Token} (h : ts ∈ fixed d sql)
    (hlex : lex d sql = us) : ts = us :=
  (Set.mem_singleton_iff.1 h).trans hlex

theorem not_le_operand (d : Dialect) : fixed d "NOT" * phrase d .operand ≤ phrase d .operand := by
  intro ts h
  obtain ⟨keyword, hkeyword, operand, hoperand, rfl⟩ := Language.mem_mul.1 h
  rw [mem_fixed hkeyword (by cases d <;> rfl : lex d "NOT" = [.keyword .not])]
  exact Derives.not hoperand

theorem group_le_operand (d : Dialect) :
    fixed d "(" * (phrase d .disjunction * fixed d ")") ≤ phrase d .operand := by
  intro ts h
  obtain ⟨opening, hopening, inner, hinner, rfl⟩ := Language.mem_mul.1 h
  obtain ⟨disjunction, hdisjunction, closing, hclosing, rfl⟩ := Language.mem_mul.1 hinner
  rw [mem_fixed hopening (by cases d <;> rfl : lex d "(" = [.opening]),
    mem_fixed hclosing (by cases d <;> rfl : lex d ")" = [.closing])]
  exact Derives.group hdisjunction

/-- A phrase stays one when it is joined to more operands by its own keyword. -/
theorem joined_le {keyword : String} {k : Keyword} (hlex : lex d keyword = [.keyword k])
    {L M : Language Token} (hsingle : L ≤ M)
    (hjoin : ∀ ts us, ts ∈ M → us ∈ L → ts ++ .keyword k :: us ∈ M) (count : Nat) :
    L * (fixed d keyword * L) ^ count ≤ M := by
  induction count with
  | zero =>
    rw [pow_zero, mul_one]
    exact hsingle
  | succ count ih =>
    rw [pow_succ, ← mul_assoc]
    intro ts h
    obtain ⟨left, hleft, right, hright, rfl⟩ := Language.mem_mul.1 h
    obtain ⟨separator, hseparator, operand, hoperand, rfl⟩ := Language.mem_mul.1 hright
    rw [mem_fixed hseparator hlex]
    exact hjoin left operand (ih hleft) hoperand

/-- Operands with the word of a connective between them are a disjunction: several of its parts, or
the single one that a conjunction is. -/
theorem joined_le_disjunction (k : Connective) (count : Nat) :
    phrase d .operand * (fixed d k.sql * phrase d .operand) ^ count ≤ phrase d .disjunction := by
  cases k with
  | and =>
    have hconjunction : phrase d .operand * (fixed d Connective.and.sql * phrase d .operand) ^ count
        ≤ phrase d .conjunction :=
      joined_le (by cases d <;> rfl) (fun _ h => .factor h) (fun _ _ h => .and h) count
    exact hconjunction.trans fun _ h => .alternative h
  | or =>
    exact joined_le (by cases d <;> rfl) (fun _ h => .alternative (.factor h))
      (fun _ _ h hoperand => .or h (.factor hoperand)) count

end Lemmas

end Sql

end DocumentQuery
