import DocumentQuery.Proofs.Draft.Outcome
import DocumentQuery.Proofs.Draft.Tokens
import DocumentQuery.Proofs.Sql.Insertion

/-!
# Statements with their parameters in place

A compiled statement binds each placeholder to the parameter that its piece was written with. So
the text with its parameters bound can be read off the pieces, one after the other.
-/

namespace DocumentQuery
set_option autoImplicit false

open Sql (Bound)

/-- The text of a query with its parameters in the places of the placeholders. -/
def Query.bound? (d : Dialect) (q : Query) : Option (List Bound) :=
  Sql.bind? (Sql.lex d q.sql) q.parameters

namespace Piece

variable {d : Dialect}

/-- What a piece is by itself, bound. -/
def bound (d : Dialect) : Piece → List Bound
  | .raw sql => (Sql.lex d sql).map .token
  | .name identifier => [.name identifier]
  | .placeholder p => [.value p]

/-- A clean text has no placeholder. -/
theorem placeholder_not_mem_lex {sql : String} (h : (raw sql).isClean d = true) :
    .placeholder ∉ Sql.lex d sql := by
  have hnone := (Sql.passes_plain (p := .blank) rfl 0 (List.all_eq_true.1 h)).places
  have hcount := Sql.count_lexFrom d .blank 0 sql.toList
  rw [hnone] at hcount
  exact List.count_eq_zero.1 hcount

/-- Clean pieces take the parameters that they were written with, each its own. -/
theorem bind?_pieces {pieces : List Piece} (h : ∀ piece ∈ pieces, piece.isClean d = true)
    (rest : List Sql.Token) (ps : List Parameter) :
    Sql.bind? (pieces.flatMap (tokens d) ++ rest) (pieces.filterMap parameter? ++ ps)
      = (Sql.bind? rest ps).map (pieces.flatMap (bound d) ++ ·) := by
  induction pieces with
  | nil => simp
  | cons piece others ih =>
    have hothers := ih fun other hmem => h other (List.mem_cons_of_mem piece hmem)
    rw [List.flatMap_cons, List.append_assoc]
    cases piece with
    | raw sql =>
      have hsql := placeholder_not_mem_lex (h (.raw sql) (by simp))
      rw [tokens, Sql.bind?_append hsql, List.filterMap_cons_none rfl, hothers, Option.map_map]
      simp [Function.comp_def, bound]
    | name identifier =>
      rw [tokens, Sql.bind?_append (by simp), List.filterMap_cons_none rfl, hothers,
        Option.map_map]
      simp [Function.comp_def, bound]
    | placeholder p =>
      have hp : (placeholder p :: others).filterMap parameter? = p :: others.filterMap parameter? :=
        rfl
      rw [tokens, hp, List.cons_append, List.cons_append, List.nil_append, Sql.bind?_placeholder,
        hothers, Option.map_map]
      simp [Function.comp_def, bound]

end Piece

namespace Draft

variable {α β : Type} {d : Dialect}

/-! ## Steps in a row -/

def bound (d : Dialect) (draft : Draft α) : List Bound := draft.pieces.flatMap (Piece.bound d)

theorem bound_raw (sql : String) : (raw sql).bound d = (Sql.lex d sql).map .token := by
  simp [bound, Piece.bound]

theorem bound_name (identifier : String) : (name identifier).bound d = [.name identifier] := rfl

theorem bound_bind {draft : Draft α} {a : α} (h : draft.outcome = .ok a) (next : α → Draft β) :
    (draft >>= next).bound d = draft.bound d ++ (next a).bound d := by
  rw [bind_of_ok h]
  exact List.flatMap_append

/-- Drafts that end well are listed with commas between them. -/
theorem bound_separated {γ : Type} {f : γ → Draft Unit} {xs : List γ}
    (h : ∀ x, (f x).outcome = .ok ()) :
    (separated ", " (xs.map f)).bound d = Sql.listed (xs.map fun x => (f x).bound d) := by
  have hcomma : (raw ", ").bound d = [.comma] := by
    rw [bound_raw]
    cases d <;> rfl
  induction xs with
  | nil => rfl
  | cons x rest ih =>
    cases rest with
    | nil => exact (List.append_nil _).symm
    | cons second others =>
      rw [List.map_cons] at ih
      rw [List.map_cons, List.map_cons, separated_cons_cons, bound_bind (h x),
        bound_bind (outcome_raw _), hcomma, ih, ← List.append_assoc]
      exact List.intercalate_cons_cons.symm

end Draft

end DocumentQuery
