import DocumentQuery.Proofs.Draft.Outcome
import DocumentQuery.Proofs.Draft.Parameters

/-!
# Texts of drafts

The SQL text that a draft writes. Steps in a row write one text behind the other, and a list is the
texts of its members with the separator between them, so the text of a statement can be said in one
piece whatever its names are.
-/

namespace DocumentQuery
set_option autoImplicit false

namespace Draft

variable {α β γ : Type} {d : Dialect}

/-- The text that the pieces of a draft are. -/
def sql (d : Dialect) (draft : Draft α) : String := (Query.ofPieces d draft.pieces).sql

@[simp] theorem sql_pure (a : α) : (pure a : Draft α).sql d = "" := rfl

@[simp] theorem sql_raw (text : String) : (raw text).sql d = text := by
  simp [sql, Query.ofPieces, Piece.sql]

@[simp] theorem sql_name (identifier : String) : (name identifier).sql d = d.quoted identifier := by
  simp [sql, Query.ofPieces, Piece.sql]

@[simp] theorem sql_placeholder (p : Parameter) : (placeholder p).sql d = "?" := by
  simp [sql, Query.ofPieces, Piece.sql]

/-- The text of steps in a row is the text of the first and that of the next. -/
theorem sql_bind {draft : Draft α} {a : α} (h : draft.outcome = .ok a) (next : α → Draft β) :
    (draft >>= next).sql d = draft.sql d ++ (next a).sql d := by
  rw [sql, bind_of_ok h, Query.ofPieces_append]
  rfl

@[simp] theorem sql_raw_bind (text : String) (next : Unit → Draft β) :
    (raw text >>= next).sql d = text ++ (next ()).sql d := by
  rw [sql_bind (outcome_raw text), sql_raw]

@[simp] theorem sql_name_bind (identifier : String) (next : Unit → Draft β) :
    (name identifier >>= next).sql d = d.quoted identifier ++ (next ()).sql d := by
  rw [sql_bind (outcome_name identifier), sql_name]

/-- A step that only answers writes nothing. -/
theorem sql_lift_bind {result : Except StatementError α} {a : α} (h : result = .ok a)
    (next : α → Draft β) : (lift result >>= next).sql d = (next a).sql d := by
  rw [h, lift_ok_bind]

/-- The text of a list is the texts of its members with the separator between each two. -/
theorem sql_separated {separator : String} {f : γ → Draft Unit} {xs : List γ}
    (h : ∀ x ∈ xs, (f x).outcome = .ok ()) :
    (separated separator (xs.map f)).sql d
      = separator.intercalate (xs.map fun x => (f x).sql d) := by
  induction xs with
  | nil => rfl
  | cons x rest ih =>
    have hrest := ih fun y hy => h y (List.mem_cons_of_mem x hy)
    cases rest with
    | nil => simp [separated]
    | cons second others =>
      rw [List.map_cons, List.map_cons, separated_cons_cons, sql_bind (h x List.mem_cons_self),
        sql_raw_bind, ← List.map_cons, hrest]
      simp only [List.map_cons, String.intercalate_cons_cons, String.append_assoc]

/-- Names are written in quotes with commas between them. -/
@[simp] theorem sql_names (identifiers : List String) :
    (names identifiers).sql d = ", ".intercalate (identifiers.map d.quoted) := by
  rw [names, sql_separated fun _ _ => rfl]
  simp only [sql_name]

@[simp] theorem sql_placeholders (ps : List Parameter) :
    (placeholders ps).sql d = ", ".intercalate (ps.map fun _ => "?") := by
  rw [placeholders, sql_separated fun _ _ => rfl]
  simp only [sql_placeholder]

/-- A statement is the text of its draft with the parameters bound there. -/
theorem query_eq_ok {draft : Draft Unit} {q : Query} :
    draft.query d = .ok q ↔
      draft.outcome = .ok () ∧ q = ⟨draft.sql d ++ ";", draft.parameters⟩ := by
  rw [query]
  cases draft.outcome with
  | error e => simp [Except.map]
  | ok a => simp [Except.map, Query.finished, sql, parameters, Query.ofPieces, eq_comm]

end Draft

end DocumentQuery
