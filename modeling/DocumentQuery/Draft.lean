import DocumentQuery.Parameter
import DocumentQuery.StatementError

/-!
# Drafts of statements

A statement is drafted as a list of pieces: SQL text, identifiers and placeholders, each
placeholder with the parameter bound to it. A draft is what one step appends, together with its
outcome; steps that follow each other append one behind the other, and a step that fails keeps
what was appended before the fault. So what a step appends cannot depend on what is there already,
and text and parameters cannot get out of step.
-/

namespace DocumentQuery
set_option autoImplicit false

/-- A part of a statement. -/
inductive Piece where
  /-- SQL text: keywords, punctuation, numbers. -/
  | raw (sql : String)
  /-- An identifier, quoted by the rule of the dialect. -/
  | name (identifier : String)
  /-- A placeholder and the value bound to it. -/
  | placeholder (p : Parameter)
  deriving DecidableEq, Inhabited

namespace Piece

def sql (d : Dialect) : Piece → String
  | .raw sql => sql
  | .name identifier => d.quoted identifier
  | .placeholder _ => "?"

def parameter? : Piece → Option Parameter
  | .placeholder p => some p
  | _ => none

end Piece

/-- SQL text and the parameters of its placeholders in order. -/
structure Query where
  sql : String
  parameters : List Parameter
  deriving DecidableEq, Inhabited

namespace Query

/-- Text behind text, and parameters behind parameters. -/
instance : Append Query where
  append q r := ⟨q.sql ++ r.sql, q.parameters ++ r.parameters⟩

def ofPieces (d : Dialect) (pieces : List Piece) : Query :=
  { sql := String.join (pieces.map (Piece.sql d))
    parameters := pieces.filterMap Piece.parameter? }

/-- The semicolon behind a whole statement. -/
def finished (q : Query) : Query := { q with sql := q.sql ++ ";" }

@[simp] theorem sql_append (q r : Query) : (q ++ r).sql = q.sql ++ r.sql := rfl

@[simp] theorem parameters_append (q r : Query) :
    (q ++ r).parameters = q.parameters ++ r.parameters := rfl

/-- The text of pieces in a row is the text of the first ones and that of the others. -/
theorem ofPieces_append (d : Dialect) (ps qs : List Piece) :
    ofPieces d (ps ++ qs) = ofPieces d ps ++ ofPieces d qs := by
  show Query.mk _ _ = Query.mk _ _
  simp [ofPieces, String.join_append]

end Query

/-- What a step appends, and how it ends. -/
structure Draft (α : Type) where
  pieces : List Piece
  outcome : Except StatementError α

namespace Draft

/-- The step `next` behind `draft`, unless that one fails. -/
def andThen {α β : Type} (draft : Draft α) (next : α → Draft β) : Draft β :=
  match draft.outcome with
  | .error e => ⟨draft.pieces, .error e⟩
  | .ok a =>
    let rest := next a
    ⟨draft.pieces ++ rest.pieces, rest.outcome⟩

instance : Monad Draft where
  pure a := ⟨[], .ok a⟩
  bind := andThen

@[simp] theorem pure_eq {α : Type} (a : α) : (pure a : Draft α) = ⟨[], .ok a⟩ := rfl

/-- Behind a step that answers the pieces of the next one stand behind its own. -/
theorem bind_of_ok {α β : Type} {draft : Draft α} {a : α} (h : draft.outcome = .ok a)
    (next : α → Draft β) :
    draft >>= next = ⟨draft.pieces ++ (next a).pieces, (next a).outcome⟩ := by
  show draft.andThen next = _
  simp [andThen, h]

/-- A step that fails keeps what it has written, and nothing is written behind it. -/
theorem bind_of_error {α β : Type} {draft : Draft α} {e : StatementError}
    (h : draft.outcome = .error e) (next : α → Draft β) :
    draft >>= next = ⟨draft.pieces, .error e⟩ := by
  show draft.andThen next = _
  simp [andThen, h]

/-- Appends nothing and ends as `result` says. -/
def lift {α : Type} (result : Except StatementError α) : Draft α := ⟨[], result⟩

def append (piece : Piece) : Draft Unit := ⟨[piece], .ok ()⟩

def raw (sql : String) : Draft Unit := append (.raw sql)

def name (identifier : String) : Draft Unit := append (.name identifier)

def placeholder (p : Parameter) : Draft Unit := append (.placeholder p)

/-- Drafts with a separator between each two. -/
def separated (separator : String) : List (Draft Unit) → Draft Unit
  | [] => pure ()
  | [draft] => draft
  | draft :: rest => do
    draft
    raw separator
    separated separator rest

/-- A draft in parentheses, if `grouped`. -/
def parenthesized (grouped : Bool) (draft : Draft Unit) : Draft Unit :=
  if grouped then do
    raw "("
    draft
    raw ")"
  else
    draft

/-- Identifiers with commas between them. -/
def names (identifiers : List String) : Draft Unit := separated ", " (identifiers.map name)

/-- Placeholders with commas between them. -/
def placeholders (ps : List Parameter) : Draft Unit := separated ", " (ps.map placeholder)

/-- The statement that a draft is, when it ends well. -/
def query (d : Dialect) (draft : Draft Unit) : Except StatementError Query :=
  draft.outcome.map fun _ => (Query.ofPieces d draft.pieces).finished

end Draft

end DocumentQuery
