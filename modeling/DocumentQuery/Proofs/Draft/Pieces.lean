import DocumentQuery.Draft

/-!
# Pieces of drafts

What the steps of a draft append. `Every` says of a draft that all of its pieces are of some kind,
those written in front of a fault included; it goes through the steps of a draft one by one.
-/

namespace DocumentQuery
set_option autoImplicit false

/-- The text of pieces begins with that of the first one. -/
theorem Query.sql_ofPieces_cons (d : Dialect) (piece : Piece) (rest : List Piece) :
    (ofPieces d (piece :: rest)).sql = piece.sql d ++ (ofPieces d rest).sql := by
  simp [ofPieces]

namespace Draft

variable {α β γ : Type}

/-! ## Steps in a row -/

@[simp] theorem pieces_raw (sql : String) : (raw sql).pieces = [.raw sql] := rfl

@[simp] theorem pieces_name (identifier : String) :
    (name identifier).pieces = [.name identifier] := rfl

@[simp] theorem pieces_placeholder (p : Parameter) :
    (placeholder p).pieces = [.placeholder p] := rfl

@[simp] theorem pieces_lift (result : Except StatementError α) : (lift result).pieces = [] := rfl

@[simp] theorem outcome_lift (result : Except StatementError α) :
    (lift result).outcome = result := rfl

theorem lift_ok_bind (a : α) (next : α → Draft β) : lift (.ok a) >>= next = next a := rfl

/-- A text stands in front of what follows and leaves its outcome alone. -/
@[simp] theorem raw_bind (sql : String) (next : Unit → Draft β) :
    raw sql >>= next = ⟨.raw sql :: (next ()).pieces, (next ()).outcome⟩ := rfl

@[simp] theorem name_bind (identifier : String) (next : Unit → Draft β) :
    name identifier >>= next = ⟨.name identifier :: (next ()).pieces, (next ()).outcome⟩ := rfl

/-- Steps in a row can be bracketed either way, also behind a fault. -/
theorem bind_assoc (draft : Draft α) (next : α → Draft β) (last : β → Draft γ) :
    (draft >>= next) >>= last = draft >>= fun a => next a >>= last := by
  cases h : draft.outcome with
  | error e =>
    rw [bind_of_error h, bind_of_error h]
    exact bind_of_error rfl last
  | ok a =>
    rw [bind_of_ok h, bind_of_ok h]
    cases hnext : (next a).outcome with
    | error e =>
      rw [bind_of_error hnext]
      exact bind_of_error rfl last
    | ok b =>
      rw [bind_of_ok hnext, bind_of_ok (a := b) rfl, List.append_assoc]

theorem separated_cons_cons (separator : String) (draft second : Draft Unit)
    (rest : List (Draft Unit)) :
    separated separator (draft :: second :: rest)
      = draft >>= fun _ => raw separator >>= fun _ => separated separator (second :: rest) := rfl

/-- A step that fails keeps its pieces and hides those of the steps behind it. -/
theorem mem_pieces_bind {draft : Draft α} {next : α → Draft β} {piece : Piece} :
    piece ∈ (draft >>= next).pieces ↔
      piece ∈ draft.pieces ∨ ∃ a, draft.outcome = .ok a ∧ piece ∈ (next a).pieces := by
  cases h : draft.outcome with
  | error e => simp [bind_of_error h]
  | ok a => simp [bind_of_ok h]

/-! ## Drafts made of pieces of one kind -/

/-- All pieces that a draft appends satisfy `Q`. -/
def Every (Q : Piece → Prop) (draft : Draft α) : Prop := ∀ piece ∈ draft.pieces, Q piece

section Every

variable {Q : Piece → Prop}

@[simp] theorem every_pure (a : α) : Every Q (pure a : Draft α) := by simp [Every]

@[simp] theorem every_lift (result : Except StatementError α) : Every Q (lift result) := by
  simp [Every]

@[simp] theorem every_raw {sql : String} : Every Q (raw sql) ↔ Q (.raw sql) := by simp [Every]

@[simp] theorem every_name {identifier : String} :
    Every Q (name identifier) ↔ Q (.name identifier) := by simp [Every]

@[simp] theorem every_placeholder {p : Parameter} :
    Every Q (placeholder p) ↔ Q (.placeholder p) := by simp [Every]

/-- A step after another is only asked for where the first ends well. -/
theorem every_bind {draft : Draft α} {next : α → Draft β} (h : Every Q draft)
    (hnext : ∀ a, draft.outcome = .ok a → Every Q (next a)) : Every Q (draft >>= next) := by
  intro piece hpiece
  rcases mem_pieces_bind.1 hpiece with hmem | ⟨a, ha, hmem⟩
  · exact h piece hmem
  · exact hnext a ha piece hmem

/-- A step whose answer is not used. -/
theorem every_seq {draft : Draft Unit} {next : Draft β} (h : Every Q draft)
    (hnext : Every Q next) : Every Q (draft >>= fun _ => next) :=
  every_bind h fun _ _ => hnext

/-- A list is of a kind where its members and the separator are. -/
theorem every_separated {separator : String} (hsep : Q (.raw separator))
    {drafts : List (Draft Unit)} (h : ∀ draft ∈ drafts, Every Q draft) :
    Every Q (separated separator drafts) := by
  induction drafts with
  | nil => exact every_pure ()
  | cons draft rest ih =>
    cases rest with
    | nil => exact h draft (by simp)
    | cons second others =>
      rw [separated]
      · refine every_seq (h draft (by simp)) (every_seq (every_raw.2 hsep) (ih ?_))
        exact fun other hmem => h other (List.mem_cons_of_mem _ hmem)
      · simp

theorem every_parenthesized {grouped : Bool} {draft : Draft Unit} (hopen : Q (.raw "("))
    (hclose : Q (.raw ")")) (h : Every Q draft) : Every Q (parenthesized grouped draft) := by
  cases grouped with
  | false => exact h
  | true =>
    exact every_seq (every_raw.2 hopen) (every_seq h (every_raw.2 hclose))

theorem every_names (hcomma : Q (.raw ", ")) {identifiers : List String}
    (h : ∀ n ∈ identifiers, Q (.name n)) : Every Q (names identifiers) := by
  refine every_separated hcomma fun draft hmem => ?_
  obtain ⟨n, hn, rfl⟩ := List.mem_map.1 hmem
  exact every_name.2 (h n hn)

theorem every_placeholders (hcomma : Q (.raw ", ")) (hvalue : ∀ p, Q (.placeholder p))
    (ps : List Parameter) : Every Q (placeholders ps) := by
  refine every_separated hcomma fun draft hmem => ?_
  obtain ⟨p, -, rfl⟩ := List.mem_map.1 hmem
  exact every_placeholder.2 (hvalue p)

end Every

end Draft

end DocumentQuery
