import DocumentQuery.Draft
import DocumentQuery.Proofs.Sql.Token

/-!
# Placeholders in SQL

Where a text has its placeholder tokens, and where the pieces of a statement write them. The two
agree as long as no piece but a placeholder writes the placeholder's character outside of an
identifier, and none writes the quote of identifiers: then the lexer stands outside of every
identifier whenever a piece begins.
-/

namespace DocumentQuery
set_option autoImplicit false

namespace Sql

variable {d : Dialect}

/-! ## Tokens and positions -/

/-- The positions of the placeholders among the tokens that a text behind an unfinished token
completes; `pos` is the position of its first character. -/
def placesFrom (d : Dialect) (p : Pending) (pos : Nat) : List Char → List Nat
  | [] => []
  | c :: rest =>
    (if .placeholder ∈ (p.step d c).1 then [pos] else [])
      ++ placesFrom d (p.step d c).2 (pos + 1) rest

/-- The positions of the placeholders of a text. -/
def places (d : Dialect) (sql : String) : List Nat := placesFrom d .blank 0 sql.toList

theorem Token.ofWord_ne_placeholder (run : List Char) : ofWord run ≠ .placeholder := by
  unfold ofWord
  split
  · simp
  · split <;> simp

/-- No unfinished token is a placeholder: that is one character. -/
theorem Pending.placeholder_not_mem_flush (p : Pending) : .placeholder ∉ p.flush := by
  cases p with
  | word read => simpa [flush] using (Token.ofWord_ne_placeholder read.reverse).symm
  | _ => simp [flush]

theorem Pending.length_start_le (d : Dialect) (c : Char) : (start d c).1.length ≤ 1 := by
  unfold start
  split
  · exact Nat.zero_le 1
  · split
    · exact Nat.zero_le 1
    · split
      · exact Nat.zero_le 1
      · split
        · exact Nat.zero_le 1
        · exact Nat.le_refl 1

/-- A character either goes on with the unfinished token or starts afresh behind it. -/
theorem Pending.step_tokens (d : Dialect) (p : Pending) (c : Char) :
    (p.step d c).1 = [] ∨ (p.step d c).1 = p.flush ++ (start d c).1 := by
  unfold step
  split
  · exact .inl rfl
  · exact .inr rfl

/-- A character completes at most one placeholder. -/
theorem Pending.count_step (d : Dialect) (p : Pending) (c : Char) (pos : Nat) :
    (p.step d c).1.count .placeholder
      = (if .placeholder ∈ (p.step d c).1 then [pos] else []).length := by
  have hle : (p.step d c).1.count .placeholder ≤ 1 := by
    rcases step_tokens d p c with h | h
    · rw [h]
      exact Nat.zero_le 1
    · have hflush := List.count_eq_zero.2 p.placeholder_not_mem_flush
      rw [h, List.count_append, hflush, Nat.zero_add]
      exact Nat.le_trans List.count_le_length (length_start_le d c)
  split
  · next hmem =>
    have hpos := List.count_pos_iff.2 hmem
    have hlength : [pos].length = 1 := rfl
    omega
  · next hmem => exact List.count_eq_zero.2 hmem

/-- A text has as many placeholder tokens as it has positions of them. -/
theorem count_lexFrom (d : Dialect) (p : Pending) (pos : Nat) (cs : List Char) :
    (lexFrom d p cs).count .placeholder = (placesFrom d p pos cs).length := by
  induction cs generalizing p pos with
  | nil => exact List.count_eq_zero.2 p.placeholder_not_mem_flush
  | cons c rest ih =>
    rw [lexFrom, List.count_append, Pending.count_step d p c pos, ih _ (pos + 1), placesFrom,
      List.length_append]

/-! ## Texts in a row -/

/-- What is unfinished behind a text. -/
def pendingAfter (d : Dialect) (p : Pending) (cs : List Char) : Pending :=
  cs.foldl (fun p c => (p.step d c).2) p

/-- The places in two texts in a row are those of the first, and those of the second moved by its
length. -/
theorem placesFrom_append (p : Pending) (pos : Nat) (cs ds : List Char) :
    placesFrom d p pos (cs ++ ds)
      = placesFrom d p pos cs ++ placesFrom d (pendingAfter d p cs) (pos + cs.length) ds := by
  induction cs generalizing p pos with
  | nil => rfl
  | cons c rest ih =>
    have hpos : pos + (c :: rest).length = pos + 1 + rest.length := by
      rw [List.length_cons]
      omega
    rw [List.cons_append, placesFrom, ih, hpos, ← List.append_assoc]
    rfl

/-- Characters that neither are placeholders nor begin or end an identifier. -/
def isPlain (d : Dialect) (c : Char) : Bool := c != '?' && c != d.quote

/-- A plain character begins neither a placeholder nor an identifier. -/
theorem Pending.start_of_plain {c : Char} (h : isPlain d c) :
    .placeholder ∉ (start d c).1 ∧ (start d c).2.outside = true := by
  simp only [isPlain, Bool.and_eq_true, bne_iff_ne, ne_eq] at h
  unfold start
  rw [if_neg h.2]
  split
  · simp [outside]
  · split
    · simp [outside]
    · split
      · simp [outside]
      · have hchar : Token.ofChar c ≠ .placeholder := by
          unfold Token.ofChar
          split <;> simp_all
        simpa [outside] using hchar.symm

/-- Outside of identifiers only the quote leads into one. -/
theorem Pending.outside_of_extend? {p longer : Pending} {c : Char} (hp : p.outside = true)
    (hc : c ≠ d.quote) (h : p.extend? d c = some longer) : longer.outside = true := by
  cases p with
  | blank => cases h
  | name read => cases hp
  | word read =>
    obtain ⟨-, heq⟩ := Option.ite_none_right_eq_some.1 h
    cases heq
    rfl
  | sign read =>
    obtain ⟨-, heq⟩ := Option.ite_none_right_eq_some.1 h
    cases heq
    rfl
  | closed read =>
    obtain ⟨heq, -⟩ := Option.ite_none_right_eq_some.1 h
    exact absurd heq hc

/-- Outside of identifiers, a plain character completes no placeholder and opens no identifier. -/
theorem Pending.step_of_plain {p : Pending} {c : Char} (hp : p.outside = true)
    (h : isPlain d c) :
    .placeholder ∉ (p.step d c).1 ∧ (p.step d c).2.outside = true := by
  obtain ⟨hstart, houtside⟩ := start_of_plain h
  have hquote : c ≠ d.quote := by
    simp only [isPlain, Bool.and_eq_true, bne_iff_ne, ne_eq] at h
    exact h.2
  unfold step
  split
  · next longer hlonger =>
    have hlonger := outside_of_extend? hp hquote hlonger
    exact ⟨by simp, hlonger⟩
  · exact ⟨by simp [placeholder_not_mem_flush, hstart], houtside⟩

/-- The lexer stands outside of identifiers behind `cs` as before it, and found the placeholders
of `cs` at `found`. -/
structure Passes (d : Dialect) (p : Pending) (pos : Nat) (cs : List Char) (found : List Nat) :
    Prop where
  places : placesFrom d p pos cs = found
  outside : (pendingAfter d p cs).outside = true

/-- What is found in two texts in a row is found one after the other. -/
theorem Passes.append {p : Pending} {pos : Nat} {cs ds : List Char} {found more : List Nat}
    (h : Passes d p pos cs found)
    (hmore : Passes d (pendingAfter d p cs) (pos + cs.length) ds more) :
    Passes d p pos (cs ++ ds) (found ++ more) where
  places := by rw [placesFrom_append, h.places, hmore.places]
  outside := by
    rw [pendingAfter, List.foldl_append]
    exact hmore.outside

/-- A text of plain characters has no placeholder. -/
theorem passes_plain {p : Pending} (hp : p.outside = true) (pos : Nat) {cs : List Char}
    (h : ∀ c ∈ cs, isPlain d c) : Passes d p pos cs [] := by
  induction cs generalizing p pos with
  | nil => exact ⟨rfl, hp⟩
  | cons c rest ih =>
    obtain ⟨hnone, houtside⟩ := Pending.step_of_plain hp (h c (by simp))
    have hrest := ih houtside (pos + 1) fun other hmem => h other (List.mem_cons_of_mem c hmem)
    refine ⟨?_, hrest.outside⟩
    rw [placesFrom, if_neg hnone, hrest.places]
    rfl

/-- The characters of an identifier, up to its closing quote, are one token with it. -/
theorem passes_identifier (read : List Char) (pos : Nat) {cs : List Char} (h : d.quote ∉ cs) :
    Passes d (.name read) pos (cs ++ [d.quote]) [] := by
  induction cs generalizing read pos with
  | nil =>
    have hstep : (Pending.name read).step d d.quote = ([], .closed read) := by
      simp [Pending.step, Pending.extend?]
    exact ⟨by simp [placesFrom, hstep], by simp [pendingAfter, hstep, Pending.outside]⟩
  | cons c rest ih =>
    have hc : c ≠ d.quote := fun heq => h (by simp [heq])
    have hstep : (Pending.name read).step d c = ([], .name (c :: read)) := by
      simp [Pending.step, Pending.extend?, hc]
    have hrest := ih (c :: read) (pos + 1) fun hmem => h (List.mem_cons_of_mem c hmem)
    refine ⟨?_, ?_⟩
    · rw [List.cons_append, placesFrom, hstep, hrest.places]
      simp
    · have houtside := hrest.outside
      rw [List.cons_append, pendingAfter, List.foldl_cons, hstep]
      exact houtside

/-- Behind an opening quote stands an identifier, be it a new one or the one just closed. -/
theorem Pending.step_quote {p : Pending} (hp : p.outside = true) :
    .placeholder ∉ (p.step d d.quote).1 ∧ ∃ read, (p.step d d.quote).2 = .name read := by
  have hstart : start d d.quote = ([], .name []) := by simp [start]
  unfold step
  split
  · next longer hlonger =>
    refine ⟨by simp, ?_⟩
    cases p with
    | blank => cases hlonger
    | name read => cases hp
    | word read => cases d <;> cases hlonger
    | sign read => cases d <;> cases hlonger
    | closed read =>
      obtain ⟨-, heq⟩ := Option.ite_none_right_eq_some.1 hlonger
      cases heq
      exact ⟨_, rfl⟩
  · exact ⟨by simp [placeholder_not_mem_flush, hstart], [], by rw [hstart]⟩

/-- A name without the quote has none either, whatever its characters are. -/
theorem passes_quoted {p : Pending} (hp : p.outside = true) (pos : Nat) {name : String}
    (h : d.quote ∉ name.toList) : Passes d p pos (d.quoted name).toList [] := by
  obtain ⟨hnone, read, hread⟩ := Pending.step_quote (d := d) hp
  have hname := passes_identifier read (pos + 1) h
  have hchars : (d.quoted name).toList = d.quote :: (name.toList ++ [d.quote]) := by
    simp [Dialect.quoted]
  refine ⟨?_, ?_⟩
  · rw [hchars, placesFrom, if_neg hnone, hread, hname.places]
    rfl
  · have houtside := hname.outside
    rw [hchars, pendingAfter, List.foldl_cons, hread]
    exact houtside

/-- A placeholder outside of identifiers is found. -/
theorem passes_placeholder {p : Pending} (hp : p.outside = true) (pos : Nat) :
    Passes d p pos ['?'] [pos] := by
  have hstart : Pending.start d '?' = ([.placeholder], .blank) := by cases d <;> rfl
  have hextend : p.extend? d '?' = none := by
    cases p with
    | name read => cases hp
    | _ => cases d <;> rfl
  have hstep : p.step d '?' = (p.flush ++ [.placeholder], .blank) := by
    simp [Pending.step, hextend, hstart]
  exact ⟨by simp [placesFrom, hstep], by simp [pendingAfter, hstep, Pending.outside]⟩

end Sql

/-! ## Pieces -/

namespace Piece

variable {d : Dialect}

/-- Whether the text and the identifiers of a piece leave placeholders to their own pieces. An
identifier may well contain the placeholder's character. -/
def isClean (d : Dialect) : Piece → Bool
  | .raw sql => sql.toList.all (Sql.isPlain d)
  | .name identifier => !identifier.toList.contains d.quote
  | .placeholder _ => true

/-- Where a piece writes its placeholder, if it is one, and the parameter bound to that. -/
def placed (pos : Nat) : Piece → List (Nat × Parameter)
  | .placeholder p => [(pos, p)]
  | _ => []

/-- The placeholders that pieces write behind each other, with their parameters. -/
def placedAll (d : Dialect) (pos : Nat) : List Piece → List (Nat × Parameter)
  | [] => []
  | piece :: rest => piece.placed pos ++ placedAll d (pos + (piece.sql d).toList.length) rest

theorem passes {p : Sql.Pending} (hp : p.outside = true) (pos : Nat) {piece : Piece}
    (h : piece.isClean d = true) :
    Sql.Passes d p pos (piece.sql d).toList ((piece.placed pos).map (·.1)) := by
  cases piece with
  | raw sql => exact Sql.passes_plain hp pos (List.all_eq_true.1 h)
  | name identifier => exact Sql.passes_quoted hp pos (by simpa [isClean] using h)
  | placeholder value =>
    have hmark : ((Piece.placeholder value).sql d).toList = ['?'] := by simp [sql]
    rw [hmark]
    exact Sql.passes_placeholder hp pos

/-- The text of clean pieces has its placeholders where the pieces write them. -/
theorem passes_all {p : Sql.Pending} (hp : p.outside = true) (pos : Nat) {pieces : List Piece}
    (h : ∀ piece ∈ pieces, piece.isClean d = true) :
    Sql.Passes d p pos (pieces.flatMap fun piece => (piece.sql d).toList)
      ((placedAll d pos pieces).map (·.1)) := by
  induction pieces generalizing p pos with
  | nil => exact ⟨rfl, hp⟩
  | cons piece rest ih =>
    have hpiece := passes hp pos (h piece (by simp))
    have hrest := ih hpiece.outside (pos + (piece.sql d).toList.length)
      fun other hmem => h other (List.mem_cons_of_mem piece hmem)
    rw [List.flatMap_cons, placedAll, List.map_append]
    exact hpiece.append hrest

/-- The parameters at the places are those of the pieces, in order. -/
theorem map_snd_placedAll (pos : Nat) (pieces : List Piece) :
    (placedAll d pos pieces).map (·.2) = pieces.filterMap parameter? := by
  induction pieces generalizing pos with
  | nil => rfl
  | cons piece rest ih =>
    rw [placedAll, List.map_append, ih]
    cases piece <;> rfl

end Piece

namespace Query

variable {d : Dialect}

/-- Text and parameters in step: the text has one placeholder token for each parameter, and the
tokens stand, in order, where `pieces` write the placeholders that the parameters are bound to. -/
structure Aligned (d : Dialect) (q : Query) (pieces : List Piece) : Prop where
  count : (Sql.lex d q.sql).count .placeholder = q.parameters.length
  places : Sql.places d q.sql = (Piece.placedAll d 0 pieces).map (·.1)
  parameters : q.parameters = (Piece.placedAll d 0 pieces).map (·.2)

theorem toList_sql_ofPieces (d : Dialect) (pieces : List Piece) :
    (ofPieces d pieces).sql.toList = pieces.flatMap fun piece => (piece.sql d).toList := by
  rw [ofPieces, String.toList_join, List.flatMap_map]

/-- Clean pieces are in step with their parameters, whatever plain text stands behind them. -/
theorem aligned_of_clean {pieces : List Piece} (h : ∀ piece ∈ pieces, piece.isClean d = true)
    {q : Query} (tail : List Char) (htail : ∀ c ∈ tail, Sql.isPlain d c = true)
    (hsql : q.sql.toList = (ofPieces d pieces).sql.toList ++ tail)
    (hparameters : q.parameters = (ofPieces d pieces).parameters) : Aligned d q pieces := by
  have hpieces := Piece.passes_all (p := .blank) rfl 0 h
  have hall := hpieces.append (Sql.passes_plain hpieces.outside _ htail)
  have hplaces : Sql.places d q.sql = (Piece.placedAll d 0 pieces).map (·.1) := by
    rw [Sql.places, hsql, toList_sql_ofPieces, hall.places, List.append_nil]
  have hvalues : q.parameters = (Piece.placedAll d 0 pieces).map (·.2) := by
    rw [hparameters, Piece.map_snd_placedAll]
    rfl
  refine ⟨?_, hplaces, hvalues⟩
  rw [Sql.lex, Sql.count_lexFrom d .blank 0, ← Sql.places, hplaces, hvalues, List.length_map,
    List.length_map]

/-- Clean pieces have text and parameters in step. -/
theorem aligned_ofPieces {pieces : List Piece} (h : ∀ piece ∈ pieces, piece.isClean d = true) :
    Aligned d (ofPieces d pieces) pieces :=
  aligned_of_clean h [] (by simp) (by simp) rfl

theorem aligned_finished {pieces : List Piece} (h : ∀ piece ∈ pieces, piece.isClean d = true) :
    Aligned d (ofPieces d pieces).finished pieces := by
  refine aligned_of_clean h [';'] (fun c hc => ?_) ?_ rfl
  · rw [List.mem_singleton.1 hc]
    cases d <;> rfl
  · simp [finished]

end Query

end DocumentQuery
