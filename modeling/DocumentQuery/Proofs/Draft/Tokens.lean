import DocumentQuery.Proofs.Draft.Clean
import DocumentQuery.Proofs.Sql.Spelling
import Mathlib.Data.List.Chain

/-!
# Tokens of drafts

The tokens of a text that is written piece by piece are the tokens of its pieces, as long as no
piece goes on with the last token in front of it. So of two pieces in a row either the first ends
between tokens or the second begins with a character that ends every token. Every clause keeps its
pieces apart in this way, whatever its names, values and trees are.
-/

namespace DocumentQuery
set_option autoImplicit false

/-! ## Pieces -/

namespace Piece

variable {d : Dialect}

/-- The tokens that a piece is by itself. -/
def tokens (d : Dialect) : Piece → List Sql.Token
  | .raw sql => Sql.lex d sql
  | .name identifier => [.name identifier]
  | .placeholder _ => [.placeholder]

/-- Whether a piece ends every token in front of it. -/
def opens : Piece → Bool
  | .raw sql => sql.toList.head?.any Sql.isGapChar
  | _ => false

/-- Whether nothing can go on with the last token of a piece, in either dialect. -/
def closes : Piece → Bool
  | .raw sql =>
    [Dialect.mysql, .postgres].all fun d => Sql.pendingAfter d .blank sql.toList == .blank
  | .name _ => false
  | .placeholder _ => true

/-- No token goes on from one piece into the next. -/
def Apart (piece next : Piece) : Prop := piece.closes = true ∨ next.opens = true

theorem toList_sql_placeholder (p : Parameter) : ((placeholder p).sql d).toList = ['?'] := by
  simp [sql]

/-- The text of a clean piece splits into its tokens. -/
theorem lexFrom_piece {piece : Piece} (h : piece.isClean d = true) :
    Sql.lexFrom d .blank (piece.sql d).toList = piece.tokens d := by
  cases piece with
  | raw sql => rfl
  | name identifier =>
    have hquoted : Sql.lexFrom d .blank ((d.quoted identifier).toList ++ []) = [.name identifier] :=
      Sql.lexFrom_quoted (Draft.isClean_name.1 h) (by simp)
    rwa [List.append_nil] at hquoted
  | placeholder p =>
    rw [toList_sql_placeholder]
    cases d <;> rfl

/-- Behind a piece that closes there is no unfinished token. -/
theorem pendingAfter_of_closes {piece : Piece} (h : piece.closes = true) :
    Sql.pendingAfter d .blank (piece.sql d).toList = .blank := by
  cases piece with
  | raw text => simpa [sql] using List.all_eq_true.1 h d (by cases d <;> simp)
  | name identifier => cases h
  | placeholder p =>
    rw [toList_sql_placeholder]
    cases d <;> rfl

/-- A piece that opens begins with a character that ends every token. -/
theorem isGapChar_of_opens {piece : Piece} (h : piece.opens = true) (rest : List Char) :
    ∀ c ∈ ((piece.sql d).toList ++ rest).head?, Sql.isGapChar c = true := by
  cases piece with
  | raw sql =>
    have hgap : Sql.hasGap (sql.toList ++ rest) = true := Sql.hasGap_of_any h
    exact fun c hc => Option.all_eq_true _ _ |>.1 hgap c hc
  | name identifier => cases h
  | placeholder p => cases h

/-- The tokens of clean pieces that are apart from each other are the tokens of each in a row. -/
theorem lexFrom_pieces {pieces : List Piece} (hclean : ∀ piece ∈ pieces, piece.isClean d = true)
    (hspaced : pieces.IsChain Apart) :
    Sql.lexFrom d .blank (pieces.flatMap fun piece => (piece.sql d).toList)
      = pieces.flatMap (tokens d) := by
  induction pieces with
  | nil => rfl
  | cons piece rest ih =>
    obtain ⟨hapart, hrest⟩ := List.isChain_cons.1 hspaced
    have hpiece := hclean piece (by simp)
    have hfresh : ∀ c ∈ (rest.flatMap fun piece => (piece.sql d).toList).head?,
        (Sql.pendingAfter d .blank (piece.sql d).toList).extend? d c = none := by
      cases rest with
      | nil => simp
      | cons next others =>
        rcases hapart next rfl with hcloses | hopens
        · simp [pendingAfter_of_closes hcloses, Sql.Pending.extend?]
        · intro c hc
          rw [List.flatMap_cons] at hc
          exact Sql.Pending.extend?_of_gap (passes rfl 0 hpiece).outside
            (isGapChar_of_opens hopens _ c hc)
    rw [List.flatMap_cons, List.flatMap_cons, Sql.lexFrom_append .blank hfresh,
      lexFrom_piece hpiece, ih (fun other hmem => hclean other (List.mem_cons_of_mem _ hmem)) hrest]

end Piece

/-- The semicolon of a whole statement is a token of its own. -/
theorem Query.lex_finished {d : Dialect} {pieces : List Piece}
    (hclean : ∀ piece ∈ pieces, piece.isClean d = true) (hspaced : pieces.IsChain Piece.Apart) :
    Sql.lex d (ofPieces d pieces).finished.sql
      = pieces.flatMap (Piece.tokens d) ++ [.symbol ';'] := by
  have hend : (ofPieces d pieces).finished.sql = (ofPieces d (pieces ++ [.raw ";"])).sql := by
    rw [ofPieces_append]
    rfl
  have hspaced' : (pieces ++ [Piece.raw ";"]).IsChain Piece.Apart :=
    hspaced.append (.singleton _) fun _ _ next hnext => by
      cases hnext
      exact .inr rfl
  have hclean' : ∀ piece ∈ pieces ++ [Piece.raw ";"], piece.isClean d = true := by
    intro piece hmem
    rcases List.mem_append.1 hmem with hmem | hmem
    · exact hclean piece hmem
    · rw [List.mem_singleton.1 hmem]
      cases d <;> rfl
  rw [hend, Sql.lex, toList_sql_ofPieces, Piece.lexFrom_pieces hclean' hspaced',
    List.flatMap_append]
  cases d <;> rfl

namespace Draft

variable {α β : Type} {d : Dialect}

/-! ## Steps in a row -/

def tokens (d : Dialect) (draft : Draft α) : List Sql.Token :=
  draft.pieces.flatMap (Piece.tokens d)

@[simp] theorem tokens_raw (sql : String) : (raw sql).tokens d = Sql.lex d sql := by
  simp [tokens, Piece.tokens]

@[simp] theorem tokens_name (identifier : String) :
    (name identifier).tokens d = [.name identifier] := rfl

@[simp] theorem tokens_placeholder (p : Parameter) :
    (placeholder p).tokens d = [.placeholder] := rfl

/-- The tokens of steps in a row stand behind each other. -/
theorem tokens_bind {draft : Draft α} {a : α} (h : draft.outcome = .ok a) (next : α → Draft β) :
    (draft >>= next).tokens d = draft.tokens d ++ (next a).tokens d := by
  rw [bind_of_ok h]
  exact List.flatMap_append

/-- The pieces of a draft are apart from each other. -/
def Spaced (draft : Draft α) : Prop := draft.pieces.IsChain Piece.Apart

/-- They are apart from any piece in front of them, too. -/
structure Behind (draft : Draft α) : Prop where
  spaced : Spaced draft
  opens : ∀ piece ∈ draft.pieces.head?, piece.opens = true

theorem behind_pure (a : α) : Behind (pure a : Draft α) := ⟨.nil, by simp⟩

theorem spaced_name (n : String) : Spaced (name n) := .singleton _

theorem spaced_placeholder (p : Parameter) : Spaced (placeholder p) := .singleton _

theorem spaced_raw (sql : String) : Spaced (raw sql) := .singleton _

/-- A text whose first character ends every token can stand behind anything. -/
theorem behind_raw {sql : String} (h : (Piece.raw sql).opens = true) : Behind (raw sql) := by
  refine ⟨spaced_raw sql, fun piece hpiece => ?_⟩
  cases hpiece
  exact h

/-- Steps stay apart where each can stand behind the one in front of it. -/
theorem spaced_bind {draft : Draft α} {next : α → Draft β} (h : Spaced draft)
    (hnext : ∀ a, draft.outcome = .ok a → Behind (next a)) : Spaced (draft >>= next) := by
  cases houtcome : draft.outcome with
  | error e =>
    rw [bind_of_error houtcome]
    exact h
  | ok a =>
    rw [bind_of_ok houtcome]
    have hbehind := hnext a houtcome
    exact List.IsChain.append h hbehind.spaced fun _ _ next hmem => .inr (hbehind.opens next hmem)

/-- What begins with a step that can stand behind anything can do so as well. -/
theorem behind_bind {draft : Draft α} {next : α → Draft β} (h : Behind draft)
    (hnext : ∀ a, draft.outcome = .ok a → Behind (next a)) : Behind (draft >>= next) := by
  refine ⟨spaced_bind h.spaced hnext, fun piece hpiece => ?_⟩
  cases houtcome : draft.outcome with
  | error e =>
    rw [bind_of_error houtcome] at hpiece
    exact h.opens piece hpiece
  | ok a =>
    rw [bind_of_ok houtcome, List.head?_append] at hpiece
    rcases Option.or_eq_some_iff.1 hpiece with hfirst | ⟨-, hrest⟩
    · exact h.opens piece hfirst
    · exact (hnext a houtcome).opens piece hrest

/-- An answer writes nothing, so the steps behind it decide. -/
theorem spaced_lift {result : Except StatementError α} {next : α → Draft β}
    (h : ∀ a, result = .ok a → Spaced (next a)) : Spaced (lift result >>= next) := by
  cases hresult : result with
  | error e => exact .nil
  | ok a => exact h a hresult

section Sequence

variable {draft : Draft Unit} {next : Draft β}

theorem Spaced.seq (h : Spaced draft) (hnext : Behind next) :
    Spaced (draft >>= fun _ => next) :=
  spaced_bind h fun _ _ => hnext

theorem Behind.seq (h : Behind draft) (hnext : Behind next) :
    Behind (draft >>= fun _ => next) :=
  behind_bind h fun _ _ => hnext

/-- A text that ends between tokens, in front of any step. -/
theorem Spaced.after_raw {sql : String} (hsql : (Piece.raw sql).closes = true) (h : Spaced next) :
    Spaced (raw sql >>= fun _ => next) := by
  rw [raw_bind]
  exact List.IsChain.cons h fun _ _ => .inl hsql

/-- A text between two tokens. -/
theorem Spaced.behind_raw {sql : String}
    (hsql : ((Piece.raw sql).opens && (Piece.raw sql).closes) = true) (h : Spaced next) :
    Behind (raw sql >>= fun _ => next) := by
  obtain ⟨hopens, hcloses⟩ := Bool.and_eq_true_iff.1 hsql
  refine ⟨h.after_raw hcloses, fun piece hpiece => ?_⟩
  cases hpiece
  exact hopens

end Sequence

/-- A separator that is apart on both sides keeps the members of a list apart. -/
theorem spaced_separated {separator : String}
    (hsql : ((Piece.raw separator).opens && (Piece.raw separator).closes) = true)
    {drafts : List (Draft Unit)} (h : ∀ draft ∈ drafts, Spaced draft) :
    Spaced (separated separator drafts) := by
  induction drafts with
  | nil => exact .nil
  | cons draft rest ih =>
    cases rest with
    | nil => exact h draft (by simp)
    | cons second others =>
      rw [separated_cons_cons]
      have hrest := ih fun other hmem => h other (List.mem_cons_of_mem _ hmem)
      exact (h draft (by simp)).seq (hrest.behind_raw hsql)

theorem spaced_listed {γ : Type} {f : γ → Draft Unit} (xs : List γ) (h : ∀ x, Spaced (f x)) :
    Spaced (separated ", " (xs.map f)) :=
  spaced_separated (by decide) fun draft hmem => by
    obtain ⟨x, -, rfl⟩ := List.mem_map.1 hmem
    exact h x

theorem spaced_names (identifiers : List String) : Spaced (names identifiers) :=
  spaced_listed identifiers spaced_name

theorem spaced_placeholders (ps : List Parameter) : Spaced (placeholders ps) :=
  spaced_listed ps spaced_placeholder

theorem spaced_parenthesized (grouped : Bool) {draft : Draft Unit} (h : Spaced draft) :
    Spaced (parenthesized grouped draft) := by
  cases grouped with
  | false => exact h
  | true => exact (h.seq (behind_raw (by decide))).after_raw (by decide)

/-! ## Conditions -/

/-- Blanks stand around the sign of a comparison. -/
theorem spaced_compared (column : String) (op : Operator) (p : Parameter) :
    Spaced (compared column op p) := by
  refine (spaced_name column).seq ?_
  split
  · exact behind_raw (by decide)
  · exact behind_raw (by decide)
  · exact ((spaced_raw op.sql).seq
      ((spaced_placeholder p).behind_raw (by decide))).behind_raw (by decide)

theorem spaced_membership (column : String) {test : String}
    (htest : ((Piece.raw test).opens && (Piece.raw test).closes) = true) (ps : List Parameter) :
    Spaced (listed column test ps) :=
  (spaced_name column).seq
    (((spaced_placeholders ps).seq (behind_raw (by decide))).behind_raw htest)

theorem spaced_setTests (column : String) (elements : List Element) :
    ∀ test ∈ setTests column elements, Spaced test := by
  intro test hmem
  rcases mem_setTests.1 hmem with ⟨-, rfl⟩ | ⟨op, p, -, rfl⟩
  · exact spaced_membership column (by decide) _
  · exact spaced_compared column op p

theorem spaced_inSet (column : String) (negated : Bool) (elements : List Element) :
    Spaced (inSet column negated elements) := by
  by_cases h : elements.filterMap Element.predicate? = []
  · rw [inSet_of_literals column negated h]
    cases negated with
    | false => exact spaced_membership column (by decide) _
    | true => exact spaced_membership column (by decide) _
  · rw [inSet_of_predicates column negated h]
    have htests : Spaced (separated " OR " (setTests column elements)) :=
      spaced_separated (by decide) (spaced_setTests column elements)
    cases negated with
    | false => exact spaced_parenthesized _ htests
    | true => exact (spaced_parenthesized _ htests).after_raw (by decide)

theorem spaced_comparison (t : Table) (c : Comparison) : Spaced (comparison t c) := by
  refine spaced_lift fun column _ => ?_
  split
  · split
    · exact spaced_inSet column _ _
    · exact spaced_compared column c.op _
  · exact spaced_inSet column _ _

/-- The words between the parts of a group have blanks around them, so a condition of any depth
keeps its pieces apart. -/
theorem spaced_condition (t : Table) :
    (∀ nested node, Spaced (condition t nested node)) ∧
      ∀ nodes, ∀ draft ∈ conditions t nodes, Spaced draft := by
  refine condition_induct ?comparison ?empty ?group ?nil ?cons
  case comparison =>
    intro nested c
    rw [condition]
    exact spaced_comparison t c
  case empty =>
    intro nested k
    rw [condition_empty]
    exact spaced_raw _
  case group =>
    intro nested k children hne ih
    rw [condition_group t nested k hne]
    exact spaced_parenthesized _ (spaced_separated (by cases k <;> decide) ih)
  case nil =>
    intro draft hmem
    cases hmem
  case cons =>
    intro child rest ihChild ihRest draft hmem
    rw [conditions] at hmem
    rcases List.mem_cons.1 hmem with rfl | hmem
    · exact ihChild
    · exact ihRest draft hmem

/-- A restriction begins with a blank. -/
theorem behind_restriction (t : Table) (selection : Selection) :
    Behind (restriction t selection) := by
  cases selection with
  | everything => exact behind_pure ()
  | matching node => exact ((spaced_condition t).1 false node).behind_raw (by decide)

/-! ## Rows and columns -/

theorem spaced_directed (direction : Direction) (columns : List String) :
    Spaced (directed direction columns) :=
  spaced_listed columns fun column =>
    (spaced_name column).seq ((spaced_raw direction.sql).behind_raw (by decide))

/-- Terms behind others begin with a comma. -/
theorem behind_sortTerms (t : Table) (terms : List SortTerm) : Behind (sortTerms t true terms) := by
  induction terms with
  | nil => exact behind_pure ()
  | cons term rest ih =>
    rw [sortTerms]
    cases hcolumns : t.columnsOf term.key with
    | error e => exact ⟨.nil, by rintro _ ⟨⟩⟩
    | ok columns =>
      have hterms := (spaced_directed term.direction columns).seq ih
      exact hterms.behind_raw (by decide)

/-- The terms of an order are apart whatever their keys stand for. -/
theorem spaced_sortTerms (t : Table) (terms : List SortTerm) :
    Spaced (sortTerms t false terms) := by
  cases terms with
  | nil => exact .nil
  | cons term rest =>
    rw [sortTerms]
    exact spaced_lift fun columns _ =>
      (spaced_directed term.direction columns).seq (behind_sortTerms t rest)

/-- An order begins with a blank, if it writes anything. -/
theorem behind_ordering (t : Table) (order : SortOrder) : Behind (ordering t order) := by
  rcases order with _ | ⟨_ | ⟨term, rest⟩⟩
  · exact behind_pure ()
  · exact behind_pure ()
  · exact (spaced_sortTerms t (term :: rest)).behind_raw (by decide)

theorem behind_paging (d : Dialect) (limit : Limit) (offset : Offset) :
    Behind (paging d limit offset) := by
  unfold paging
  split
  · exact behind_pure ()
  · refine behind_raw ?_
    rw [Piece.opens, String.toList_append]
    rfl

/-- The clauses behind the name of a table. -/
theorem spaced_rows (d : Dialect) (t : Table) (selection : Selection) (order : SortOrder)
    (limit : Limit) (offset : Offset) : Spaced (rows d t selection order limit offset) :=
  (spaced_name t.name).seq ((behind_restriction t selection).seq
    ((behind_ordering t order).seq (behind_paging d limit offset)))

theorem spaced_projected (t : Table) (projection : Projection) :
    Spaced (projected t projection) := by
  refine spaced_lift fun columns _ => ?_
  cases columns with
  | none => exact spaced_raw _
  | some columns => exact spaced_names columns

end Draft

end DocumentQuery
