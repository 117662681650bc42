import DocumentQuery.Proofs.Draft.Condition
import DocumentQuery.Proofs.Selection.Shape

/-!
# Drafts side by side

Two drafts whose pieces are related one by one, and which end with related answers or with the
same fault. The relation goes through steps in a row as long as each answer is only looked at in a
way that the relation allows. Clauses for trees of the same form are related in this way: the text
is the same on both sides, and names and placeholders stand in the same places.
-/

namespace DocumentQuery
set_option autoImplicit false

namespace Draft

variable {α β γ δ : Type} {r : Piece → Piece → Prop} {s : α → β → Prop} {u : γ → δ → Prop}

/-! ## Steps in a row -/

/-- Pieces related by `r` in order, and answers related by `s` or the same fault. -/
structure Related (r : Piece → Piece → Prop) (s : α → β → Prop) (draft : Draft α)
    (other : Draft β) : Prop where
  pieces : List.Forall₂ r draft.pieces other.pieces
  outcome : Agree s draft.outcome other.outcome

theorem related_pure {a : α} {b : β} (h : s a b) :
    Related r s (pure a : Draft α) (pure b : Draft β) := ⟨.nil, .ok h⟩

theorem related_lift {result : Except StatementError α} {other : Except StatementError β}
    (h : Agree s result other) : Related r s (lift result) (lift other) := ⟨.nil, h⟩

theorem related_append {piece other : Piece} (h : r piece other) :
    Related r Eq (append piece) (append other) := ⟨.cons h .nil, .ok rfl⟩

/-- The next steps are compared only where the first ones end well. -/
theorem related_bind {draft : Draft α} {other : Draft β} (h : Related r s draft other)
    {next : α → Draft γ} {next' : β → Draft δ}
    (hnext : ∀ a b, s a b → Related r u (next a) (next' b)) :
    Related r u (draft >>= next) (other >>= next') := by
  have hpieces := h.pieces
  generalize hleft : draft.outcome = result
  generalize hright : other.outcome = result'
  have houtcome := h.outcome
  rw [hleft, hright] at houtcome
  cases houtcome with
  | error e =>
    rw [bind_of_error hleft, bind_of_error hright]
    exact ⟨hpieces, .error e⟩
  | ok hab =>
    have hrest := hnext _ _ hab
    rw [bind_of_ok hleft, bind_of_ok hright]
    exact ⟨List.rel_append hpieces hrest.pieces, hrest.outcome⟩

/-- Steps whose answers are not used. -/
theorem related_seq {draft other : Draft Unit} {next : Draft γ} {next' : Draft δ}
    (h : Related r Eq draft other) (hnext : Related r u next next') :
    Related r u (draft >>= fun _ => next) (other >>= fun _ => next') :=
  related_bind h fun _ _ _ => hnext

section Raw

variable (hraw : ∀ sql, r (.raw sql) (.raw sql))
include hraw

/-- The same text may stand in front of both drafts. -/
theorem related_raw_bind (sql : String) {next : Draft γ} {next' : Draft δ}
    (hnext : Related r u next next') :
    Related r u (raw sql >>= fun _ => next) (raw sql >>= fun _ => next') :=
  related_seq (related_append (hraw sql)) hnext

/-- Lists are related member by member, with the same separator. -/
theorem related_separated (separator : String) {drafts others : List (Draft Unit)}
    (h : List.Forall₂ (Related r Eq) drafts others) :
    Related r Eq (separated separator drafts) (separated separator others) := by
  induction h with
  | nil => exact related_pure rfl
  | cons hfirst hrest ih =>
    cases hrest with
    | nil => exact hfirst
    | cons hsecond hmore =>
      rw [separated_cons_cons, separated_cons_cons]
      exact related_seq hfirst (related_raw_bind hraw _ ih)

/-- Drafts of the members of two lists, with separators. -/
theorem related_separated_map (separator : String) {xs : List α} {ys : List β}
    (h : List.Forall₂ s xs ys) {f : α → Draft Unit} {g : β → Draft Unit}
    (hdraft : ∀ x y, s x y → Related r Eq (f x) (g y)) :
    Related r Eq (separated separator (xs.map f)) (separated separator (ys.map g)) :=
  related_separated hraw separator (List.rel_map (fun x y hxy => hdraft x y hxy) h)

theorem related_parenthesized (grouped : Bool) {draft other : Draft Unit}
    (h : Related r Eq draft other) :
    Related r Eq (parenthesized grouped draft) (parenthesized grouped other) := by
  cases grouped with
  | false => exact h
  | true => exact related_raw_bind hraw _ (related_seq h (related_append (hraw ")")))

end Raw

end Draft

/-! ## Pieces that differ in names and parameters -/

/-- The same piece, but for its name or its parameter. -/
inductive Piece.Rel (named : String → String → Prop) (same : Parameter → Parameter → Prop) :
    Piece → Piece → Prop where
  | raw (sql : String) : Rel named same (.raw sql) (.raw sql)
  | name {n n' : String} (h : named n n') : Rel named same (.name n) (.name n')
  | placeholder {p q : Parameter} (h : same p q) :
      Rel named same (.placeholder p) (.placeholder q)

/-- The same piece, but for the parameter of a placeholder. -/
abbrev Piece.Alike (same : Parameter → Parameter → Prop) : Piece → Piece → Prop :=
  Piece.Rel Eq same

/-- The same text, with parameters that are of the same kind in order. -/
structure Query.Alike (same : Parameter → Parameter → Prop) (q q' : Query) : Prop where
  sql : q.sql = q'.sql
  parameters : List.Forall₂ same q.parameters q'.parameters

/-! ## Tables -/

/-- The names in statements on a table that are not those of columns. -/
def Table.keptNames (t : Table) : List String := [t.name, "count", "bounded", "updated", "inserted"]

/-- Tables of the same name in which keys that `keyed` relates stand for columns that `named`
relates. -/
structure Table.Rel (keyed : Key → Key → Prop) (named : String → String → Prop) (t t' : Table) :
    Prop where
  name : t.name = t'.name
  kept : ∀ n ∈ t.keptNames, named n n
  column : ∀ k k', keyed k k' → Agree named (t.column k) (t'.column k')
  columnsOf : ∀ k k', keyed k k' → Agree (List.Forall₂ named) (t.columnsOf k) (t'.columnsOf k')

theorem Table.rel_refl (t : Table) : t.Rel Eq Eq t where
  name := rfl
  kept _ _ := rfl
  column := by
    rintro k _ rfl
    exact .refl _
  columnsOf := by
    rintro k _ rfl
    rw [List.forall₂_eq_eq_eq]
    exact .refl _

/-- Orders of related keys with the same directions. -/
inductive SortOrder.Rel (keyed : Key → Key → Prop) : SortOrder → SortOrder → Prop where
  | unspecified : Rel keyed .unspecified .unspecified
  | terms {ts ts' : List SortTerm}
      (h : List.Forall₂ (fun a b : SortTerm => keyed a.key b.key ∧ a.direction = b.direction)
        ts ts') :
      Rel keyed (.terms ts) (.terms ts')

theorem SortOrder.rel_refl (order : SortOrder) : order.Rel Eq order := by
  cases order with
  | unspecified => exact .unspecified
  | terms ts => exact .terms (List.forall₂_same.2 fun _ _ => ⟨rfl, rfl⟩)

section Clauses

variable {named : String → String → Prop} {same : Parameter → Parameter → Prop}

/-- Pieces that are related bind parameters that are, one by one. -/
theorem Query.rel_parameters (d : Dialect) {pieces others : List Piece}
    (h : List.Forall₂ (Piece.Rel named same) pieces others) :
    List.Forall₂ same (ofPieces d pieces).parameters (ofPieces d others).parameters := by
  refine List.rel_filterMap (fun piece other hrel => ?_) h
  cases hrel with
  | raw sql => exact .none
  | name hname => exact .none
  | placeholder hpq => exact .some hpq

/-- Pieces alike have the same text and parameters alike. -/
theorem Query.alike_ofPieces (d : Dialect) {pieces others : List Piece}
    (h : List.Forall₂ (Piece.Alike same) pieces others) :
    (ofPieces d pieces).Alike same (ofPieces d others) := by
  refine ⟨?_, rel_parameters d h⟩
  have htexts : others.map (Piece.sql d) = pieces.map (Piece.sql d) := by
    refine map_eq_of_forall₂ (h.imp fun piece other halike => ?_)
    cases halike with
    | raw sql => rfl
    | name hname => rw [hname]
    | placeholder hpq => rfl
  rw [ofPieces, ofPieces, htexts]

namespace Draft

/-- Drafts alike give the same fault, or queries alike. -/
theorem agree_query (d : Dialect) {draft other : Draft Unit}
    (h : Related (Piece.Alike same) Eq draft other) :
    Agree (Query.Alike same) (draft.query d) (other.query d) := by
  have halike := Query.alike_ofPieces d h.pieces
  refine h.outcome.map fun _ _ _ => ⟨?_, halike.parameters⟩
  rw [Query.finished, Query.finished, halike.sql]

/-! ## Conditions -/

section Trees

variable {t t' : Table} {r : Comparison → Comparison → Prop}
  (hcomparison : ∀ c c', r c c' →
    Related (Piece.Rel named same) Eq (comparison t c) (comparison t' c'))
include hcomparison

/-- Trees of the same form, with comparisons in the same places that are written alike, have
conditions that are written alike. -/
theorem related_condition :
    (∀ nested node, ∀ other, node.Rel r other →
      Related (Piece.Rel named same) Eq (condition t nested node) (condition t' nested other)) ∧
    ∀ nodes, ∀ others, List.Forall₂ (Node.Rel r) nodes others →
      List.Forall₂ (Related (Piece.Rel named same) Eq) (conditions t nodes)
        (conditions t' others) := by
  have hothers : ∀ {nodes others}, List.Forall₂ (Node.Rel r) nodes others →
      nodes ≠ [] → others ≠ [] := by
    rintro _ _ h hne rfl
    exact hne (List.forall₂_nil_right_iff.1 h)
  refine condition_induct ?comparison ?empty ?group ?nil ?cons
  case comparison =>
    intro nested c other h
    cases h with
    | comparison h =>
    rw [condition, condition]
    exact hcomparison _ _ h
  case empty =>
    intro nested k other h
    obtain ⟨others, rfl, hnone⟩ := Node.rel_node.1 h
    cases hnone
    rw [condition_empty, condition_empty]
    exact related_append (.raw k.emptySql)
  case group =>
    intro nested k children hne ih other h
    obtain ⟨others, rfl, hchildren⟩ := Node.rel_node.1 h
    rw [condition_group t nested k hne, condition_group t' nested k (hothers hchildren hne),
      hchildren.length_eq]
    exact related_parenthesized .raw _ (related_separated .raw k.sql (ih _ hchildren))
  case nil =>
    intro others h
    cases h
    exact .nil
  case cons =>
    intro child rest ihChild ihRest others h
    cases h with
    | cons hchild hrest =>
    rw [conditions, conditions]
    exact .cons (ihChild _ hchild) (ihRest _ hrest)

/-- Restrictions are related where their trees are. -/
theorem related_restriction {selection other : Selection} (h : selection.Rel r other) :
    Related (Piece.Rel named same) Eq (restriction t selection) (restriction t' other) := by
  cases h with
  | everything => exact related_pure rfl
  | matching h => exact related_raw_bind .raw _ ((related_condition hcomparison).1 false _ _ h)

end Trees

section Sets

variable {elements others : List Element} (h : List.Forall₂ (Element.Alike same) elements others)
include h

theorem rel_literals :
    List.Forall₂ same (elements.filterMap Element.literal?)
      (others.filterMap Element.literal?) := by
  refine List.rel_filterMap (fun element other halike => ?_) h
  cases halike with
  | literal hpq => exact .some hpq
  | predicate hpq => exact .none

theorem rel_predicates :
    List.Forall₂ (fun a b : Operator × Parameter => a.1 = b.1 ∧ same a.2 b.2)
      (elements.filterMap Element.predicate?) (others.filterMap Element.predicate?) := by
  refine List.rel_filterMap (fun element other halike => ?_) h
  cases halike with
  | literal hpq => exact .none
  | predicate hpq => exact .some ⟨rfl, hpq⟩

end Sets

theorem related_name {n n' : String} (h : named n n') :
    Related (Piece.Rel named same) Eq (name n) (name n') := related_append (.name h)

theorem related_placeholders {ps qs : List Parameter} (h : List.Forall₂ same ps qs) :
    Related (Piece.Rel named same) Eq (placeholders ps) (placeholders qs) :=
  related_separated_map .raw ", " h fun _ _ hpq => related_append (.placeholder hpq)

section Comparisons

variable {column column' : String} (hcolumn : named column column')
include hcolumn

/-- Whether a comparison tests for null is seen from the kind of its parameter. -/
theorem related_compared (hsame : Parameter.SameKind same) (op : Operator) {p q : Parameter}
    (h : same p q) :
    Related (Piece.Rel named same) Eq (compared column op p) (compared column' op q) := by
  have hnull : p = .null ↔ q = .null := by
    rw [Parameter.eq_null_iff_kind, Parameter.eq_null_iff_kind, hsame.kind_eq p q h]
  have hvalue : Related (Piece.Rel named same) Eq
      (name column >>= fun _ => raw " " >>= fun _ => raw op.sql >>= fun _ => raw " " >>= fun _ =>
        placeholder p)
      (name column' >>= fun _ => raw " " >>= fun _ => raw op.sql >>= fun _ => raw " " >>= fun _ =>
        placeholder q) := by
    refine related_seq (related_name hcolumn) (related_raw_bind .raw _ ?_)
    exact related_raw_bind .raw _ (related_raw_bind .raw _ (related_append (.placeholder h)))
  by_cases hp : p = .null
  · obtain rfl : q = p := (hnull.1 hp).trans hp.symm
    subst hp
    cases op with
    | eq => exact related_seq (related_name hcolumn) (related_append (.raw " IS NULL"))
    | ne => exact related_seq (related_name hcolumn) (related_append (.raw " IS NOT NULL"))
    | _ => exact hvalue
  · have hq : q ≠ .null := fun hq => hp (hnull.2 hq)
    rw [compared_of_value column (fun _ => hp) fun _ => hp,
      compared_of_value column' (fun _ => hq) fun _ => hq]
    exact hvalue

theorem related_listed (test : String) {ps qs : List Parameter} (h : List.Forall₂ same ps qs) :
    Related (Piece.Rel named same) Eq (listed column test ps) (listed column' test qs) := by
  refine related_seq (related_name hcolumn) (related_raw_bind .raw _ ?_)
  exact related_seq (related_placeholders h) (related_append (.raw ")"))

variable (hsame : Parameter.SameKind same) {elements others : List Element}
  (h : List.Forall₂ (Element.Alike same) elements others)
include hsame h

theorem related_setTests :
    List.Forall₂ (Related (Piece.Rel named same) Eq) (setTests column elements)
      (setTests column' others) := by
  have hliterals := rel_literals h
  refine List.rel_append ?_ (List.rel_map ?_ (rel_predicates h))
  · generalize elements.filterMap Element.literal? = ps,
      others.filterMap Element.literal? = qs at hliterals ⊢
    cases hliterals with
    | nil => exact .nil
    | cons hfirst hrest =>
      exact .cons (related_listed hcolumn " IN (" (.cons hfirst hrest)) .nil
  · rintro ⟨op, p⟩ ⟨_, q⟩ ⟨rfl, hpq⟩
    exact related_compared hcolumn hsame op hpq

/-- Tests for related sets have one form, as they have as many tests. -/
theorem related_inSet (negated : Bool) :
    Related (Piece.Rel named same) Eq (inSet column negated elements)
      (inSet column' negated others) := by
  have htests := related_setTests hcolumn hsame h
  have hempty : elements.filterMap Element.predicate? = []
      ↔ others.filterMap Element.predicate? = [] := by
    rw [← List.length_eq_zero_iff, ← List.length_eq_zero_iff, (rel_predicates h).length_eq]
  by_cases hnone : elements.filterMap Element.predicate? = []
  · rw [inSet_of_literals column negated hnone, inSet_of_literals column' negated (hempty.1 hnone)]
    exact related_listed hcolumn _ (rel_literals h)
  · rw [inSet_of_predicates column negated hnone,
      inSet_of_predicates column' negated (mt hempty.2 hnone), htests.length_eq]
    have hset := related_parenthesized .raw (negated || 1 < (setTests column' others).length)
      (related_separated .raw " OR " htests)
    cases negated with
    | false => exact hset
    | true => exact related_raw_bind .raw _ hset

end Comparisons

/-- Comparisons by the same operator of columns that `named` relates. -/
theorem related_comparison (hsame : Parameter.SameKind same) {t t' : Table} {c c' : Comparison}
    (hop : c.op = c'.op) (hcolumn : Agree named (t.column c.key) (t'.column c'.key))
    (hoperand : c.operand.Alike same c'.operand) :
    Related (Piece.Rel named same) Eq (comparison t c) (comparison t' c') := by
  obtain ⟨op, key, operand⟩ := c
  obtain ⟨_, key', operand'⟩ := c'
  obtain rfl := hop
  refine related_bind (related_lift hcolumn) fun column column' hnamed => ?_
  cases hoperand with
  | values h => exact related_inSet hnamed hsame h _
  | value h =>
    simp only
    split
    · exact related_inSet hnamed hsame (.cons (.literal h) .nil) _
    · exact related_compared hnamed hsame op h

/-! ## Clauses -/

theorem related_names {columns others : List String} (h : List.Forall₂ named columns others) :
    Related (Piece.Rel named same) Eq (names columns) (names others) :=
  related_separated_map .raw ", " h fun _ _ hname => related_name hname

/-- Projections are related where the columns that they pick are, or where both fail alike. -/
theorem related_projected {t t' : Table} {projection other : Projection}
    (h : Agree (Option.Rel (List.Forall₂ named)) (projection.columns t) (other.columns t')) :
    Related (Piece.Rel named same) Eq (projected t projection) (projected t' other) := by
  refine related_bind (related_lift h) fun columns others hcolumns => ?_
  cases hcolumns with
  | none => exact related_append (.raw "*")
  | some hcolumns => exact related_names hcolumns

theorem related_directed (same : Parameter → Parameter → Prop) (direction : Direction)
    {columns others : List String}
    (h : List.Forall₂ named columns others) :
    Related (Piece.Rel named same) Eq (directed direction columns) (directed direction others) :=
  related_separated_map .raw ", " h fun _ _ hname =>
    related_seq (related_name hname) (related_raw_bind .raw _ (related_append (.raw _)))

section Tables

variable {keyed : Key → Key → Prop} {t t' : Table} (htable : t.Rel keyed named t')
include htable

/-- Terms are related where their keys stand for related columns. -/
theorem related_sortTerms (more : Bool) {ts ts' : List SortTerm}
    (h : List.Forall₂ (fun a b : SortTerm => keyed a.key b.key ∧ a.direction = b.direction) ts
      ts') :
    Related (Piece.Rel named same) Eq (sortTerms t more ts) (sortTerms t' more ts') := by
  induction h generalizing more with
  | nil => exact related_pure rfl
  | @cons a b _ _ hterm _ ih =>
    obtain ⟨hkey, hdirection⟩ := hterm
    rw [sortTerms, sortTerms, ← hdirection]
    refine related_bind (related_lift (htable.columnsOf _ _ hkey)) fun _ _ hcolumns => ?_
    have hterms := related_seq (related_directed same a.direction hcolumns) (ih true)
    cases more with
    | false => exact hterms
    | true => exact related_raw_bind .raw _ hterms

/-- Orders are related term by term. -/
theorem related_ordering {order other : SortOrder} (h : order.Rel keyed other) :
    Related (Piece.Rel named same) Eq (ordering t order) (ordering t' other) := by
  cases h with
  | unspecified => exact related_pure rfl
  | terms h =>
    cases h with
    | nil => exact related_pure rfl
    | cons hfirst hrest =>
      exact related_raw_bind .raw _ (related_sortTerms htable false (.cons hfirst hrest))

omit htable in
/-- A page has neither names nor parameters, so it is related to itself. -/
theorem related_paging (d : Dialect) (limit : Limit) (offset : Offset) :
    Related (Piece.Rel named same) Eq (paging d limit offset) (paging d limit offset) := by
  unfold paging
  split
  · exact related_pure rfl
  · exact related_append (.raw _)

/-- The clauses that pick rows are written alike. -/
theorem related_rows (hsame : Parameter.SameKind same) (d : Dialect) {selection other : Selection}
    (hselection : selection.Rel (Comparison.Rel keyed same) other) {order order' : SortOrder}
    (horder : order.Rel keyed order') (limit : Limit) (offset : Offset) :
    Related (Piece.Rel named same) Eq (rows d t selection order limit offset)
      (rows d t' other order' limit offset) := by
  have hcomparison : ∀ c c' : Comparison, c.Rel keyed same c' →
      Related (Piece.Rel named same) Eq (comparison t c) (comparison t' c') := fun _ _ h =>
    related_comparison hsame h.op (htable.column _ _ h.key) h.operand
  have hname : named t.name t'.name := htable.name ▸ htable.kept t.name (by simp [Table.keptNames])
  refine related_seq (related_name hname) (related_seq ?_ ?_)
  · exact related_restriction hcomparison hselection
  · exact related_seq (related_ordering htable horder) (related_paging d limit offset)

end Tables

end Draft

end Clauses

end DocumentQuery
