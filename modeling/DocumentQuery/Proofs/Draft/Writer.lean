import DocumentQuery.Proofs.Draft.Clauses

/-!
# Writers

A statement can be written by changing one query in place: each action looks at nothing but its
arguments, but it is free to do as it likes with what stands there already. The actions below do
what the clauses of a draft describe. `Writes` says that an action, whatever was written before,
appends the pieces of a draft and ends as the draft does; it goes through actions in a row and
through loops, so it holds of every clause.
-/

namespace DocumentQuery
set_option autoImplicit false

namespace Query

/-- Nothing is written yet. -/
def blank : Query := ⟨"", []⟩

/-- Queries stand behind each other as texts and as lists of parameters, both of which can be
bracketed either way. -/
theorem append_assoc (q r s : Query) : q ++ r ++ s = q ++ (r ++ s) := by
  show Query.mk _ _ = Query.mk _ _
  simp [String.append_assoc]

@[simp] theorem append_blank (q : Query) : q ++ blank = q := by
  show Query.mk _ _ = q
  simp [blank]

@[simp] theorem blank_append (q : Query) : blank ++ q = q := by
  show Query.mk _ _ = q
  simp [blank]

@[simp] theorem ofPieces_nil (d : Dialect) : ofPieces d [] = blank := rfl

end Query

/-- An action on what is written so far; where it fails, what it wrote stays. -/
abbrev Writer (α : Type) := ExceptT StatementError (StateM Query) α

namespace Writer

variable {α β : Type}

/-- An action on a query: how it ends, and what is written then. -/
def run (w : Writer α) (before : Query) : Except StatementError α × Query :=
  Id.run (StateT.run (ExceptT.run w) before)

/-! ## The actions -/

def raw (sql : String) : Writer Unit := modify fun q => { q with sql := q.sql ++ sql }

def name (d : Dialect) (identifier : String) : Writer Unit := raw (d.quoted identifier)

/-- The mark in the text first, then the parameter. -/
def placeholder (p : Parameter) : Writer Unit := do
  raw "?"
  modify fun q => { q with parameters := q.parameters ++ [p] }

/-- Writes nothing and ends as `result` says. -/
def answer (result : Except StatementError α) : Writer α := ExceptT.mk (pure result)

/-- An action for each item, with the separator in front of it if something stands before; `more`
tells whether something does at the start, the answer whether something does at the end. -/
def each (separator : String) (action : α → Writer Unit) (more : Bool) : List α → Writer Bool
  | [] => pure more
  | item :: rest => do
    if more then raw separator
    action item
    each separator action true rest

def names (d : Dialect) (identifiers : List String) : Writer Unit :=
  discard (each ", " (name d) false identifiers)

def placeholders (ps : List Parameter) : Writer Unit :=
  discard (each ", " placeholder false ps)

def parenthesized (grouped : Bool) (w : Writer Unit) : Writer Unit := do
  if grouped then raw "("
  w
  if grouped then raw ")"

def compared (d : Dialect) (column : String) (op : Operator) (p : Parameter) : Writer Unit := do
  name d column
  match op, p with
  | .eq, .null => raw " IS NULL"
  | .ne, .null => raw " IS NOT NULL"
  | _, _ => do
    raw " "
    raw op.sql
    raw " "
    placeholder p

def listed (d : Dialect) (column test : String) (ps : List Parameter) : Writer Unit := do
  name d column
  raw test
  placeholders ps
  raw ")"

/-- The tests of a set: its literals together, if there are any, and then its comparisons. -/
def setTests (d : Dialect) (column : String) (literals : List Parameter)
    (predicates : List (Operator × Parameter)) : Writer Unit := do
  if !literals.isEmpty then listed d column " IN (" literals
  discard (each " OR " (fun (op, p) => compared d column op p) (!literals.isEmpty) predicates)

def inSet (d : Dialect) (column : String) (negated : Bool) (elements : List Element) :
    Writer Unit :=
  let literals := elements.filterMap Element.literal?
  let predicates := elements.filterMap Element.predicate?
  if predicates.isEmpty then
    listed d column (if negated then " NOT IN (" else " IN (") literals
  else do
    let parts := (if literals.isEmpty then 0 else 1) + predicates.length
    if negated then raw "NOT "
    parenthesized (negated || 1 < parts) (setTests d column literals predicates)

/-- The column is asked for before anything is written. -/
def comparison (d : Dialect) (t : Table) (c : Comparison) : Writer Unit := do
  let column ← answer (t.column c.key)
  match c.operand with
  | .value p =>
    if c.op.isMembership then inSet d column (c.op == .noneOf) [.literal p]
    else compared d column c.op p
  | .values elements => inSet d column (c.op == .noneOf) elements

mutual

def condition (d : Dialect) (t : Table) (nested : Bool) : Node → Writer Unit
  | .comparison c => comparison d t c
  | .and [] => raw "1 = 1"
  | .or [] => raw "1 = 0"
  | .and children =>
    parenthesized (nested && 1 < children.length) (conditions d t " AND " false children)
  | .or children =>
    parenthesized (nested && 1 < children.length) (conditions d t " OR " false children)

/-- The conditions of trees one behind the other; `more` tells whether something stands before. -/
def conditions (d : Dialect) (t : Table) (separator : String) (more : Bool) :
    List Node → Writer Unit
  | [] => pure ()
  | child :: rest => do
    if more then raw separator
    condition d t true child
    conditions d t separator true rest

end

theorem condition_empty (d : Dialect) (t : Table) (nested : Bool) (k : Connective) :
    condition d t nested (k.node []) = raw k.emptySql := by
  cases k <;> simp only [Connective.node, Connective.emptySql, condition]

/-- A group is its members with the word between them, in parentheses where it stands in another
group and has several. -/
theorem condition_group (d : Dialect) (t : Table) (nested : Bool) (k : Connective)
    {children : List Node} (h : children ≠ []) :
    condition d t nested (k.node children)
      = parenthesized (nested && 1 < children.length) (conditions d t k.sql false children) := by
  cases k with
  | and =>
    rw [Connective.node, condition]
    · rfl
    · exact h
  | or =>
    rw [Connective.node, condition]
    · rfl
    · exact h

def restriction (d : Dialect) (t : Table) : Selection → Writer Unit
  | .everything => pure ()
  | .matching node => do
    raw " WHERE "
    condition d t false node

def directed (d : Dialect) (direction : Direction) (column : String) : Writer Unit := do
  name d column
  raw " "
  raw direction.sql

/-- The columns of a term; whether a separator is due goes from one term to the next. -/
def sortTerm (d : Dialect) (t : Table) (more : Bool) (term : SortTerm) : Writer Bool := do
  let columns ← answer (t.columnsOf term.key)
  each ", " (directed d term.direction) more columns

def ordering (d : Dialect) (t : Table) : SortOrder → Writer Unit
  | .unspecified | .terms [] => pure ()
  | .terms ts => do
    raw " ORDER BY "
    discard (ts.foldlM (sortTerm d t) false)

def paging (d : Dialect) (limit : Limit) (offset : Offset) : Writer Unit :=
  match d.paging? limit offset with
  | none => pure ()
  | some clause => do
    raw " "
    raw clause

def row (d : Dialect) (t : Table) (values : Assignments) : Writer Unit := do
  raw "INSERT INTO "
  name d t.name
  raw " ("
  names d (values.map (·.1))
  raw ") VALUES ("
  placeholders (values.map (·.2))
  raw ")"

def subselect (d : Dialect) (t : Table) (columns : String) (s : Delete) : Writer Unit := do
  raw "SELECT "
  raw columns
  raw " FROM "
  name d t.name
  restriction d t s.selection
  ordering d t s.order
  paging d s.limit ⟨none⟩

/-! ## Runs -/

theorem run_pure (a : α) (before : Query) : (pure a : Writer α).run before = (.ok a, before) := rfl

theorem run_answer (result : Except StatementError α) (before : Query) :
    (answer result).run before = (result, before) := rfl

theorem run_raw (sql : String) (before : Query) :
    (raw sql).run before = (.ok (), { before with sql := before.sql ++ sql }) := rfl

/-- The second action goes on from what the first has written, unless that one fails. -/
theorem run_bind (w : Writer α) (next : α → Writer β) (before : Query) :
    (w >>= next).run before
      = match w.run before with
        | (.ok a, after) => (next a).run after
        | (.error e, after) => (.error e, after) := by
  simp only [run, ExceptT.run_bind, StateT.run_bind]
  cases h : StateT.run (ExceptT.run w) before with
  | mk result after => cases result <;> rfl

end Writer

namespace Draft

variable {α β : Type}

theorem bind_pure (draft : Draft α) : (draft >>= fun a => pure a) = draft := by
  cases h : draft.outcome with
  | error e =>
    rw [bind_of_error h, ← h]
  | ok a =>
    rw [bind_of_ok h, pure_eq, List.append_nil, ← h]

/-- Drafts with a separator in front of each. -/
def continued (separator : String) : List (Draft Unit) → Draft Unit
  | [] => pure ()
  | draft :: rest => do
    raw separator
    draft
    continued separator rest

theorem separated_cons (separator : String) (draft : Draft Unit) (rest : List (Draft Unit)) :
    separated separator (draft :: rest) = draft >>= fun _ => continued separator rest := by
  induction rest generalizing draft with
  | nil => exact (bind_pure draft).symm
  | cons second others ih => rw [separated_cons_cons, ih, continued]

/-- A term resolves its key before it writes anything. -/
theorem sortTerms_cons (t : Table) (more : Bool) (term : SortTerm) (rest : List SortTerm) :
    sortTerms t more (term :: rest) = (do
      let columns ← lift (t.columnsOf term.key)
      (if more then raw ", " else pure ())
      directed term.direction columns
      sortTerms t true rest) := by
  rw [sortTerms]
  cases more <;> rfl

end Draft

namespace Writer

variable {α β : Type} {d : Dialect}

/-! ## Actions that write drafts -/

/-- Whatever was written before, the action appends the pieces of the draft, up to its fault if it
has one, and ends as the draft does. -/
def Writes (d : Dialect) (w : Writer α) (draft : Draft α) : Prop :=
  ∀ before, w.run before = (draft.outcome, before ++ Query.ofPieces d draft.pieces)

theorem writes_pure (a : α) : Writes d (pure a) (pure a) := by
  intro before
  rw [run_pure, Draft.pure_eq, Query.ofPieces_nil, Query.append_blank]

theorem writes_answer (result : Except StatementError α) :
    Writes d (answer result) (.lift result) := by
  intro before
  rw [run_answer, Draft.pieces_lift, Query.ofPieces_nil, Query.append_blank, Draft.outcome_lift]

/-- An action that puts the text and the parameter of a piece behind what is there. -/
theorem writes_append {w : Writer Unit} {piece : Piece}
    (h : ∀ before, w.run before
      = (.ok (), ⟨before.sql ++ piece.sql d, before.parameters ++ piece.parameter?.toList⟩)) :
    Writes d w (.append piece) := by
  intro before
  have hpiece : Query.ofPieces d [piece] = ⟨piece.sql d, piece.parameter?.toList⟩ := by
    cases piece <;> simp [Query.ofPieces, Piece.parameter?]
  rw [h]
  show _ = (_, before ++ Query.ofPieces d [piece])
  rw [hpiece]
  rfl

theorem writes_raw (sql : String) : Writes d (raw sql) (.raw sql) :=
  writes_append fun before => by rw [run_raw]; simp [Piece.sql, Piece.parameter?]

theorem writes_name (identifier : String) : Writes d (name d identifier) (.name identifier) :=
  writes_append fun before => by rw [name, run_raw]; simp [Piece.sql, Piece.parameter?]

theorem writes_placeholder (p : Parameter) : Writes d (placeholder p) (.placeholder p) :=
  writes_append fun _ => rfl

/-- Actions in a row write drafts in a row; the second action is only asked for where the first
ends well. -/
theorem writes_bind {w : Writer α} {draft : Draft α} (h : Writes d w draft)
    {next : α → Writer β} {rest : α → Draft β}
    (hnext : ∀ a, draft.outcome = .ok a → Writes d (next a) (rest a)) :
    Writes d (w >>= next) (draft >>= rest) := by
  intro before
  rw [run_bind, h before]
  cases hend : draft.outcome with
  | error e => rw [Draft.bind_of_error hend]
  | ok a =>
    rw [Draft.bind_of_ok hend, Query.ofPieces_append, ← Query.append_assoc]
    exact hnext a hend _

/-- An action whose answer is not used. -/
theorem writes_seq {w : Writer Unit} {draft : Draft Unit} (h : Writes d w draft)
    {next : Writer β} {rest : Draft β} (hnext : Writes d next rest) :
    Writes d (w >>= fun _ => next) (draft >>= fun _ => rest) :=
  writes_bind h fun _ _ => hnext

/-- The answer of an action thrown away. -/
theorem writes_discard {w : Writer α} {draft : Draft Unit} (a : α)
    (h : Writes d w (draft >>= fun _ => pure a)) : Writes d (discard w) draft := by
  have hunit : (draft >>= fun _ => pure a) >>= (fun _ => pure ()) = draft := by
    rw [Draft.bind_assoc]
    exact Draft.bind_pure draft
  rw [← hunit]
  exact writes_bind h fun _ _ => writes_pure ()

theorem writes_parenthesized (grouped : Bool) {w : Writer Unit} {draft : Draft Unit}
    (h : Writes d w draft) : Writes d (parenthesized grouped w) (.parenthesized grouped draft) := by
  cases grouped with
  | false =>
    have hdraft : draft = pure () >>= fun _ => draft >>= fun _ => pure () :=
      (Draft.bind_pure draft).symm
    rw [Draft.parenthesized, if_neg Bool.false_ne_true, hdraft]
    exact writes_seq (writes_pure ()) (writes_seq h (writes_pure ()))
  | true => exact writes_seq (writes_raw "(") (writes_seq h (writes_raw ")"))

/-! ## Loops -/

/-- A loop under way puts a separator in front of each item. -/
theorem writes_each_of_more (separator : String) {action : α → Writer Unit} {f : α → Draft Unit}
    (h : ∀ x, Writes d (action x) (f x)) (xs : List α) :
    Writes d (each separator action true xs)
      (Draft.continued separator (xs.map f) >>= fun _ => pure true) := by
  induction xs with
  | nil => exact writes_pure true
  | cons x rest ih =>
    have hrest : Writes d (each separator action true (x :: rest))
        (.raw separator >>= fun _ => f x >>= fun _ =>
          Draft.continued separator (rest.map f) >>= fun _ => pure true) :=
      writes_seq (writes_raw separator) (writes_seq (h x) ih)
    rw [List.map_cons, Draft.continued, Draft.bind_assoc]
    simp only [Draft.bind_assoc]
    exact hrest

/-- A loop that starts writes a list, unless there are no items. -/
theorem writes_each_cons (separator : String) {action : α → Writer Unit} {f : α → Draft Unit}
    (h : ∀ x, Writes d (action x) (f x)) (x : α) (rest : List α) :
    Writes d (each separator action false (x :: rest))
      (Draft.separated separator ((x :: rest).map f) >>= fun _ => pure true) := by
  have hrest : Writes d (each separator action false (x :: rest))
      (pure () >>= fun _ => f x >>= fun _ =>
        Draft.continued separator (rest.map f) >>= fun _ => pure true) :=
    writes_seq (writes_pure ()) (writes_seq (h x) (writes_each_of_more separator h rest))
  rw [List.map_cons, Draft.separated_cons, Draft.bind_assoc]
  exact hrest

/-- A loop over the members of a list writes them with the separator between each two. -/
theorem writes_each (separator : String) {action : α → Writer Unit} {f : α → Draft Unit}
    (h : ∀ x, Writes d (action x) (f x)) (xs : List α) :
    Writes d (discard (each separator action false xs)) (.separated separator (xs.map f)) := by
  cases xs with
  | nil => exact writes_discard false (writes_pure false)
  | cons x rest => exact writes_discard true (writes_each_cons separator h x rest)

theorem writes_names (identifiers : List String) :
    Writes d (names d identifiers) (.names identifiers) :=
  writes_each ", " writes_name identifiers

theorem writes_placeholders (ps : List Parameter) :
    Writes d (placeholders ps) (.placeholders ps) :=
  writes_each ", " writes_placeholder ps

/-! ## Conditions -/

theorem writes_compared (column : String) (op : Operator) (p : Parameter) :
    Writes d (compared d column op p) (.compared column op p) := by
  have hbound : Writes d (do raw " "; raw op.sql; raw " "; placeholder p)
      (do .raw " "; .raw op.sql; .raw " "; .placeholder p) :=
    writes_seq (writes_raw " ") (writes_seq (writes_raw op.sql)
      (writes_seq (writes_raw " ") (writes_placeholder p)))
  refine writes_seq (writes_name column) ?_
  cases p with
  | null =>
    cases op with
    | eq => exact writes_raw " IS NULL"
    | ne => exact writes_raw " IS NOT NULL"
    | _ => exact hbound
  | _ => cases op <;> exact hbound

theorem writes_listed (column test : String) (ps : List Parameter) :
    Writes d (listed d column test ps) (.listed column test ps) :=
  writes_seq (writes_name column) (writes_seq (writes_raw test)
    (writes_seq (writes_placeholders ps) (writes_raw ")")))

/-- The literals come first; whether there are any decides about the separator behind them. -/
theorem writes_setTests (column : String) (elements : List Element) :
    Writes d (setTests d column (elements.filterMap Element.literal?)
        (elements.filterMap Element.predicate?))
      (.separated " OR " (Draft.setTests column elements)) := by
  have hpredicate : ∀ x : Operator × Parameter,
      Writes d (compared d column x.1 x.2) (.compared column x.1 x.2) :=
    fun x => writes_compared column x.1 x.2
  cases hnone : (elements.filterMap Element.literal?).isEmpty with
  | true =>
    have htests : Draft.setTests column elements
        = (elements.filterMap Element.predicate?).map fun x => .compared column x.1 x.2 := by
      rw [Draft.setTests, hnone]
      rfl
    rw [htests, setTests, hnone]
    exact writes_seq (writes_pure ()) (writes_each " OR " hpredicate _)
  | false =>
    have htests : Draft.setTests column elements
        = .listed column " IN (" (elements.filterMap Element.literal?)
          :: (elements.filterMap Element.predicate?).map fun x => .compared column x.1 x.2 := by
      rw [Draft.setTests, hnone]
      rfl
    rw [htests, Draft.separated_cons, setTests, hnone]
    exact writes_seq (writes_listed column " IN (" _)
      (writes_discard true (writes_each_of_more " OR " hpredicate _))

/-- A test for a set writes the one list or the choice among its tests. -/
theorem writes_inSet (column : String) (negated : Bool) (elements : List Element) :
    Writes d (inSet d column negated elements) (.inSet column negated elements) := by
  by_cases hnone : elements.filterMap Element.predicate? = []
  · rw [Draft.inSet_of_literals column negated hnone, inSet, if_pos (by simp [hnone])]
    exact writes_listed column _ _
  · have hparts : (Draft.setTests column elements).length
        = (if (elements.filterMap Element.literal?).isEmpty then 0 else 1)
          + (elements.filterMap Element.predicate?).length := by
      rw [Draft.setTests]
      split <;> simp [Nat.add_comm]
    have hgroup := fun grouped => writes_parenthesized (d := d) grouped
      (writes_setTests column elements)
    rw [Draft.inSet_of_predicates column negated hnone, hparts, inSet,
      if_neg (by simpa using hnone)]
    cases negated with
    | false => exact writes_seq (writes_pure ()) (hgroup _)
    | true => exact writes_seq (writes_raw "NOT ") (hgroup _)

/-- A comparison resolves its key and then writes the test of its operand. -/
theorem writes_comparison (t : Table) (c : Comparison) :
    Writes d (comparison d t c) (.comparison t c) := by
  obtain ⟨op, key, operand⟩ := c
  refine writes_bind (writes_answer (t.column key)) fun column _ => ?_
  cases operand with
  | values elements => exact writes_inSet column _ elements
  | value p =>
    simp only
    split
    · exact writes_inSet column _ [.literal p]
    · exact writes_compared column op p

/-- Conditions behind others have a separator in front of each, and conditions at the start are a
list. -/
theorem writes_condition (t : Table) :
    (∀ nested node, Writes d (condition d t nested node) (.condition t nested node)) ∧
      ∀ nodes separator,
        Writes d (conditions d t separator true nodes)
            (.continued separator (Draft.conditions t nodes)) ∧
          Writes d (conditions d t separator false nodes)
            (.separated separator (Draft.conditions t nodes)) := by
  refine Draft.condition_induct ?comparison ?empty ?group ?nil ?cons
  case comparison =>
    intro nested c
    rw [condition, Draft.condition]
    exact writes_comparison t c
  case empty =>
    intro nested k
    rw [condition_empty, Draft.condition_empty]
    exact writes_raw k.emptySql
  case group =>
    intro nested k children hne ih
    rw [condition_group d t nested k hne, Draft.condition_group t nested k hne]
    exact writes_parenthesized _ (ih k.sql).2
  case nil =>
    intro separator
    rw [conditions, conditions, Draft.conditions]
    exact ⟨writes_pure (), writes_pure ()⟩
  case cons =>
    intro child rest ihChild ihRest separator
    rw [conditions, conditions, Draft.conditions, Draft.separated_cons, Draft.continued]
    have hchild := writes_seq ihChild (ihRest separator).1
    exact ⟨writes_seq (writes_raw separator) hchild, writes_seq (writes_pure ()) hchild⟩

/-- A restriction writes nothing for every row, and otherwise the condition behind its word. -/
theorem writes_restriction (t : Table) (selection : Selection) :
    Writes d (restriction d t selection) (.restriction t selection) := by
  cases selection with
  | everything => exact writes_pure ()
  | matching node => exact writes_seq (writes_raw " WHERE ") ((writes_condition t).1 false node)

/-! ## Order, paging and rows -/

/-- The loop over the columns of a term writes them with its direction, and knows afterwards that
something stands before. -/
theorem writes_directed (direction : Direction) (columns : List String) (more : Bool)
    (h : columns ≠ []) :
    Writes d (each ", " (directed d direction) more columns)
      ((if more then .raw ", " else pure ()) >>= fun _ =>
        Draft.directed direction columns >>= fun _ => pure true) := by
  have hcolumn : ∀ column, Writes d (directed d direction column) (do
      .name column
      .raw " "
      .raw direction.sql) :=
    fun column => writes_seq (writes_name column) (writes_seq (writes_raw " ") (writes_raw _))
  obtain ⟨column, rest, rfl⟩ := List.exists_cons_of_ne_nil h
  cases more with
  | false => exact writes_each_cons ", " hcolumn column rest
  | true =>
    have hmore := writes_each_of_more (d := d) ", " hcolumn (column :: rest)
    rw [List.map_cons, Draft.continued, Draft.bind_assoc] at hmore
    rw [if_pos rfl, Draft.directed, List.map_cons, Draft.separated_cons]
    exact hmore

/-- The flag that goes from term to term is set by the first one, since a key has columns. -/
theorem writes_sortTerms (t : Table) (more : Bool) (ts : List SortTerm) :
    Writes d (ts.foldlM (sortTerm d t) more)
      (Draft.sortTerms t more ts >>= fun _ => pure (more || !ts.isEmpty)) := by
  induction ts generalizing more with
  | nil =>
    rw [List.isEmpty_nil, Bool.not_true, Bool.or_false]
    exact writes_pure more
  | cons term rest ih =>
    have hterm : Writes d (sortTerm d t more term)
        (.lift (t.columnsOf term.key) >>= fun columns =>
          (if more then .raw ", " else pure ()) >>= fun _ =>
            Draft.directed term.direction columns >>= fun _ => pure true) :=
      writes_bind (writes_answer _) fun columns hcolumns =>
        writes_directed term.direction columns more (Table.columnsOf_ne_nil hcolumns)
    have hterms := writes_bind hterm fun b _ => ih b
    simp only [Draft.bind_assoc] at hterms
    rw [List.foldlM_cons, Draft.sortTerms_cons, List.isEmpty_cons, Bool.not_false, Bool.or_true]
    simp only [Draft.bind_assoc]
    exact hterms

/-- An order writes its words only where it has terms. -/
theorem writes_ordering (t : Table) (order : SortOrder) :
    Writes d (ordering d t order) (.ordering t order) := by
  unfold ordering
  split
  · exact writes_pure ()
  · exact writes_pure ()
  · next ts hts =>
    rw [Draft.ordering]
    · exact writes_seq (writes_raw " ORDER BY ") (writes_discard _ (writes_sortTerms t false ts))
    · exact hts

/-- The space in front of the clause may be written on its own. -/
theorem writes_paging (limit : Limit) (offset : Offset) :
    Writes d (paging d limit offset) (.paging d limit offset) := by
  rw [paging, Draft.paging]
  cases d.paging? limit offset with
  | none => exact writes_pure ()
  | some clause =>
    refine writes_append fun before => ?_
    rw [run_bind, run_raw]
    simp [run_raw, Piece.sql, Piece.parameter?, String.append_assoc]

theorem writes_row (t : Table) (values : Assignments) :
    Writes d (row d t values) (Insert.valuesDraft t values) :=
  writes_seq (writes_raw "INSERT INTO ") <| writes_seq (writes_name t.name) <|
    writes_seq (writes_raw " (") <| writes_seq (writes_names _) <|
      writes_seq (writes_raw ") VALUES (") <| writes_seq (writes_placeholders _) (writes_raw ")")

theorem writes_subselect (t : Table) (columns : String) (s : Delete) :
    Writes d (subselect d t columns s) (s.subselect d t columns) :=
  writes_seq (writes_raw "SELECT ") <| writes_seq (writes_raw columns) <|
    writes_seq (writes_raw " FROM ") <| writes_seq (writes_name t.name) <|
      writes_seq (writes_restriction t s.selection) <|
        writes_seq (writes_ordering t s.order) (writes_paging s.limit ⟨none⟩)

end Writer

end DocumentQuery
