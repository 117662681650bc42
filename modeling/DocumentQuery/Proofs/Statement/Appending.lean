import DocumentQuery.Proofs.Draft.Writer
import DocumentQuery.Statement.Step

/-!
# Steps on a writer

The steps of writing by hand, performed on a query that is changed in place. They only append:
what a sequence of steps adds, and how each of them ends, is the same whatever was written before,
also where some of them fail in the middle of a clause. So a sequence on a query that holds
something is the same sequence on an empty one, put behind it.
-/

namespace DocumentQuery
set_option autoImplicit false

namespace Step

variable {d : Dialect} {t : Table}

/-- The action of a step without an answer of its own. -/
def performing (w : Writer Unit) : Writer Reply := do
  w
  pure .written

/-- A step as an action on what is written so far. -/
def perform (d : Dialect) (t : Table) : Step → Writer Reply
  | .raw sql => performing (.raw sql)
  | .table => performing (.name d t.name)
  | .name identifier => performing (.name d identifier)
  | .names identifiers => performing (.names d identifiers)
  | .placeholder p => performing (.placeholder p)
  | .placeholders ps => performing (.placeholders ps)
  | .row values => performing (.row d t values)
  | .paging limit offset => performing (.paging d limit offset)
  | .restriction selection => performing (.restriction d t selection)
  | .condition node nested => performing (.condition d t nested node)
  | .ordering order => performing (.ordering d t order)
  | .subselect list s => performing (.subselect d t list s)
  | .column key => .answer ((t.column key).map .column)
  | .columns key => .answer ((t.columnsOf key).map .columns)

/-- Steps performed one after the other on what is written before; a step that fails is passed
over. The result is how each of them ended, and what is written behind the last. -/
def performAll (d : Dialect) (t : Table) (before : Query) :
    List Step → List (Except StatementError Reply) × Query
  | [] => ([], before)
  | step :: rest =>
    let (reply, after) := (step.perform d t).run before
    let (replies, last) := performAll d t after rest
    (reply :: replies, last)

/-- Reporting the outcome of an action writes nothing. -/
theorem writes_performing {w : Writer Unit} {draft : Draft Unit} (h : Writer.Writes d w draft) :
    Writer.Writes d (performing w) (written draft) :=
  Writer.writes_seq h (Writer.writes_pure Reply.written)

/-- Every step, performed, writes its draft. -/
theorem writes_perform (step : Step) :
    Writer.Writes d (step.perform d t) (step.draft d t) := by
  open Writer in
  cases step with
  | raw sql => exact writes_performing (writes_raw sql)
  | table => exact writes_performing (writes_name t.name)
  | name identifier => exact writes_performing (writes_name identifier)
  | names identifiers => exact writes_performing (writes_names identifiers)
  | placeholder p => exact writes_performing (writes_placeholder p)
  | placeholders ps => exact writes_performing (writes_placeholders ps)
  | row values => exact writes_performing (writes_row t values)
  | paging limit offset => exact writes_performing (writes_paging limit offset)
  | restriction selection => exact writes_performing (writes_restriction t selection)
  | condition node nested => exact writes_performing ((writes_condition t).1 nested node)
  | ordering order => exact writes_performing (writes_ordering t order)
  | subselect list s => exact writes_performing (writes_subselect t list s)
  | column key => exact writes_answer _
  | columns key => exact writes_answer _

/-- A step performed is the step run: it ends in the same way and leaves the same text. -/
theorem run_perform (before : Query) (step : Step) :
    (step.perform d t).run before = ((step.run d t before).2, (step.run d t before).1) :=
  writes_perform step before

/-- What steps append, each from its first piece to its last or to its fault. -/
def appended (d : Dialect) (t : Table) (steps : List Step) : Query :=
  .ofPieces d (steps.flatMap fun step => (step.draft d t).pieces)

theorem appended_append (steps more : List Step) :
    appended d t (steps ++ more) = appended d t steps ++ appended d t more := by
  rw [appended, List.flatMap_append, Query.ofPieces_append]
  rfl

/-- By induction on the steps: each of them goes on from what is written before it, but neither
what it appends nor how it ends depends on that. -/
theorem performAll_eq (before : Query) (steps : List Step) :
    performAll d t before steps
      = (steps.map fun step => (step.draft d t).outcome, before ++ appended d t steps) := by
  induction steps generalizing before with
  | nil => exact congrArg (Prod.mk []) (Query.append_blank before).symm
  | cons step rest ih =>
    have hcons : appended d t (step :: rest)
        = Query.ofPieces d (step.draft d t).pieces ++ appended d t rest := by
      rw [← List.singleton_append, appended_append, appended, List.flatMap_singleton]
    rw [performAll, writes_perform step before]
    simp only [ih, List.map_cons, hcons, Query.append_assoc]

/-- Each step ends as its draft does, whatever was written before. -/
theorem map_snd_runAll (before : Query) (steps : List Step) :
    (runAll d t before steps).map (·.2) = steps.map fun step => (step.draft d t).outcome := by
  induction steps generalizing before with
  | nil => rfl
  | cons step rest ih =>
    rw [runAll, List.map_cons, List.map_cons, ih]
    rfl

/-- The last of the states is what is written in the end. -/
theorem getLastD_runAll (before : Query) (steps : List Step) :
    ((runAll d t before steps).map (·.1)).getLastD before = (performAll d t before steps).2 := by
  induction steps generalizing before with
  | nil => rfl
  | cons step rest ih =>
    rw [runAll, List.map_cons, List.getLastD_cons, ih, performAll, run_perform]

/-- The steps of writing by hand only append. Performed on any query, they end as they do on an
empty one, faults included, and leave that query with what they write on an empty one behind it;
steps in a row append what each append on their own, so what was written stays as it is, whatever
comes after it and however that ends. Step by step this is what the drafts of the steps say. -/
theorem performAll_appends (d : Dialect) (t : Table) (before : Query) (steps more : List Step) :
    performAll d t before steps
        = ((runAll d t before steps).map (·.2),
          ((runAll d t before steps).map (·.1)).getLastD before) ∧
      performAll d t before steps
        = ((performAll d t .blank steps).1, before ++ (performAll d t .blank steps).2) ∧
      performAll d t before (steps ++ more)
        = ((performAll d t .blank steps).1 ++ (performAll d t .blank more).1,
          before ++ ((performAll d t .blank steps).2 ++ (performAll d t .blank more).2)) ∧
      (performAll d t before (steps ++ more)).2
        = (performAll d t before steps).2 ++ (performAll d t .blank more).2 := by
  refine ⟨?_, ?_, ?_, ?_⟩
  · rw [map_snd_runAll, getLastD_runAll, performAll_eq]
  · simp only [performAll_eq, Query.blank_append]
  · simp only [performAll_eq, Query.blank_append, List.map_append, appended_append]
  · simp only [performAll_eq, Query.blank_append, appended_append, Query.append_assoc]

-- A condition that fails at its second key: what stands in front of that key stays, and the next
-- step goes on behind it.
example :
    performAll .mysql { name := "t", primaryKey := ["a", "b"] } ⟨"x", [.null]⟩
        [.condition (.and [.comparison ⟨.eq, .column "c", .value (.int 1)⟩,
          .comparison ⟨.eq, .id, .value (.int 2)⟩]) false, .raw ";"]
      = ([.error (.compositeKey "t"), .ok .written],
        ⟨"x\x60c\x60 = ? AND ;", [.null, .int 1]⟩) := by
  rfl

end Step

end DocumentQuery
