import DocumentQuery.Proofs.Draft.PrimaryKey

/-!
# Statements with the primary key by its columns

The primary key in a statement is no more than a name for columns of the table. A statement that
calls it by its columns instead compiles to the same text with the same parameters, or has the same
fault, in both dialects.
-/

namespace DocumentQuery
set_option autoImplicit false

open Draft

/-- The selection with its tree changed. -/
def Selection.mapNode (f : Node → Node) : Selection → Selection
  | .everything => .everything
  | .matching node => .matching (f node)

namespace Statement

/-- The statement with its projection, the trees of its selections and its order changed. -/
def mapClauses (projection : Projection → Projection) (node : Node → Node)
    (order : SortOrder → SortOrder) : Statement → Statement
  | .select s => .select
      { s with
        projection := projection s.projection
        selection := s.selection.mapNode node
        order := order s.order }
  | .count s => .count { s with selection := s.selection.mapNode node }
  | .delete s => .delete { s with selection := s.selection.mapNode node, order := order s.order }
  | .insert s => .insert s
  | .upsert s => .upsert
      { s with updateSelection := s.updateSelection.map (Selection.mapNode node) }

/-- The statement with the primary key, one column `c`, called by name wherever it stands. -/
def resolve (c : String) : Statement → Statement :=
  mapClauses (Projection.expand [c]) (Node.resolve c) (SortOrder.expand [c])

/-- The statement with the primary key called by its columns in the projection and the order. -/
def expand (primaryKey : List String) : Statement → Statement :=
  mapClauses (Projection.expand primaryKey) id (SortOrder.expand primaryKey)

/-- The keys of a statement's projection and order. -/
def listedKeys : Statement → List Key
  | .select s => s.projection.keys ++ s.order.keys
  | .delete s => s.order.keys
  | .count _ | .insert _ | .upsert _ => []

/-- The keys that a statement compares. -/
def comparedKeys : Statement → List Key
  | .select s => s.selection.keys
  | .count s => s.selection.keys
  | .delete s => s.selection.keys
  | .insert _ => []
  | .upsert s => (s.updateSelection.getD .everything).keys

/-- Expanding leaves no mention of the primary key in the clauses that list columns. -/
theorem id_notMem_listedKeys (primaryKey : List String) (node : Node → Node) (s : Statement) :
    .id ∉ (s.mapClauses (Projection.expand primaryKey) node
      (SortOrder.expand primaryKey)).listedKeys := by
  cases s with
  | select s =>
    rw [mapClauses, listedKeys, List.mem_append]
    exact not_or_intro (s.projection.id_notMem_keys_expand primaryKey)
      (s.order.id_notMem_keys_expand primaryKey)
  | delete s => exact s.order.id_notMem_keys_expand primaryKey
  | count s | insert s | upsert s => exact List.not_mem_nil

/-- Resolving leaves no mention of the primary key in comparisons. -/
theorem id_notMem_comparedKeys_resolve (c : String) (s : Statement) :
    .id ∉ (s.resolve c).comparedKeys := by
  have hselection : ∀ selection : Selection, .id ∉ (selection.mapNode (Node.resolve c)).keys := by
    intro selection
    cases selection with
    | everything => exact List.not_mem_nil
    | matching node => exact (Node.id_notMem_keys_resolve c).1 node
  cases s with
  | select s => exact hselection s.selection
  | count s => exact hselection s.selection
  | delete s => exact hselection s.selection
  | insert s => exact List.not_mem_nil
  | upsert s =>
    cases hupdate : s.updateSelection with
    | none => simp [resolve, mapClauses, comparedKeys, hupdate, Selection.keys]
    | some selection =>
      simpa [resolve, mapClauses, comparedKeys, hupdate] using hselection selection

section Drafts

variable {d : Dialect} {t : Table} {projection : Projection → Projection} {node : Node → Node}
  {order : SortOrder → SortOrder}
  (hprojection : ∀ p, projected t (projection p) = projected t p)
  (hnode : ∀ n, condition t false (node n) = condition t false n)
  (horder : ∀ o, ordering t (order o) = ordering t o)

include hnode in
/-- A selection restricts alike with a tree of the same condition. -/
theorem restriction_mapNode (selection : Selection) :
    restriction t (selection.mapNode node) = restriction t selection := by
  cases selection with
  | everything => rfl
  | matching n => rw [Selection.mapNode, restriction, restriction, hnode]

include hnode in
/-- The upsert of PostgreSQL is the same with a tree of the same condition. -/
theorem updateOrInsertDraft_mapNode (s : Upsert) :
    Upsert.updateOrInsertDraft t
        { s with updateSelection := s.updateSelection.map (Selection.mapNode node) }
      = s.updateOrInsertDraft t := by
  have hrestriction := restriction_mapNode hnode
  obtain ⟨values, updateColumns, _ | _ | n⟩ := s
  · rfl
  · rfl
  have htree := hrestriction (.matching n)
  rw [Selection.mapNode] at htree
  have hupdates : Upsert.updates t ⟨values, updateColumns, some (.matching (node n))⟩
      = Upsert.updates t ⟨values, updateColumns, some (.matching n)⟩ := rfl
  simp only [Upsert.updateOrInsertDraft, Upsert.target, Option.map_some, Selection.mapNode,
    lift_ok_bind, hupdates, htree]

include hprojection hnode horder in
/-- A statement is drafted as another that has the same drafts of its clauses. -/
theorem draft_mapClauses (s : Statement) :
    (s.mapClauses projection node order).draft d t = s.draft d t := by
  have hrestriction := restriction_mapNode hnode
  cases s with
  | select s =>
    simp only [mapClauses, draft, Select.draft, rows, hprojection, hrestriction, horder]
  | count s => simp only [mapClauses, draft, Count.draft, rows, hrestriction]
  | delete s =>
    cases d with
    | mysql =>
      simp only [mapClauses, draft, Delete.draft, Delete.plainDraft, rows, hrestriction, horder]
    | postgres =>
      simp only [mapClauses, draft, Delete.draft, Delete.plainDraft, Delete.subselect, rows,
        hrestriction, horder]
  | insert s => rfl
  | upsert s =>
    have hdialect : Upsert.dialectDraft d t
        { s with updateSelection := s.updateSelection.map (Selection.mapNode node) }
          = s.dialectDraft d t := by
      cases d with
      | mysql => rfl
      | postgres => exact updateOrInsertDraft_mapNode hnode s
    have hupdates : Upsert.updates t
        { s with updateSelection := s.updateSelection.map (Selection.mapNode node) }
          = s.updates t := rfl
    simp only [mapClauses, draft, Upsert.draft, hdialect, hupdates]

end Drafts

/-- Where the primary key is a single column, a statement that calls it by its name everywhere
compiles to the same result. Where it has any columns, so does one that lists these in the place of
the key in its projection and its order. No mention of the key is left in their places. -/
theorem compile_byColumns (d : Dialect) (t : Table) (s : Statement) :
    (∀ c, t.primaryKey = [c] →
        .id ∉ (s.resolve c).listedKeys ++ (s.resolve c).comparedKeys ∧
          (s.resolve c).compile d t = s.compile d t) ∧
      (t.primaryKey ≠ [] →
        .id ∉ (s.expand t.primaryKey).listedKeys ∧
          (s.expand t.primaryKey).compile d t = s.compile d t) := by
  constructor
  · intro c hkey
    have hne : t.primaryKey ≠ [] := by simp [hkey]
    have hdraft : (s.resolve c).draft d t = s.draft d t := by
      rw [resolve, ← hkey]
      exact draft_mapClauses (projected_expand hne)
        (fun node => (condition_resolve hkey).1 false node) (ordering_expand hne) s
    refine ⟨?_, congrArg (Draft.query d) hdraft⟩
    rw [List.mem_append]
    exact not_or_intro (id_notMem_listedKeys [c] _ s) (id_notMem_comparedKeys_resolve c s)
  · intro hne
    have hdraft : (s.expand t.primaryKey).draft d t = s.draft d t :=
      draft_mapClauses (projected_expand hne) (fun _ => rfl) (ordering_expand hne) s
    exact ⟨id_notMem_listedKeys t.primaryKey _ s, congrArg (Draft.query d) hdraft⟩

/-- The rows of a page by their key, with the key among the columns once more. -/
def byKey : Statement :=
  .select
    { projection := .including [.column "b", .id]
      selection := .matching (.and [.comparison ⟨.gt, .id, .value (.int 7)⟩])
      order := .terms [⟨.column "a", .descending⟩, ⟨.id, .ascending⟩]
      limit := ⟨some 3⟩ }

/-- The row with the last key. -/
def lastRow : Statement := .delete { order := .terms [⟨.id, .descending⟩], limit := ⟨some 1⟩ }

/-- A statement by the primary key and one on its last row, both said by columns. -/
theorem byKey_lastRow_byColumns :
    (byKey.resolve "k").compile .mysql { name := "t", primaryKey := ["k"] }
        = .ok ⟨"SELECT `b`, `k` FROM `t` WHERE `k` > ? ORDER BY `a` DESC, `k` ASC LIMIT 3;",
          [.int 7]⟩ ∧
      (byKey.expand ["a", "b"]).compile .postgres { name := "t", primaryKey := ["a", "b"] }
        = .error (.compositeKey "t") ∧
      (lastRow.expand ["a", "b"]).compile .mysql { name := "t", primaryKey := ["a", "b"] }
        = .ok ⟨"DELETE FROM `t` ORDER BY `a` DESC, `b` DESC LIMIT 1;", []⟩ := by
  have hsingle := (compile_byColumns .mysql { name := "t", primaryKey := ["k"] } byKey).1
  have hrefused := (compile_byColumns .postgres { name := "t", primaryKey := ["a", "b"] } byKey).2
  have hseveral := (compile_byColumns .mysql { name := "t", primaryKey := ["a", "b"] } lastRow).2
  exact ⟨(hsingle "k" rfl).2.trans rfl, (hrefused (by decide)).2.trans rfl,
    (hseveral (by decide)).2.trans rfl⟩

end Statement

end DocumentQuery
