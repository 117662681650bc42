import DocumentQuery.Catalog
import DocumentQuery.Proofs.Clause.Renaming
import DocumentQuery.Proofs.Statement.Names

/-!
# Field names are single tokens

Two calls whose fields are renamed, on tables whose columns are renamed along, give texts of the
same tokens but for the identifiers, and the same parameters. An identifier stands between quotes
as it is, so this holds of names that do not contain the quote themselves, which are the ones that
are read back (`Sql.lex_quoted_iff`). Another name can end its identifier and go on with text of
its own.
-/

namespace DocumentQuery
set_option autoImplicit false

open Draft

variable {r : String → String → Prop}

/-! ## Statements -/

/-- Statements that differ in the names of fields. -/
inductive Statement.Renamed (r : String → String → Prop) : Statement → Statement → Prop where
  | select {s s' : Select} (hprojection : s.projection.Renamed r s'.projection)
      (hselection : s.selection.Renamed r s'.selection)
      (horder : s.order.Rel (Key.Renamed r) s'.order) (hlimit : s.limit = s'.limit)
      (hoffset : s.offset = s'.offset) : Renamed r (.select s) (.select s')
  | count {s s' : Count} (hselection : s.selection.Renamed r s'.selection)
      (hlimit : s.limit = s'.limit) (hoffset : s.offset = s'.offset) :
      Renamed r (.count s) (.count s')
  | delete {s s' : Delete} (hselection : s.selection.Renamed r s'.selection)
      (horder : s.order.Rel (Key.Renamed r) s'.order) (hlimit : s.limit = s'.limit) :
      Renamed r (.delete s) (.delete s')
  | insert {s s' : Insert} (hvalues : s.values.Rel r Eq s'.values) :
      Renamed r (.insert s) (.insert s')
  | upsert {s s' : Upsert} (hvalues : s.values.Rel r Eq s'.values)
      (hcolumns : Option.Rel (List.Forall₂ r) s.updateColumns s'.updateColumns)
      (hselection : Option.Rel (Selection.Renamed r) s.updateSelection s'.updateSelection) :
      Renamed r (.upsert s) (.upsert s')

/-! ## Options -/

/-- Options that differ in the names of fields. -/
structure Document.Renamed (r : String → String → Prop) (options others : Document) : Prop where
  equal : ∀ name ∈ ["limit", "offset"], options.field name = others.field name
  selectors : ∀ name ∈ ["selector", "updateSelector"],
    (options.field name).Renamed r (others.field name)
  clauses : ∀ name ∈ ["columns", "order", "values", "updateColumns"],
    (options.field name).ClauseRenamed r (others.field name)

theorem Value.isNull_of_renamed {v w : Value} (h : v.Renamed r w) : v.isNull = w.isNull := by
  cases h <;> rfl

/-- An accepted update selector stays accepted, and none stays none. -/
theorem Upsert.carries_selectionOfValue {v w : Value} (h : v.Renamed r w) :
    Carries (Option.Rel (Selection.Renamed r)) (selectionOfValue v) (selectionOfValue w) := by
  unfold selectionOfValue
  rw [Value.isNull_of_renamed h]
  split
  · exact carries_ok .none
  · exact (Selection.carries_ofValue h).map fun _ _ => .some

section Options

variable {options others : Document} (h : options.Renamed r others)
include h

/-- Accepted options of a selection stay accepted and give the renamed selection. -/
theorem Select.carries_ofOptions :
    Carries (fun s s' : Select => Statement.Renamed r (.select s) (.select s'))
      (ofOptions options) (ofOptions others) := by
  unfold ofOptions
  rw [h.equal "limit" (by decide), h.equal "offset" (by decide)]
  refine (Projection.carries_ofValue (h.clauses "columns" (by decide))).bind fun _ _ hcolumns => ?_
  refine (Selection.carries_ofValue (h.selectors "selector" (by decide))).bind
    fun _ _ hselection => ?_
  refine (SortOrder.carries_ofValue (h.clauses "order" (by decide))).bind fun _ _ horder => ?_
  refine Carries.bind_same _ fun limit => Carries.bind_same _ fun offset => ?_
  exact carries_ok (.select hcolumns hselection horder rfl rfl)

theorem Count.carries_ofOptions :
    Carries (fun s s' : Count => Statement.Renamed r (.count s) (.count s'))
      (ofOptions options) (ofOptions others) := by
  unfold ofOptions
  rw [h.equal "limit" (by decide), h.equal "offset" (by decide)]
  refine (Selection.carries_ofValue (h.selectors "selector" (by decide))).bind
    fun _ _ hselection => ?_
  refine Carries.bind_same _ fun limit => Carries.bind_same _ fun offset => ?_
  exact carries_ok (.count hselection rfl rfl)

theorem Delete.carries_ofOptions :
    Carries (fun s s' : Delete => Statement.Renamed r (.delete s) (.delete s'))
      (ofOptions options) (ofOptions others) := by
  unfold ofOptions
  rw [h.equal "limit" (by decide)]
  refine (Selection.carries_ofValue (h.selectors "selector" (by decide))).bind
    fun _ _ hselection => ?_
  refine (SortOrder.carries_ofValue (h.clauses "order" (by decide))).bind fun _ _ horder => ?_
  exact Carries.bind_same _ fun limit => carries_ok (.delete hselection horder rfl)

theorem Insert.carries_ofOptions :
    Carries (fun s s' : Insert => Statement.Renamed r (.insert s) (.insert s'))
      (ofOptions options) (ofOptions others) :=
  (Assignments.carries_ofValue (h.clauses "values" (by decide))).bind
    fun _ _ hvalues => carries_ok (.insert hvalues)

theorem Upsert.carries_ofOptions :
    Carries (fun s s' : Upsert => Statement.Renamed r (.upsert s) (.upsert s'))
      (ofOptions options) (ofOptions others) := by
  refine (carries_selectionOfValue (h.selectors "updateSelector" (by decide))).bind
    fun _ _ hselection => ?_
  refine (Assignments.carries_ofValue (h.clauses "values" (by decide))).bind
    fun _ _ hvalues => ?_
  refine (ColumnList.carries_ofValue (h.clauses "updateColumns" (by decide))).bind
    fun _ _ hcolumns => ?_
  exact carries_ok (.upsert hvalues hcolumns hselection)

/-- Renamed options describe a renamed statement. -/
theorem Statement.carries_ofOptions (m : Method) :
    Carries (Renamed r) (ofOptions m options) (ofOptions m others) := by
  cases m with
  | select => exact (Select.carries_ofOptions h).map fun _ _ => id
  | count => exact (Count.carries_ofOptions h).map fun _ _ => id
  | delete => exact (Delete.carries_ofOptions h).map fun _ _ => id
  | insert => exact (Insert.carries_ofOptions h).map fun _ _ => id
  | upsert => exact (Upsert.carries_ofOptions h).map fun _ _ => id

end Options

/-! ## Drafts -/

section Drafts

variable (hr : Relator.BiUnique r)
include hr

/-- The columns of an update are found among the inserted ones under their new names. -/
theorem Upsert.carries_updates (t t' : Table) {s s' : Upsert}
    (hvalues : s.values.Rel r Eq s'.values)
    (hcolumns : Option.Rel (List.Forall₂ r) s.updateColumns s'.updateColumns) :
    Carries (Assignments.Rel r Eq) (s.updates t) (s'.updates t') := by
  unfold updates
  generalize s.updateColumns = columns, s'.updateColumns = columns' at hcolumns ⊢
  cases hcolumns with
  | none => exact carries_ok hvalues
  | some hnames =>
    cases hnames with
    | nil => exact carries_error _ _
    | cons hfirst hrest =>
      refine Carries.mapM (.cons hfirst hrest) fun column column' hcolumn => ?_
      have hfound := Assignments.Rel.rel_get? hvalues hr hcolumn
      unfold updateOf
      generalize Entries.get? column s.values = p, Entries.get? column' s'.values = q at hfound ⊢
      cases hfound with
      | none => exact carries_error _ _
      | some hpq => exact carries_ok ⟨hcolumn, hpq⟩

/-- A renamed statement has the renamed columns in all clauses. That the first one has an update
is needed: a fault in it names the column, so it is not the same fault. -/
theorem Statement.Renamed.rel {t t' : Table} (htable : t.Renamed r t') {s s' : Statement}
    (h : s.Renamed r s') {d : Dialect} (hdraft : (s.draft d t).outcome = .ok ()) :
    s.Rel (Key.Renamed r) (t.Named r) Eq t t' s' := by
  have hentries : ∀ {values others : Assignments}, values.Rel r Eq others →
      values.Rel (t.Named r) Eq others := fun h =>
    h.imp fun _ _ hentry => ⟨.inl hentry.1, hentry.2⟩
  cases h with
  | select hprojection hselection horder hlimit hoffset =>
    refine .select ?_ hselection horder hlimit hoffset
    refine (htable.agree_columns hr hprojection).imp fun columns columns' _ _ hcolumns => ?_
    cases hcolumns with
    | none => exact .none
    | some hnames => exact .some (hnames.imp fun _ _ => .inl)
  | count hselection hlimit hoffset => exact .count hselection hlimit hoffset
  | delete hselection horder hlimit => exact .delete hselection horder hlimit
  | insert hvalues => exact .insert (hentries hvalues)
  | @upsert s s' hvalues hcolumns hselection =>
    obtain ⟨updates, -, hupdates, -⟩ := Upsert.exists_updates hdraft
    obtain ⟨updates', hupdates', hrel⟩ :=
      Upsert.carries_updates hr t t' hvalues hcolumns updates hupdates
    refine .upsert (hentries hvalues) ?_ hselection
    rw [hupdates, hupdates']
    exact .ok (hentries hrel)

end Drafts

/-! ## Names without quotes -/

theorem rel_getD {names names' : Option (List String)}
    (h : Option.Rel (List.Forall₂ r) names names') :
    List.Forall₂ r (names.getD []) (names'.getD []) := by
  cases h with
  | none => exact .nil
  | some h => exact h

/-- A renamed statement uses the renamed names, in the same order. -/
theorem Statement.Renamed.usedNames {s s' : Statement} (h : s.Renamed r s') :
    List.Forall₂ r s.usedNames s'.usedNames := by
  cases h with
  | select hprojection hselection horder hlimit hoffset =>
    have hkeys := List.rel_append hprojection.keys hselection.keys
    exact Key.renamed_names (List.rel_append hkeys horder.keys)
  | count hselection hlimit hoffset => exact Key.renamed_names hselection.keys
  | delete hselection horder hlimit =>
    exact Key.renamed_names (List.rel_append hselection.keys horder.keys)
  | insert hvalues => exact Assignments.Rel.columns hvalues
  | @upsert s s' hvalues hcolumns hselection =>
    have hkeys : List.Forall₂ (Key.Renamed r) (s.updateSelection.getD .everything).keys
        (s'.updateSelection.getD .everything).keys := by
      generalize s.updateSelection = selection, s'.updateSelection = selection' at hselection ⊢
      cases hselection with
      | none => exact .nil
      | some h => exact h.keys
    have hwritten := List.rel_append (Assignments.Rel.columns hvalues) (rel_getD hcolumns)
    exact List.rel_append hwritten (Key.renamed_names hkeys)

section Clean

variable {d : Dialect} (hclean : ∀ n n', r n n' → d.quote ∉ n.toList ∧ d.quote ∉ n'.toList)
include hclean

/-- A renaming between names without the quote keeps lists clean on both sides. -/
theorem clean_of_renamed {names names' : List String} (h : List.Forall₂ r names names') :
    (∀ n ∈ names, d.quote ∉ n.toList) ∧ ∀ n ∈ names', d.quote ∉ n.toList := by
  constructor
  · intro n hn
    obtain ⟨n', -, hrel⟩ := exists_of_forall₂ h.flip hn
    exact (hclean n n' hrel).1
  · intro n' hn'
    obtain ⟨n, -, hrel⟩ := exists_of_forall₂ h hn'
    exact (hclean n n' hrel).2

/-- A table with a clean name is clean as a whole, and so is the renamed one. -/
theorem Table.Renamed.clean {t t' : Table} (h : t.Renamed r t') (hname : d.quote ∉ t.name.toList) :
    (∀ n ∈ t.names, d.quote ∉ n.toList) ∧ ∀ n ∈ t'.names, d.quote ∉ n.toList := by
  have hnames := clean_of_renamed hclean (List.rel_append h.primaryKey (rel_getD h.columns))
  exact ⟨List.forall_mem_cons.2 ⟨hname, hnames.1⟩,
    List.forall_mem_cons.2 ⟨h.name ▸ hname, hnames.2⟩⟩

end Clean

/-! ## Tokens -/

namespace Sql

namespace Token

def isName : Token → Bool
  | .name _ => true
  | _ => false

/-- The same token, but for the name of an identifier. -/
inductive Renamed (named : String → String → Prop) : Token → Token → Prop where
  | name {n n' : String} (h : named n n') : Renamed named (.name n) (.name n')
  | same {token : Token} (h : token.isName = false) : Renamed named token token

theorem isName_ofWord (run : List Char) : (ofWord run).isName = false := by
  unfold ofWord
  split
  · rfl
  · split <;> rfl

theorem isName_ofChar (c : Char) : (ofChar c).isName = false := by
  unfold ofChar
  split <;> rfl

end Token

/-- Whether what is unfinished is no identifier, open or closed. -/
def Pending.unquoted : Pending → Bool
  | .name _ | .closed _ => false
  | .blank | .word _ | .sign _ => true

namespace Pending

variable {d : Dialect} {c : Char}

theorem isName_flush {p : Pending} (hp : p.unquoted = true) :
    ∀ token ∈ p.flush, token.isName = false := by
  cases p with
  | name read => cases hp
  | closed read => cases hp
  | blank => simp [flush]
  | word read => simp [flush, Token.isName_ofWord]
  | sign read => simp [flush, Token.isName]

/-- No character but the quote begins an identifier. -/
theorem unquoted_start (hc : c ≠ d.quote) :
    (∀ token ∈ (start d c).1, token.isName = false) ∧ (start d c).2.unquoted = true := by
  unfold start
  rw [if_neg hc]
  split
  · simp [unquoted]
  · split
    · simp [unquoted]
    · split
      · simp [unquoted]
      · simp [unquoted, Token.isName_ofChar]

/-- Without the quote, no identifier begins. -/
theorem unquoted_step {p : Pending} (hp : p.unquoted = true) (hc : c ≠ d.quote) :
    (∀ token ∈ (p.step d c).1, token.isName = false) ∧ (p.step d c).2.unquoted = true := by
  obtain ⟨hstart, hrest⟩ := unquoted_start hc
  have hextend : ∀ longer, p.extend? d c = some longer → longer.unquoted = true := by
    intro longer hlonger
    cases p with
    | blank => cases hlonger
    | name read => cases hp
    | closed read => cases hp
    | word read =>
      obtain ⟨-, heq⟩ := Option.ite_none_right_eq_some.1 hlonger
      exact Option.some.inj heq ▸ rfl
    | sign read =>
      obtain ⟨-, heq⟩ := Option.ite_none_right_eq_some.1 hlonger
      exact Option.some.inj heq ▸ rfl
  unfold step
  split
  · next longer hlonger => exact ⟨by simp, hextend longer hlonger⟩
  · exact ⟨List.forall_mem_append.2 ⟨isName_flush hp, hstart⟩, hrest⟩

end Pending

/-- A text without the quote has no identifier among its tokens. -/
theorem isName_lexFrom {d : Dialect} {p : Pending} (hp : p.unquoted = true) {cs : List Char}
    (h : d.quote ∉ cs) : ∀ token ∈ lexFrom d p cs, token.isName = false := by
  induction cs generalizing p with
  | nil => exact Pending.isName_flush hp
  | cons c rest ih =>
    rw [List.mem_cons, not_or] at h
    obtain ⟨hfirst, hnext⟩ := Pending.unquoted_step hp (Ne.symm h.1)
    exact List.forall_mem_append.2 ⟨hfirst, ih hnext h.2⟩

end Sql

/-- Clean pieces that differ in names have tokens that differ in names. -/
theorem Piece.rel_tokens {d : Dialect} {named : String → String → Prop}
    {pieces others : List Piece} (h : List.Forall₂ (Rel named Eq) pieces others)
    (hclean : ∀ piece ∈ pieces, piece.isClean d = true) :
    List.Forall₂ (Sql.Token.Renamed named) (pieces.flatMap (tokens d))
      (others.flatMap (tokens d)) := by
  induction h with
  | nil => exact .nil
  | @cons piece other _ _ hfirst _ ih =>
    obtain ⟨hpiece, hrest⟩ := List.forall_mem_cons.1 hclean
    rw [List.flatMap_cons, List.flatMap_cons]
    refine List.rel_append ?_ (ih hrest)
    cases hfirst with
    | name hname => exact .cons (.name hname) .nil
    | placeholder _ => exact .cons (.same rfl) .nil
    | raw sql =>
      have hquote : d.quote ∉ sql.toList := fun hmem => by
        simpa [Sql.isPlain] using List.all_eq_true.1 hpiece _ hmem
      exact List.forall₂_same.2 fun token hmem =>
        .same (Sql.isName_lexFrom rfl hquote token hmem)

/-! ## Renamed calls -/

/-- A renamed statement compiles to the same tokens but for the names, and the same parameters. -/
theorem Statement.compile_renamed (hr : Relator.BiUnique r) {d : Dialect}
    (hclean : ∀ n n', r n n' → d.quote ∉ n.toList ∧ d.quote ∉ n'.toList) {t t' : Table}
    (htable : t.Renamed r t') (hname : d.quote ∉ t.name.toList) {s s' : Statement}
    (h : s.Renamed r s') {q : Query} (hq : s.compile d t = .ok q) :
    ∃ q', s'.compile d t' = .ok q' ∧ q.parameters = q'.parameters ∧
      List.Forall₂ (Sql.Token.Renamed (t.Named r)) (Sql.lex d q.sql) (Sql.lex d q'.sql) := by
  obtain ⟨htableClean, htableClean'⟩ := htable.clean hclean hname
  obtain ⟨hnames, hnames'⟩ := clean_of_renamed hclean h.usedNames
  obtain ⟨⟨⟩, houtcome, rfl⟩ := map_eq_ok.1 hq
  have hsame : Parameter.SameKind Eq := ⟨fun _ => rfl, fun _ _ => by rintro rfl; rfl⟩
  have hdraft := related_draft htable.rel hsame d (h.rel hr htable houtcome)
  have houtcome' : (s'.draft d t').outcome = .ok () := by
    have hagree := hdraft.outcome
    rw [houtcome] at hagree
    generalize (s'.draft d t').outcome = result at hagree ⊢
    cases hagree with
    | ok _ => rfl
  have hq' : s'.compile d t' = .ok (Query.ofPieces d (s'.draft d t').pieces).finished := by
    rw [compile, Draft.query, houtcome']
    rfl
  have hparameters := Query.rel_parameters d hdraft.pieces
  rw [List.forall₂_eq_eq_eq] at hparameters
  refine ⟨_, hq', hparameters, ?_⟩
  rw [lex_compile htableClean hnames hq, lex_compile htableClean' hnames' hq']
  refine List.rel_append ?_ (.cons (.same rfl) .nil)
  exact Piece.rel_tokens hdraft.pieces (s.clean_draft htableClean hnames)

/-- The table of a name has that name. -/
theorem Catalog.name_table (catalog : Catalog) (name : String) :
    (catalog.table name).name = name := by
  unfold table
  cases hfound : catalog.tables.find? (·.name == name) with
  | none => rfl
  | some t => simpa using List.find?_some hfound

/-- The renaming that a list of pairs gives. -/
def Renaming (pairs : List (String × String)) (n n' : String) : Prop := (n, n') ∈ pairs

/-- A renaming from distinct names to distinct names is injective both ways. -/
theorem biUnique_renaming {pairs : List (String × String)} (hold : (pairs.map (·.1)).Nodup)
    (hnew : (pairs.map (·.2)).Nodup) : Relator.BiUnique (Renaming pairs) := by
  constructor
  · intro a c b ha hc
    exact congrArg (·.1) (List.inj_on_of_nodup_map hnew ha hc rfl)
  · intro a b c hb hc
    exact congrArg (·.2) (List.inj_on_of_nodup_map hold hb hc rfl)

namespace Catalog

/-- Field names cannot change the structure of a statement, as long as neither they nor their
table's name contain the quote: if a call compiles, so does the call with its fields renamed on the
renamed table. The two texts have the same tokens but for the identifiers, which are renamed, and
the parameters are the same; each field is one identifier token of its name. -/
theorem query_renamed (hr : Relator.BiUnique r) {catalog catalog' : Catalog}
    (hdialect : catalog.dialect = catalog'.dialect)
    (hclean : ∀ n n', r n n' →
      catalog.dialect.quote ∉ n.toList ∧ catalog.dialect.quote ∉ n'.toList)
    {table : String} (hname : catalog.dialect.quote ∉ table.toList)
    (htable : (catalog.table table).Renamed r (catalog'.table table)) {m : Method}
    {options others : Document} (hoptions : options.Renamed r others) {q : Query}
    (hq : catalog.query m table options = .ok q) :
    ∃ s s' q', Statement.ofOptions m options = .ok s ∧ Statement.ofOptions m others = .ok s' ∧
      catalog'.query m table others = .ok q' ∧ q.parameters = q'.parameters ∧
      List.Forall₂ (Sql.Token.Renamed ((catalog.table table).Named r))
        (Sql.lex catalog.dialect q.sql) (Sql.lex catalog.dialect q'.sql) ∧
      (∀ n ∈ s.writtenNames catalog.dialect, .name n ∈ Sql.lex catalog.dialect q.sql) ∧
      ∀ n ∈ s'.writtenNames catalog.dialect, .name n ∈ Sql.lex catalog.dialect q'.sql := by
  obtain ⟨s, hs, hcompile⟩ := bind_eq_ok.1 hq
  have hread := mapError_eq_ok.1 hs
  have hcompiled := mapError_eq_ok.1 hcompile
  obtain ⟨s', hread', hrenamed⟩ := Statement.carries_ofOptions hoptions m s hread
  have htableName : catalog.dialect.quote ∉ (catalog.table table).name.toList := by
    rwa [name_table]
  obtain ⟨q', hcompiled', hparameters, htokens⟩ :=
    Statement.compile_renamed hr hclean htable htableName hrenamed hcompiled
  have hquery : catalog'.query m table others = .ok q' := by
    unfold query
    rw [hread', ← hdialect]
    exact mapError_eq_ok.2 hcompiled'
  obtain ⟨hcolumns, hcolumns'⟩ := htable.clean hclean htableName
  obtain ⟨hfields, hfields'⟩ := clean_of_renamed hclean hrenamed.usedNames
  exact ⟨s, s', q', hread, hread', hquery, hparameters, htokens,
    fun _ => Statement.name_mem_lex hcolumns hfields hcompiled,
    fun _ => Statement.name_mem_lex hcolumns' hfields' hcompiled'⟩

/-- A listing of users by a name and an age, without the age. -/
def listing (name age : String) : Document :=
  [("columns", .object [(age, .int 0)]),
    ("selector", .object [("$or", .array [.object [(name, .object [("$like", .text "A%")])],
      .object [(age, .object [("$gt", .int 18)])]])]),
    ("order", .array [.text name, .object [("$id", .int (-1))]])]

/-- A catalog with the table of these users. -/
def users (id name age : String) : Catalog :=
  ⟨.postgres, [{ name := "users", primaryKey := [id], columns := some [id, name, age] }]⟩

/-- New names for the columns, one of them with a placeholder in it. -/
def newNames : List (String × String) :=
  [("id", "user id"), ("name", "full name?"), ("age", "count")]

/-- The second listing is the first one with its columns renamed. -/
theorem renamed_listing :
    (listing "name" "age").Renamed (Renaming newNames) (listing "full name?" "count") := by
  have hname : ∀ {accepts : String → Bool}, accepts "name" = true → accepts "full name?" = true →
      NameRenamed (Renaming newNames) accepts "name" "full name?" :=
    .renamed (by simp [Renaming, newNames])
  have hage : ∀ {accepts : String → Bool}, accepts "age" = true → accepts "count" = true →
      NameRenamed (Renaming newNames) accepts "age" "count" :=
    .renamed (by simp [Renaming, newNames])
  have hentry : ∀ {n n' : String} {v w : Value},
      NameRenamed (Renaming newNames) Key.isUnreserved n n' → v.Renamed (Renaming newNames) w →
      (Value.object [(n, v)]).Renamed (Renaming newNames) (.object [(n', w)]) :=
    fun hn hv => .object (.cons hn .nil) (.cons hv .nil)
  have hnull : Value.null.Renamed (Renaming newNames) .null := .leaf (by decide) (by decide)
  have hclause : Value.null.ClauseRenamed (Renaming newNames) .null :=
    .leaf (by decide) (by decide) (by decide)
  constructor
  · simp only [List.forall_mem_cons]
    exact ⟨rfl, rfl, by simp⟩
  · simp only [List.forall_mem_cons]
    refine ⟨hentry (.kept rfl) (.array (.cons ?_ (.cons ?_ .nil))), hnull, by simp⟩
    · exact hentry (hname rfl rfl) (hentry (.kept rfl) (.leaf (by decide) (by decide)))
    · exact hentry (hage rfl rfl) (hentry (.kept rfl) (.leaf (by decide) (by decide)))
  · simp only [List.forall_mem_cons]
    refine ⟨.object (.cons ⟨hage rfl rfl, rfl⟩ .nil), .array (.cons ?_ (.cons ?_ .nil)),
      hclause, hclause, by simp⟩
    · exact .text (hname rfl rfl)
    · exact .object (.cons ⟨.kept rfl, rfl⟩ .nil)

/-- Two catalogs that differ in three names, one of them with a blank and a question mark: the texts
differ, their tokens in these names only. -/
theorem listing_sameTokens :
    ∃ q q', (users "id" "name" "age").query .select "users" (listing "name" "age") = .ok q ∧
      (users "user id" "full name?" "count").query .select "users"
        (listing "full name?" "count") = .ok q' ∧
      q.parameters = q'.parameters ∧ q.sql ≠ q'.sql ∧
      List.Forall₂ (Sql.Token.Renamed
          (((users "id" "name" "age").table "users").Named (Renaming newNames)))
        (Sql.lex .postgres q.sql) (Sql.lex .postgres q'.sql) := by
  have hclean : ∀ n n', Renaming newNames n n' →
      Dialect.postgres.quote ∉ n.toList ∧ Dialect.postgres.quote ∉ n'.toList := by
    have hpairs : ∀ pair ∈ newNames, Dialect.postgres.quote ∉ pair.1.toList ∧
        Dialect.postgres.quote ∉ pair.2.toList := by decide
    exact fun n n' h => hpairs (n, n') h
  have hdialect : (users "id" "name" "age").dialect
      = (users "user id" "full name?" "count").dialect := rfl
  have husers : Dialect.postgres.quote ∉ "users".toList := by decide
  have hcolumns : List.Forall₂ (Renaming newNames) ["id", "name", "age"]
      ["user id", "full name?", "count"] := by simp [Renaming, newNames]
  have htable : ((users "id" "name" "age").table "users").Renamed (Renaming newNames)
      ((users "user id" "full name?" "count").table "users") :=
    ⟨rfl, .cons (by simp [Renaming, newNames]) .nil, .some hcolumns⟩
  obtain ⟨q, hq⟩ : ∃ q, (users "id" "name" "age").query .select "users" (listing "name" "age")
      = .ok q := ⟨_, rfl⟩
  obtain ⟨s, s', q', -, -, hq', hparameters, htokens, -, -⟩ :=
    query_renamed (biUnique_renaming (by decide) (by decide)) hdialect hclean husers htable
      renamed_listing hq
  refine ⟨q, q', hq, hq', hparameters, ?_, htokens⟩
  cases hq
  cases hq'
  decide

/-- Deletion by one field that the caller names. -/
def deletionBy (field : String) : Document := [("selector", .object [(field, .int 1)])]

theorem renamed_deletionBy {pairs : List (String × String)} {n n' : String}
    (h : NameRenamed (Renaming pairs) Key.isUnreserved n n') :
    (deletionBy n).Renamed (Renaming pairs) (deletionBy n') where
  equal := by simp only [List.forall_mem_cons]; exact ⟨rfl, rfl, by simp⟩
  selectors := by
    simp only [List.forall_mem_cons]
    have hone : (Value.int 1).Renamed (Renaming pairs) (.int 1) := .leaf (by decide) (by decide)
    have hnull : Value.null.Renamed (Renaming pairs) .null := .leaf (by decide) (by decide)
    exact ⟨.object (.cons h .nil) (.cons hone .nil), hnull, by simp⟩
  clauses := by
    simp only [List.forall_mem_cons]
    have hnull : Value.null.ClauseRenamed (Renaming pairs) .null :=
      .leaf (by decide) (by decide) (by decide)
    exact ⟨hnull, hnull, hnull, hnull, by simp⟩

/-- A name with the quote in it ends its identifier and goes on with a condition of its own. -/
theorem injected_deletion :
    ∃ r q q', Relator.BiUnique r ∧
      (table ⟨.mysql, []⟩ "t").Renamed r (table ⟨.mysql, []⟩ "t") ∧
      (deletionBy "a").Renamed r (deletionBy "a` = 1 OR `b") ∧
      query ⟨.mysql, []⟩ .delete "t" (deletionBy "a") = .ok q ∧
      query ⟨.mysql, []⟩ .delete "t" (deletionBy "a` = 1 OR `b") = .ok q' ∧
      (Sql.lex .mysql q.sql).length ≠ (Sql.lex .mysql q'.sql).length := by
  refine ⟨Renaming [("id", "id"), ("a", "a` = 1 OR `b")], _, _,
    biUnique_renaming (by decide) (by decide), ⟨rfl, ?_, .none⟩, ?_, rfl, rfl, by decide⟩
  · exact .cons (List.mem_cons_self) .nil
  · exact renamed_deletionBy (.renamed (by simp [Renaming]) (by decide) (by decide))

end Catalog

end DocumentQuery
