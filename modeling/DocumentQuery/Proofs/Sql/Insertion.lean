import DocumentQuery.Clause.Assignments
import DocumentQuery.Proofs.Sql.Token

/-!
# Rows that a text writes

What a database writes for the text of an insertion or of an upsert, once each placeholder stands
for the parameter bound to it. An inserted row is a list of columns and a list of values of the
same length. An update is a list of changes, and a change writes either a value of its own or the
value that the insertion has for a column.
-/

namespace DocumentQuery
set_option autoImplicit false

namespace Sql

/-! ## Parameters in their places -/

/-- A token of a text whose placeholders are bound. -/
inductive Bound where
  | token (t : Token)
  | value (p : Parameter)
  deriving DecidableEq, Inhabited

namespace Bound

@[match_pattern] abbrev word (text : String) : Bound := .token (.word text)

@[match_pattern] abbrev name (identifier : String) : Bound := .token (.name identifier)

@[match_pattern] abbrev opening : Bound := .token .opening

@[match_pattern] abbrev closing : Bound := .token .closing

@[match_pattern] abbrev comma : Bound := .token .comma

end Bound

/-- The tokens of a text with a parameter for each placeholder, in order and none left over. -/
def bind? : List Token → List Parameter → Option (List Bound)
  | [], ps => if ps.isEmpty then some [] else none
  | .placeholder :: ts, ps => do
    let p ← ps.head?
    (bind? ts ps.tail).map (.value p :: ·)
  | t :: ts, ps => (bind? ts ps).map (.token t :: ·)

theorem bind?_placeholder (ts : List Token) (p : Parameter) (ps : List Parameter) :
    bind? (.placeholder :: ts) (p :: ps) = (bind? ts ps).map (.value p :: ·) := rfl

/-- Tokens that are no placeholders take no parameter. -/
theorem bind?_append {ts : List Token} (h : .placeholder ∉ ts) (rest : List Token)
    (ps : List Parameter) :
    bind? (ts ++ rest) ps = (bind? rest ps).map (ts.map .token ++ ·) := by
  induction ts with
  | nil => simp
  | cons t ts ih =>
    have ht : t ≠ .placeholder := fun heq => h (by simp [heq])
    have hts := ih fun hmem => h (List.mem_cons_of_mem t hmem)
    rw [List.cons_append, bind?, hts, Option.map_map]
    · rfl
    · exact ht

/-! ## Parts of a text -/

/-- The part in front of the first `mark`, and the part behind it. -/
def cut? (mark : Bound) : List Bound → Option (List Bound × List Bound)
  | [] => none
  | b :: rest =>
    if b = mark then some ([], rest)
    else (cut? mark rest).map fun (front, back) => (b :: front, back)

theorem cut?_append {mark : Bound} {front : List Bound} (h : mark ∉ front) (back : List Bound) :
    cut? mark (front ++ mark :: back) = some (front, back) := by
  induction front with
  | nil => exact if_pos rfl
  | cons b front ih =>
    have hb : b ≠ mark := fun heq => h (by simp [heq])
    have hfront := ih fun hmem => h (List.mem_cons_of_mem b hmem)
    rw [List.cons_append, cut?, if_neg hb, hfront]
    rfl

/-- Lists with commas between them. -/
def listed (items : List (List Bound)) : List Bound := [Bound.comma].intercalate items

/-- What stands between commas, each part read by itself. -/
def items? {β : Type} (item : List Bound → Option β) (bs : List Bound) : Option (List β) :=
  (bs.splitOn .comma).mapM item

theorem mapM_map_eq_some {α β γ : Type} {f : β → Option γ} {g : α → β} {value : α → γ}
    {xs : List α} (h : ∀ x ∈ xs, f (g x) = some (value x)) :
    (xs.map g).mapM f = some (xs.map value) := by
  induction xs with
  | nil => rfl
  | cons x rest ih =>
    have hrest := ih fun other hmem => h other (List.mem_cons_of_mem x hmem)
    rw [List.map_cons, List.mapM_cons, h x (by simp), hrest]
    rfl

theorem items?_listed {α β : Type} {item : List Bound → Option β} {text : α → List Bound}
    {value : α → β} {xs : List α} (hne : xs ≠ []) (hcomma : ∀ x, Bound.comma ∉ text x)
    (hitem : ∀ x, item (text x) = some (value x)) :
    items? item (listed (xs.map text)) = some (xs.map value) := by
  have hparts : ∀ part ∈ xs.map text, Bound.comma ∉ part := by
    intro part hpart
    obtain ⟨x, -, rfl⟩ := List.mem_map.1 hpart
    exact hcomma x
  rw [items?, listed, List.splitOn_intercalate _ hparts (by simpa using hne)]
  exact mapM_map_eq_some fun x _ => hitem x

theorem not_mem_listed {α : Type} {b : Bound} (hcomma : b ≠ .comma) {text : α → List Bound}
    {xs : List α} (h : ∀ x ∈ xs, b ∉ text x) : b ∉ listed (xs.map text) := by
  intro hmem
  induction xs with
  | nil => cases hmem
  | cons x rest ih =>
    have hx := h x (by simp)
    have hrest := ih fun other hother => h other (List.mem_cons_of_mem x hother)
    cases rest with
    | nil => exact hx (by simpa [listed] using hmem)
    | cons second others =>
      rw [listed, List.map_cons, List.map_cons, List.intercalate_cons_cons, List.append_assoc,
        List.mem_append] at hmem
      rcases hmem with hmem | hmem
      · exact hx hmem
      · rcases List.mem_cons.1 hmem with heq | hmem
        · exact hcomma heq
        · exact hrest hmem

/-! ## Insertions -/

def column? : List Bound → Option String
  | [.name column] => some column
  | _ => none

def value? : List Bound → Option Parameter
  | [.value p] => some p
  | _ => none

/-- The values of a row: listed as they are, or selected where some condition is true. -/
def values? : List Bound → Option (List Parameter)
  | .word "VALUES" :: .opening :: bs => do
    let (values, _) ← cut? .closing bs
    items? value? values
  | .word "SELECT" :: bs => do
    let (values, _) ← cut? (.word "WHERE") bs
    items? value? values
  | _ => none

/-- The table and the row of the insertion that a text holds: each column with the value in its
place. -/
def inserted? (bs : List Bound) : Option (String × Assignments) := do
  let (_, bs) ← cut? (.word "INSERT") bs
  match bs with
  | .word "INTO" :: .name table :: .opening :: bs =>
    let (columns, bs) ← cut? .closing bs
    let columns ← items? column? columns
    let values ← values? bs
    if columns.length = values.length then some (table, columns.zip values) else none
  | _ => none

/-- The columns of a row in a text. -/
def columnsText (row : Assignments) : List Bound :=
  listed (row.map fun (column, _) => [.name column])

/-- The values of a row in a text. -/
def valuesText (row : Assignments) : List Bound := listed (row.map fun (_, p) => [.value p])

section Insertion

variable {row : Assignments} (hrow : row ≠ [])
include hrow

theorem items?_valuesText : items? value? (valuesText row) = some (row.map (·.2)) :=
  items?_listed hrow (by simp) fun _ => rfl

theorem values?_values (rest : List Bound) :
    values? (.word "VALUES" :: .opening :: (valuesText row ++ .closing :: rest))
      = some (row.map (·.2)) := by
  have hclosing : Bound.closing ∉ valuesText row := not_mem_listed (by decide) fun _ _ => by simp
  rw [values?, cut?_append hclosing]
  exact items?_valuesText hrow

theorem values?_selected (rest : List Bound) :
    values? (.word "SELECT" :: (valuesText row ++ .word "WHERE" :: rest))
      = some (row.map (·.2)) := by
  have hwhere : Bound.word "WHERE" ∉ valuesText row := not_mem_listed (by decide) fun _ _ => by simp
  rw [values?, cut?_append hwhere]
  exact items?_valuesText hrow

/-- A row is read off its columns and its values, whatever form these have. -/
theorem inserted?_append {front values : List Bound} (table : String)
    (hfront : Bound.word "INSERT" ∉ front) (hvalues : values? values = some (row.map (·.2))) :
    inserted? (front ++ .word "INSERT" :: .word "INTO" :: .name table :: .opening
        :: (columnsText row ++ .closing :: values))
      = some (table, row) := by
  have hclosing : Bound.closing ∉ columnsText row := not_mem_listed (by decide) fun _ _ => by simp
  have hcolumns : items? column? (columnsText row) = some (row.map (·.1)) :=
    items?_listed hrow (by simp) fun _ => rfl
  have hlength : (row.map (·.1)).length = (row.map (·.2)).length := by simp
  have hzip : row = (row.map (·.1)).zip (row.map (·.2)) := List.zip_of_prod rfl rfl
  rw [inserted?, cut?_append hfront]
  simp only [Option.bind_eq_bind, Option.bind_some, cut?_append hclosing, hcolumns, hvalues]
  rw [if_pos hlength, ← hzip]

end Insertion

/-! ## Updates -/

/-- What a change writes into its column. -/
inductive Source where
  | parameter (p : Parameter)
  /-- The value that the insertion has for a column. -/
  | inserted (column : String)
  deriving DecidableEq, Inhabited

def Source.value? (row : Assignments) : Source → Option Parameter
  | .parameter p => some p
  | .inserted column => Entries.get? column row

def change? : List Bound → Option (String × Source)
  | [.name column, .token (.sign "="), .value p] => some (column, .parameter p)
  | [.name column, .token (.sign "="), .word "VALUES", .opening, .name source, .closing] =>
    some (column, .inserted source)
  | _ => none

/-- The table of an update and the text of its changes. An update of the row that an insertion
meets is one of the table that the insertion is for. -/
def update? (table : String) : List Bound → Option (String × List Bound)
  | .word "WITH" :: .name _ :: .word "AS" :: .opening :: .word "UPDATE" :: .name target
      :: .word "SET" :: bs => (cut? (.word "WHERE") bs).map fun (changes, _) => (target, changes)
  | bs => do
    let (_, bs) ← cut? (.word "ON") bs
    match bs with
    | .word "DUPLICATE" :: .word "KEY" :: .word "UPDATE" :: bs =>
      (cut? (.token (.symbol ';')) bs).map fun (changes, _) => (table, changes)
    | _ => none

/-- The table of an upsert's update, and each column that it writes with the new value. -/
def updated? (bs : List Bound) : Option (String × Assignments) := do
  let (table, row) ← inserted? bs
  let (target, changes) ← update? table bs
  let changes ← items? change? changes
  let updates ← changes.mapM fun (column, source) => (source.value? row).map (column, ·)
  some (target, updates)

/-- Changes that name the values of the insertion. -/
def insertedChanges (updates : Assignments) : List Bound :=
  listed (updates.map fun (column, _) =>
    [.name column, .token (.sign "="), .word "VALUES", .opening, .name column, .closing])

/-- Changes with values of their own. -/
def parameterChanges (updates : Assignments) : List Bound :=
  listed (updates.map fun (column, p) => [.name column, .token (.sign "="), .value p])

section Update

variable {updates row : Assignments} {bs : List Bound} {table target : String}
  (hupdates : updates ≠ []) (hrow : inserted? bs = some (table, row))
include hupdates hrow

/-- Where every change names an inserted column, the update writes the values of the insertion. -/
theorem updated?_inserted (hvalues : ∀ u ∈ updates, Entries.get? u.1 row = some u.2)
    (h : update? table bs = some (target, insertedChanges updates)) :
    updated? bs = some (target, updates) := by
  have hchanges : items? change? (insertedChanges updates)
      = some (updates.map fun u => (u.1, .inserted u.1)) :=
    items?_listed hupdates (by simp) fun _ => rfl
  have hread : (updates.map fun u => (u.1, Source.inserted u.1)).mapM
      (fun (column, source) => (source.value? row).map (column, ·)) = some (updates.map id) :=
    mapM_map_eq_some fun u hu => by simp [Source.value?, hvalues u hu]
  rw [updated?, hrow]
  simp only [Option.bind_eq_bind, Option.bind_some, h, hchanges, hread, List.map_id]

theorem updated?_parameters (h : update? table bs = some (target, parameterChanges updates)) :
    updated? bs = some (target, updates) := by
  have hchanges : items? change? (parameterChanges updates)
      = some (updates.map fun u => (u.1, .parameter u.2)) :=
    items?_listed hupdates (by simp) fun _ => rfl
  have hread : (updates.map fun u => (u.1, Source.parameter u.2)).mapM
      (fun (column, source) => (source.value? row).map (column, ·)) = some (updates.map id) :=
    mapM_map_eq_some fun _ _ => rfl
  rw [updated?, hrow]
  simp only [Option.bind_eq_bind, Option.bind_some, h, hchanges, hread, List.map_id]

end Update

end Sql

end DocumentQuery
