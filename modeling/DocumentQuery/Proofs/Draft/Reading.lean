import DocumentQuery.Proofs.Draft.Outcome
import DocumentQuery.Proofs.Draft.Parameters
import DocumentQuery.Proofs.Sql.Condition

/-!
# Reading drafts back

What a database reads in the text of a draft. A draft reads as an operand when the reader, wherever
it waits for one, gets through the draft's text with the draft's parameters and stands behind a
complete operand; such drafts can be negated, joined and put in parentheses. Drafts joined without
parentheses read as a whole, which may stand alone or between parentheses.
-/

namespace DocumentQuery
set_option autoImplicit false

open Sql (Condition EndsWord Level Reader endsWord_cons endsWord_nil)
open Sql.Reader (complete reads)

/-- What a condition says of the rows of a database. -/
abbrev Meaning := Comparer → Row String → Truth

namespace Draft

variable {α β : Type} {d : Dialect}

/-! ## Texts of drafts -/

def text (d : Dialect) (draft : Draft α) : List Char :=
  draft.pieces.flatMap fun piece => (piece.sql d).toList

@[simp] theorem text_raw (sql : String) : (raw sql).text d = sql.toList := by
  simp [text, Piece.sql]

@[simp] theorem text_name (identifier : String) :
    (name identifier).text d = (d.quoted identifier).toList := by
  simp [text, Piece.sql]

@[simp] theorem text_placeholder (p : Parameter) : (placeholder p).text d = ['?'] := by
  simp [text, Piece.sql]

@[simp] theorem parameters_raw (sql : String) : (raw sql).parameters = [] := rfl

@[simp] theorem parameters_name (identifier : String) : (name identifier).parameters = [] := rfl

theorem text_bind {draft : Draft α} {a : α} (h : draft.outcome = .ok a) (next : α → Draft β) :
    (draft >>= next).text d = draft.text d ++ (next a).text d := by
  rw [bind_of_ok h]
  exact List.flatMap_append

theorem parameters_bind {draft : Draft α} {a : α} (h : draft.outcome = .ok a)
    (next : α → Draft β) :
    (draft >>= next).parameters = draft.parameters ++ (next a).parameters := by
  rw [bind_of_ok h]
  exact List.filterMap_append

/-! ## Operands -/

/-- A draft that ends well and reads, wherever an operand may stand, as one of this meaning. -/
def Reads (d : Dialect) (draft : Draft Unit) (meaning : Meaning) : Prop :=
  draft.outcome = .ok () ∧
    ∃ c : Condition, (∀ cmp row, c.holds cmp row = meaning cmp row) ∧
      ∀ (level : Level) (outer : List Level) (more : List Parameter) (rest : List Char),
        EndsWord rest →
        reads d ⟨.operand, level, outer, draft.parameters ++ more⟩ (draft.text d ++ rest)
          = reads d (complete ⟨.operand, level, outer, more⟩ c) rest

/-- A draft that ends well and reads, alone or between parentheses, as a condition of this
meaning. Behind it a conjunction `c` is complete, with what OR joins in front of it. -/
def ReadsWhole (d : Dialect) (draft : Draft Unit) (meaning : Meaning) : Prop :=
  draft.outcome = .ok () ∧
    ∃ (level : Level) (c : Condition),
      (∀ cmp row, (level.disjoin c).holds cmp row = meaning cmp row) ∧
      ∀ (outer : List Level) (more : List Parameter) (rest : List Char), EndsWord rest →
        reads d ⟨.operand, {}, outer, draft.parameters ++ more⟩ (draft.text d ++ rest)
          = reads d ⟨.operator c, level, outer, more⟩ rest

/-- An operand is read as a whole text as well. -/
theorem Reads.whole {draft : Draft Unit} {meaning : Meaning} (h : Reads d draft meaning) :
    ReadsWhole d draft meaning := by
  obtain ⟨houtcome, c, hholds, hreads⟩ := h
  exact ⟨houtcome, {}, c, hholds, fun outer more rest hrest => hreads {} outer more rest hrest⟩

theorem Reads.congr {draft : Draft Unit} {meaning other : Meaning} (h : Reads d draft meaning)
    (heq : ∀ cmp row, meaning cmp row = other cmp row) : Reads d draft other := by
  obtain ⟨houtcome, c, hholds, hreads⟩ := h
  exact ⟨houtcome, c, fun cmp row => (hholds cmp row).trans (heq cmp row), hreads⟩

/-- Between parentheses a whole is an operand. -/
theorem ReadsWhole.parenthesized {draft : Draft Unit} {meaning : Meaning}
    (h : ReadsWhole d draft meaning) : Reads d (parenthesized true draft) meaning := by
  obtain ⟨houtcome, inner, c, hholds, hreads⟩ := h
  refine ⟨(outcome_parenthesized true draft).trans houtcome, inner.disjoin c, hholds, ?_⟩
  intro level outer more rest hrest
  have hdraft : Draft.parenthesized true draft
      = (raw "(" >>= fun _ => draft >>= fun _ => raw ")") := rfl
  have hclosing : EndsWord (")".toList ++ rest) := endsWord_cons (by decide) rest
  rw [hdraft, text_bind (outcome_raw _), text_bind houtcome, parameters_bind (outcome_raw _),
    parameters_bind houtcome, text_raw, text_raw, parameters_raw, parameters_raw]
  simp only [List.append_assoc, List.nil_append]
  rw [Reader.reads_opening, hreads _ _ _ hclosing, Reader.reads_closing]

/-- The negation of an operand. -/
theorem Reads.not {draft : Draft Unit} {meaning : Meaning} (h : Reads d draft meaning) :
    Reads d (raw "NOT " >>= fun _ => draft) fun cmp row => (meaning cmp row).not := by
  obtain ⟨houtcome, c, hholds, hreads⟩ := h
  refine ⟨houtcome, .not c, fun cmp row => congrArg Truth.not (hholds cmp row), ?_⟩
  intro level outer more rest hrest
  rw [text_bind (outcome_raw _), parameters_bind (outcome_raw _), text_raw, parameters_raw]
  simp only [List.append_assoc, List.nil_append]
  rw [Reader.reads_not, hreads _ _ _ _ hrest]
  rfl

/-! ## Joined operands -/

/-- Drafts that are read end well. -/
theorem outcome_of_reads {drafts : List (Draft Unit)} {meanings : List Meaning}
    (h : List.Forall₂ (Reads d) drafts meanings) : ∀ draft ∈ drafts, draft.outcome = .ok () := by
  intro draft hdraft
  induction h with
  | nil => cases hdraft
  | cons hhead _ ih =>
    rcases List.mem_cons.1 hdraft with rfl | hdraft
    · exact hhead.1
    · exact ih hdraft

section Separated

variable {separator : String} {draft second : Draft Unit} {others : List (Draft Unit)}

theorem text_separated_cons (h : draft.outcome = .ok ()) :
    (separated separator (draft :: second :: others)).text d
      = draft.text d ++ (separator.toList ++ (separated separator (second :: others)).text d) := by
  rw [separated, text_bind h, text_bind (outcome_raw _), text_raw]
  simp

theorem parameters_separated_cons (h : draft.outcome = .ok ()) :
    (separated separator (draft :: second :: others)).parameters
      = draft.parameters ++ (separated separator (second :: others)).parameters := by
  rw [separated, parameters_bind h, parameters_bind (outcome_raw _)]
  · rfl
  · simp

end Separated

/-- What a list of conditions says of rows, one by one. -/
def meaningsAt (cmp : Comparer) (row : Row String) (meanings : List Meaning) : List Truth :=
  meanings.map fun meaning => meaning cmp row

/-! ### Groups -/

section Groups

variable (k : Connective)

/-- Where the reader stands in front of a part of a group, behind the parts joined so far. -/
def levelOf (joined : Option Condition) : Level :=
  match k with
  | .and => { factors := joined }
  | .or => { alternatives := joined }

/-- What an operand completes together with all that is joined in front of it. -/
def wholeOf (joined : Option Condition) (c : Condition) : Condition :=
  ({ alternatives := (levelOf k joined).alternatives } : Level).disjoin
    ((levelOf k joined).conjoin c)

/-- What is read of a level so far holds as its connective says. -/
theorem holds_wholeOf (joined : Option Condition) (c : Condition) (cmp : Comparer)
    (row : Row String) :
    (wholeOf k joined c).holds cmp row
      = k.both ((joined.map (Condition.holds cmp row)).getD (k.truth [])) (c.holds cmp row) := by
  cases k <;> cases joined <;> rfl

/-- The word of the group makes what is joined so far the first part of what follows. -/
theorem reads_word (joined : Option Condition) (c : Condition) (outer : List Level)
    (ps : List Parameter) (rest : List Char) :
    reads d (complete ⟨.operand, levelOf k joined, outer, ps⟩ c) (k.sql.toList ++ rest)
      = reads d ⟨.operand, levelOf k (some (wholeOf k joined c)), outer, ps⟩ rest := by
  cases k with
  | and => exact Reader.reads_and _ outer ps rest _
  | or => exact Reader.reads_or _ outer ps rest _

/-- Operands with the word of a connective between them go on with what it joined in front of
them. -/
theorem reads_joined {drafts : List (Draft Unit)} {meanings : List Meaning}
    (h : List.Forall₂ (Reads d) drafts meanings) (hne : drafts ≠ []) (joined : Option Condition) :
    ∃ (level : Level) (c : Condition),
      (∀ cmp row, (level.disjoin c).holds cmp row
        = k.both ((joined.map (Condition.holds cmp row)).getD (k.truth []))
            (k.truth (meaningsAt cmp row meanings))) ∧
      ∀ (outer : List Level) (more : List Parameter) (rest : List Char), EndsWord rest →
        reads d ⟨.operand, levelOf k joined, outer, (separated k.sql drafts).parameters ++ more⟩
            ((separated k.sql drafts).text d ++ rest)
          = reads d ⟨.operator c, level, outer, more⟩ rest := by
  -- `joined` is what stands in front of the operands that are left.
  induction h generalizing joined with
  | nil => exact absurd rfl hne
  | @cons draft meaning others meanings hdraft hothers ih =>
    obtain ⟨houtcome, c, hholds, hreads⟩ := hdraft
    have hwhole : ∀ cmp row, (wholeOf k joined c).holds cmp row
        = k.both ((joined.map (Condition.holds cmp row)).getD (k.truth [])) (meaning cmp row) :=
      fun cmp row => by rw [holds_wholeOf, hholds]
    cases hothers with
    | nil =>
      refine ⟨{ alternatives := (levelOf k joined).alternatives }, (levelOf k joined).conjoin c,
        fun cmp row => ?_, fun outer more rest hrest =>
          hreads (levelOf k joined) outer more rest hrest⟩
      rw [meaningsAt, List.map_singleton, Connective.truth_singleton]
      exact hwhole cmp row
    | @cons second next others meanings hsecond hothers =>
      obtain ⟨level, c', hholds', hreads'⟩ := ih (by simp) (some (wholeOf k joined c))
      refine ⟨level, c', fun cmp row => ?_, fun outer more rest hrest => ?_⟩
      · calc (level.disjoin c').holds cmp row
            = k.both ((wholeOf k joined c).holds cmp row)
                (k.truth (meaningsAt cmp row (next :: meanings))) := hholds' cmp row
          _ = k.both ((joined.map (Condition.holds cmp row)).getD (k.truth []))
                (k.truth (meaningsAt cmp row (meaning :: next :: meanings))) := by
            rw [hwhole, Connective.both_assoc, ← Connective.truth_cons]
            rfl
      · have hword : EndsWord (k.sql.toList
            ++ ((separated k.sql (second :: others)).text d ++ rest)) := by
          cases k <;> exact endsWord_cons (by decide) _
        rw [text_separated_cons houtcome, parameters_separated_cons houtcome]
        simp only [List.append_assoc]
        rw [hreads _ _ _ _ hword]
        exact (reads_word k joined c outer _ _).trans (hreads' outer more rest hrest)

/-- A group reads, without parentheses, as a whole. -/
theorem readsWhole_joined {drafts : List (Draft Unit)} {meanings : List Meaning}
    (h : List.Forall₂ (Reads d) drafts meanings) (hne : drafts ≠ []) :
    ReadsWhole d (separated k.sql drafts)
      fun cmp row => k.truth (meaningsAt cmp row meanings) := by
  obtain ⟨level, c, hholds, hreads⟩ := reads_joined k h hne none
  have hstart : levelOf k none = {} := by cases k <;> rfl
  rw [hstart] at hreads
  refine ⟨outcome_separated (outcome_of_reads h), level, c, fun cmp row => ?_, hreads⟩
  rw [hholds]
  exact k.truth_nil_both _

/-- A group is put in parentheses where it joins at least two operands, and so is an operand: a
group of one is that one. -/
theorem reads_group {drafts : List (Draft Unit)} {meanings : List Meaning}
    (h : List.Forall₂ (Reads d) drafts meanings) (hne : drafts ≠ []) :
    Reads d (parenthesized (1 < drafts.length) (separated k.sql drafts))
      fun cmp row => k.truth (meaningsAt cmp row meanings) := by
  have hwhole := readsWhole_joined k h hne
  cases h with
  | nil => exact absurd rfl hne
  | cons hdraft hothers =>
    cases hothers with
    | nil => exact hdraft.congr fun cmp row => (k.truth_singleton _).symm
    | cons hsecond hothers => simpa using hwhole.parenthesized

end Groups

end Draft

end DocumentQuery
