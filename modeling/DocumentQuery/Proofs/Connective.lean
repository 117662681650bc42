import DocumentQuery.Draft.Condition
import DocumentQuery.Proofs.Truth
import DocumentQuery.Selection.Selector

/-!
# Connectives

A conjunction and a disjunction are written alike: a word between any two of their parts, and a
comparison of two numbers where they have none. They differ in these texts and in what they mean,
so what is said of both is said once, of a connective; a condition is then one of three things: a
comparison, a group without parts, or parts that a connective joins.
-/

namespace DocumentQuery
set_option autoImplicit false

namespace Connective

/-- What a connective makes of the meanings of what it joins. -/
def truth : Connective → List Truth → Truth
  | .and => Truth.all
  | .or => Truth.any

/-- What a connective makes of two meanings. -/
def both : Connective → Truth → Truth → Truth
  | .and => Truth.and
  | .or => Truth.or

/-- The tree of a group. -/
def node : Connective → List Node → Node
  | .and => .and
  | .or => .or

/-- The text between two parts of a group. -/
def sql : Connective → String
  | .and => " AND "
  | .or => " OR "

/-- The text of a group without parts. -/
def emptySql : Connective → String
  | .and => "1 = 1"
  | .or => "1 = 0"

variable (k : Connective)

@[simp] theorem truth_cons (part : Truth) (parts : List Truth) :
    k.truth (part :: parts) = k.both part (k.truth parts) := by
  cases k <;> rfl

/-- A group without parts leaves what it is joined with as it is. -/
@[simp] theorem both_truth_nil (part : Truth) : k.both part (k.truth []) = part := by
  cases k with
  | and => exact Truth.and_yes part
  | or => exact Truth.or_no part

@[simp] theorem truth_nil_both (part : Truth) : k.both (k.truth []) part = part := by
  cases k <;> rfl

theorem truth_singleton (part : Truth) : k.truth [part] = part := by
  rw [truth_cons, both_truth_nil]

/-- Operands in a row can be bracketed either way. -/
theorem both_assoc (a b c : Truth) : k.both (k.both a b) c = k.both a (k.both b c) := by
  cases k with
  | and => exact Truth.and_assoc a b c
  | or => exact Truth.or_assoc a b c

end Connective

namespace Draft

/-- A group without members is a constant. -/
theorem condition_empty (t : Table) (nested : Bool) (k : Connective) :
    condition t nested (k.node []) = raw k.emptySql := by
  cases k <;> simp only [Connective.node, Connective.emptySql, condition]

/-- The parts of a group are written with its word between them, in parentheses where they are
several inside another condition. -/
theorem condition_group (t : Table) (nested : Bool) (k : Connective) {children : List Node}
    (h : children ≠ []) :
    condition t nested (k.node children)
      = parenthesized (nested && 1 < children.length)
          (separated k.sql (conditions t children)) := by
  cases k with
  | and =>
    rw [Connective.node, condition]
    · rfl
    · exact h
  | or =>
    rw [Connective.node, condition]
    · rfl
    · exact h

/-- What holds of comparisons, of groups without parts, and of groups as soon as `Q` holds of their
parts, holds of every tree, nested or not. -/
theorem condition_induct {P : Bool → Node → Prop} {Q : List Node → Prop}
    (comparison : ∀ nested c, P nested (.comparison c))
    (empty : ∀ nested (k : Connective), P nested (k.node []))
    (group : ∀ nested (k : Connective) children, children ≠ [] → Q children →
      P nested (k.node children))
    (nil : Q []) (cons : ∀ child rest, P true child → Q rest → Q (child :: rest)) :
    (∀ nested node, P nested node) ∧ ∀ nodes, Q nodes :=
  condition.mutual_induct P Q comparison (fun nested => empty nested .and)
    (fun nested => empty nested .or)
    (fun nested children h hchildren => group nested .and children h hchildren)
    (fun nested children h hchildren => group nested .or children h hchildren) nil cons

end Draft

end DocumentQuery
