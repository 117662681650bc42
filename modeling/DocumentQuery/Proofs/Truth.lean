/-!
# Three-valued truth

What a condition says of a row. A comparison with null is neither true nor false, and the
connectives carry that on: a conjunction is as true as the least true of its parts, a disjunction
as the most true of them.
-/

namespace DocumentQuery
set_option autoImplicit false

/-- The truth of a condition on a row that may hold nulls. -/
inductive Truth where
  | no
  | unknown
  | yes
  deriving DecidableEq, Inhabited

namespace Truth

def ofBool : Bool → Truth
  | false => .no
  | true => .yes

def not : Truth → Truth
  | .no => .yes
  | .unknown => .unknown
  | .yes => .no

def and : Truth → Truth → Truth
  | .yes, b => b
  | .no, _ => .no
  | .unknown, .no => .no
  | .unknown, _ => .unknown

def or : Truth → Truth → Truth
  | .no, b => b
  | .yes, _ => .yes
  | .unknown, .yes => .yes
  | .unknown, _ => .unknown

/-- The conjunction of a list; of none, it is true. -/
def all (ts : List Truth) : Truth := ts.foldr and .yes

/-- The disjunction of a list; of none, it is false. -/
def any (ts : List Truth) : Truth := ts.foldr or .no

@[simp] theorem all_nil : all [] = .yes := rfl

@[simp] theorem all_cons (t : Truth) (ts : List Truth) : all (t :: ts) = t.and (all ts) := rfl

@[simp] theorem any_nil : any [] = .no := rfl

@[simp] theorem any_cons (t : Truth) (ts : List Truth) : any (t :: ts) = t.or (any ts) := rfl

@[simp] theorem yes_and (t : Truth) : yes.and t = t := rfl

@[simp] theorem and_yes (t : Truth) : t.and .yes = t := by cases t <;> rfl

@[simp] theorem or_no (t : Truth) : t.or .no = t := by cases t <;> rfl

/-- A choice with a true part is true, also where others are unknown. -/
@[simp] theorem or_yes (t : Truth) : t.or .yes = .yes := by cases t <;> rfl

theorem and_assoc (a b c : Truth) : (a.and b).and c = a.and (b.and c) := by
  cases a <;> cases b <;> cases c <;> rfl

theorem or_assoc (a b c : Truth) : (a.or b).or c = a.or (b.or c) := by
  cases a <;> cases b <;> cases c <;> rfl

theorem or_left_comm (a b c : Truth) : a.or (b.or c) = b.or (a.or c) := by
  cases a <;> cases b <;> cases c <;> rfl

/-- One true part makes a disjunction true, whatever the others are. -/
theorem any_of_mem_yes {ts : List Truth} (h : yes ∈ ts) : any ts = .yes := by
  induction ts with
  | nil => simp at h
  | cons t rest ih =>
    rcases List.mem_cons.1 h with rfl | h
    · rfl
    · rw [any_cons, ih h, or_yes]

end Truth

end DocumentQuery
