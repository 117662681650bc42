import DocumentQuery.Proofs.Result
import DocumentQuery.Selection.Operand

/-!
# Accepted operands

What a document gives when it is accepted behind an operator: the parameter of a value of the
right kind, the members of a set one by one, and the comparison made of them.
-/

namespace DocumentQuery
set_option autoImplicit false

namespace Operator

theorem ofName?_eq_some {s : String} {op : Operator} : ofName? s = some op ↔ s = op.name := by
  constructor
  · intro h
    have hname := List.find?_some h
    exact (beq_iff_eq.1 hname).symm
  · rintro rfl
    exact ofName?_name op

/-- An operator accepts what it takes, as the parameter that it is. -/
theorem parameter_eq_ok {op : Operator} {v : Value} {p : Parameter} :
    op.parameter v = .ok p ↔ op.takes v = true ∧ v.parameter? = some p := by
  unfold parameter
  cases htakes : op.takes v with
  | false => simp
  | true => cases hp : v.parameter? <;> simp

end Operator

/-- A member of a set is a scalar or a single comparison that is not itself about a set. -/
theorem Element.ofValue_eq_ok {op : Operator} {item : Value} {element : Element} :
    ofValue op item = .ok element ↔
      (∃ p, item.isScalar = true ∧ item.parameter? = some p ∧ element = .literal p) ∨
      ∃ (inner : Operator) (operand : Value) (p : Parameter),
        item = .object [(inner.name, operand)] ∧ inner.isMembership = false ∧
          inner.parameter operand = .ok p ∧ element = .predicate inner p := by
  constructor
  · intro h
    cases item with
    | null => cases h
    | array items => cases h
    | object entries =>
      rcases entries with _ | ⟨⟨name, operand⟩, _ | ⟨second, rest⟩⟩
      · cases h
      · right
        simp only [ofValue] at h
        cases hop : Operator.ofName? name with
        | none => simp [hop] at h
        | some inner =>
          cases hinner : inner.isMembership with
          | true => simp [hop, hinner] at h
          | false =>
            simp only [hop, hinner, Bool.false_eq_true, if_false] at h
            obtain ⟨p, hp, rfl⟩ := map_eq_ok.1 h
            rw [Operator.ofName?_eq_some.1 hop]
            exact ⟨inner, operand, p, rfl, hinner, hp, rfl⟩
      · cases h
    | _ =>
      cases h
      exact .inl ⟨_, rfl, rfl, rfl⟩
  · rintro (⟨p, hscalar, hp, rfl⟩ | ⟨inner, operand, p, rfl, hinner, hp, rfl⟩)
    · cases item with
      | null => cases hscalar
      | array items => cases hscalar
      | object entries => cases hscalar
      | _ =>
        cases hp
        rfl
    · simp [ofValue, hinner, hp, Except.map]

/-- What is accepted behind an operator: a non-empty array for a set, else a value. -/
theorem Operand.ofValue_eq_ok {op : Operator} {v : Value} {operand : Operand} :
    ofValue op v = .ok operand ↔
      (∃ items elements, op.isMembership = true ∧ v = .array items ∧ items ≠ [] ∧
        List.Forall₂ (fun item element => Element.ofValue op item = .ok element) items elements ∧
        operand = .values elements) ∨
      ∃ p, op.isMembership = false ∧ op.parameter v = .ok p ∧ operand = .value p := by
  unfold ofValue
  cases hop : op.isMembership with
  | false =>
    simp only [Bool.false_eq_true, if_false, map_eq_ok, false_and, exists_false, false_or,
      true_and]
    exact exists_congr fun p => and_congr_right fun _ => eq_comm
  | true =>
    simp only [if_true, Bool.true_eq_false, false_and, exists_false, or_false, true_and]
    constructor
    · intro h
      cases v with
      | array items =>
        rcases items with _ | ⟨item, rest⟩
        · cases h
        · obtain ⟨elements, helements, rfl⟩ := map_eq_ok.1 h
          exact ⟨item :: rest, elements, rfl, List.cons_ne_nil _ _, mapM_eq_ok.1 helements, rfl⟩
      | _ => cases h
    · rintro ⟨items, elements, rfl, hitems, helements, rfl⟩
      rcases items with _ | ⟨item, rest⟩
      · exact absurd rfl hitems
      · exact map_eq_ok.2 ⟨elements, mapM_eq_ok.2 helements, rfl⟩

/-- A comparison is accepted where its operand is. -/
theorem Comparison.ofValue_eq_ok {op : Operator} {key : Key} {v : Value} {c : Comparison} :
    ofValue op key v = .ok c ↔
      ∃ operand, Operand.ofValue op v = .ok operand ∧ c = { op, key, operand } := by
  rw [ofValue, map_eq_ok]
  exact exists_congr fun operand => and_congr_right fun _ => eq_comm

end DocumentQuery
