import BlockAngular.Model.Limits
import BlockAngular.Proofs.Expression
import BlockAngular.Proofs.Model.WellFormed

/-! # Limits are kept

A constraint that is made from limits and a body has the body and, when it is read again,
the limits. There is one exception: a range between equal numbers becomes an equality.
-/

namespace BlockAngular

namespace Constraint

/-- The variables of a constraint. -/
def vars (c : Constraint) : List Handle :=
  Expression.varsOfAll (c.body :: c.lower.toList ++ c.upper.toList)

theorem isLiteral_of_hasVariables {e : Expression} (withVars : e.hasVariables = true) :
    isLiteral e = false := by
  simp [isLiteral, Expression.number?_of_hasVariables withVars]

theorem HasPlainSides.vars_eq {c : Constraint} (plain : c.HasPlainSides) : c.vars = c.body.vars := by
  obtain ⟨body, lower, upper, equality, active⟩ := c
  obtain ⟨plain_lower, plain_upper⟩ := plain
  cases lower <;> cases upper <;>
    simp_all [Constraint.vars, Expression.varsOfAll, Expression.vars_of_plain]

end Constraint

namespace Limits

/-- Limits as they are read of a constraint: no side is infinite, and an equality has
one number for both. -/
structure AreRead (limits : Limits Float) : Prop where
  lower : ∀ x ∈ limits.lower, Binary64.isInfinite x = false
  upper : ∀ x ∈ limits.upper, Binary64.isInfinite x = false
  equality : limits.equality = true → limits.lower = limits.upper

/-- Whether the limits are those of a range between equal numbers. -/
def isPoint (limits : Limits Float) : Bool :=
  match limits.lower, limits.upper with
  | some x, some y => !limits.equality && (Binary64.exact x).same (Binary64.exact y)
  | _, _ => false

/-- Limits as a constraint keeps them: a range between equal numbers is an equality. -/
def settled (limits : Limits Float) : Limits Float :=
  if limits.isPoint then ⟨limits.upper, limits.upper, true⟩ else limits

theorem settled_of_not_isPoint {limits : Limits Float} (range : limits.isPoint = false) :
    limits.settled = limits := by
  simp [settled, range]

/-- A range between equal numbers does not stay a range. -/
theorem settled_ne_of_isPoint {limits : Limits Float} (point : limits.isPoint = true) :
    limits.settled ≠ limits := by
  intro equal
  have equality : limits.equality = true := by
    rw [← equal, settled, if_pos point]
  unfold isPoint at point
  split at point <;> simp_all

theorem side?_finite {r : Expression.Reading} {side : Option Expression} {x? : Option Float}
    (h : side? r side = .ok x?) : ∀ x ∈ x?, Binary64.isInfinite x = false := by
  cases side with
  | none =>
      cases h
      simp
  | some e =>
      simp only [side?, Success.bind_ok, Success.pure_ok] at h
      obtain ⟨value, -, x, -, rfl⟩ := h
      split <;> simp_all

theorem ofConstraint?_areRead {r : Expression.Reading} {c : Constraint} {limits : Limits Float}
    (h : ofConstraint? r c = .ok limits) : limits.AreRead := by
  simp only [ofConstraint?] at h
  split at h <;> simp only [Success.bind_ok, Success.pure_ok] at h
  · obtain ⟨x, read, rfl⟩ := h
    exact ⟨side?_finite read, side?_finite read, fun _ => rfl⟩
  · obtain ⟨lower, readLower, upper, readUpper, rfl⟩ := h
    exact ⟨side?_finite readLower, side?_finite readUpper, by simp⟩

theorem side?_of_plain {r s : Expression.Reading} (parameters : ∀ h, s.parameter h = r.parameter h)
    {side : Option Expression} (plain : ∀ e ∈ side, e.hasVariables = false) :
    side? s side = side? r side := by
  cases side with
  | none => rfl
  | some e => simp [side?, Expression.evaluate_of_plain parameters (plain e rfl)]

/-- The limits of a constraint with plain sides depend on the parameters alone. -/
theorem ofConstraint?_of_plain {r s : Expression.Reading}
    (parameters : ∀ h, s.parameter h = r.parameter h) {c : Constraint} (plain : c.HasPlainSides) :
    ofConstraint? s c = ofConstraint? r c := by
  have either : ∀ e ∈ c.upper.or c.lower, e.hasVariables = false := by
    cases upper : c.upper with
    | none => simpa using plain.lower
    | some e => simpa using plain.upper e (by simp [upper])
  simp only [ofConstraint?, side?_of_plain parameters either, side?_of_plain parameters plain.lower,
    side?_of_plain parameters plain.upper]

@[simp] theorem literal_hasVariables (x : Float) : (literal x).hasVariables = false := rfl

@[simp] theorem literal_literal? (x : Float) :
    Constraint.literal? (literal x) = some (Binary64.exact x) := rfl

theorem side?_literal (r : Expression.Reading) {x? : Option Float}
    (finite : ∀ x ∈ x?, Binary64.isInfinite x = false) : side? r (x?.map literal) = .ok x? := by
  cases x? with
  | none => rfl
  | some x =>
      simp [side?, literal, Expression.evaluate, Numeric.real, Numeric.asDouble, finite x rfl, bind,
        Except.bind, pure, Except.pure]

/-- A body between literal limits. -/
theorem range_literals {lower upper : Option Float} {body : Expression}
    (withVars : body.hasVariables = true) {c : Constraint}
    (h : Constraint.range (lower.map literal) body (upper.map literal) = .ok c) :
    c = ⟨body, lower.map literal, upper.map literal, isPoint ⟨lower, upper, false⟩, true⟩ := by
  have linear := Constraint.isLiteral_of_hasVariables withVars
  cases lower with
  | none =>
      cases upper with
      | none => cases h
      | some y =>
          simp [Constraint.range, Constraint.atMost, linear] at h
          simp [← h, isPoint]
  | some x =>
      cases upper with
      | none =>
          simp [Constraint.range, Constraint.atMost, linear, withVars] at h
          simp [← h, isPoint]
      | some y =>
          simp only [Constraint.range, Option.map_some, Constraint.between, literal_hasVariables,
            Bool.or_self, Bool.false_eq_true, if_false, literal_literal?] at h
          split at h
          · cases h
          · simp [← Except.ok.inj h, isPoint]

/-- The limits of a range between equal numbers are both there. -/
theorem exists_upper_of_isPoint {limits : Limits Float} (point : limits.isPoint = true) :
    ∃ y, limits.upper = some y := by
  unfold isPoint at point
  split at point
  · rename_i upper
    exact ⟨_, upper⟩
  · cases point

/-- A constraint between limits has its body and keeps the limits. -/
theorem constrain_ok {limits : Limits Float} (read : limits.AreRead) {body : Expression}
    (withVars : body.hasVariables = true) {c : Constraint} (h : limits.constrain body = .ok c) :
    c.body = body ∧ c.HasPlainSides ∧ ∀ r, ofConstraint? r c = .ok limits.settled := by
  obtain ⟨lower, upper, equality⟩ := limits
  obtain ⟨finiteLower, finiteUpper, agree⟩ := read
  simp only at finiteLower finiteUpper agree
  cases equality with
  | true =>
      obtain rfl := agree rfl
      simp only [constrain, if_true] at h
      cases lower with
      | none => cases h
      | some x =>
          obtain rfl := Except.ok.inj h
          refine ⟨rfl, ⟨by simp, by simp⟩, fun r => ?_⟩
          have read := side?_literal r finiteLower
          simp only [Option.map_some] at read
          simp [ofConstraint?, settled, isPoint, read, bind, Except.bind, pure, Except.pure]
  | false =>
      simp only [constrain, Bool.false_eq_true, if_false] at h
      obtain rfl := range_literals withVars h
      refine ⟨rfl, ⟨by simp, by simp⟩, fun r => ?_⟩
      simp only [ofConstraint?, settled]
      by_cases point : isPoint ⟨lower, upper, false⟩ = true
      · obtain ⟨y, rfl⟩ := exists_upper_of_isPoint point
        have read := side?_literal r finiteUpper
        simp only [Option.map_some] at read
        simp [point, read, bind, Except.bind, pure, Except.pure]
      · simp [point, side?_literal r finiteLower, side?_literal r finiteUpper, bind, Except.bind,
          pure, Except.pure]

theorem side?_number {r : Expression.Reading} {k : Numeric} {y : Float} (real : k.real = .ok y)
    (finite : Binary64.isInfinite y = false) : side? r (some (.number k)) = .ok (some y) := by
  simp [side?, Expression.evaluate, real, finite, bind, Except.bind, pure, Except.pure]

theorem ofConstraint?_atLeast {r : Expression.Reading} {e : Expression} {k : Numeric} {y : Float}
    (real : k.real = .ok y) (finite : Binary64.isInfinite y = false) :
    ofConstraint? r ⟨e, some (.number k), none, false, true⟩ = .ok ⟨some y, none, false⟩ := by
  have side := side?_number (r := r) real finite
  simp only [ofConstraint?, Bool.false_eq_true, if_false, side, bind, Except.bind]
  rfl

theorem ofConstraint?_atMost {r : Expression.Reading} {e : Expression} {k : Numeric} {y : Float}
    (real : k.real = .ok y) (finite : Binary64.isInfinite y = false) :
    ofConstraint? r ⟨e, none, some (.number k), false, true⟩ = .ok ⟨none, some y, false⟩ := by
  have side := side?_number (r := r) real finite
  have absent : side? r none = .ok none := rfl
  simp only [ofConstraint?, Bool.false_eq_true, if_false, side, absent, bind, Except.bind]
  rfl

end Limits

end BlockAngular
