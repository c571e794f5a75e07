import BlockAngular.Affine.Form
import BlockAngular.Model.Constraint

/-! # Limits

What a constraint asks of its body, as numbers: a lower and an upper limit, or one
number to be equal to. Infinite sides are no limits.
-/

namespace BlockAngular

/-- Limits on the value of a body. -/
structure Limits (β : Type) where
  lower : Option β
  upper : Option β
  equality : Bool

namespace Limits

/-- The limits and a body in the order in which a relation is written: body and
    number, or lower limit, body and upper limit. -/
def written {β : Type} (limits : Limits β) (absent body : β) : List β :=
  if limits.equality then [body, limits.lower.getD absent]
  else [limits.lower.getD absent, body, limits.upper.getD absent]

/-- The number of a side; an infinite one counts as absent. -/
def side? (r : Expression.Reading) : Option Expression → Except Fault (Option Float)
  | none => .ok none
  | some e => do
    let x ← (← e.evaluate r).real
    return if Binary64.isInfinite x then none else some x

/-- The limits of a constraint. -/
def ofConstraint? (r : Expression.Reading) (c : Constraint) : Except Fault (Limits Float) := do
  if c.equality then
    let x ← side? r (c.upper.or c.lower)
    return ⟨x, x, true⟩
  else
    let lower ← side? r c.lower
    let upper ← side? r c.upper
    return ⟨lower, upper, false⟩

/-- A number as the side of a constraint. -/
def literal (x : Float) : Expression :=
  .number (.float x)

/-- The constraint with these limits on a body; there has to be one. -/
def constrain (limits : Limits Float) (body : Expression) : Except Fault Constraint :=
  if limits.equality then
    match limits.lower with
    | some x => .ok ⟨body, some (literal x), some (literal x), true, true⟩
    | none => .error .badValue
  else Constraint.range (limits.lower.map literal) body (limits.upper.map literal)

end Limits

end BlockAngular
