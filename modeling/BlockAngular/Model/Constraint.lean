import BlockAngular.Model.Operand

/-! # Constraints and objectives

A constraint keeps the value of its body between a lower and an upper side, or makes it
equal to one. A side that is a literal number can be compared with the other one when
the constraint is made; a side with parameters is read later.
-/

namespace BlockAngular

/-- The direction of an objective. -/
inductive Sense where
  | minimize | maximize
  deriving DecidableEq, Repr

/-- A constraint on the value of its body. -/
structure Constraint where
  body : Expression
  lower : Option Expression
  upper : Option Expression
  equality : Bool
  active : Bool

/-- An expression to be minimized or maximized. -/
structure Objective where
  body : Expression
  sense : Sense
  active : Bool

/-- What a relation states once its sides are known. -/
inductive Statement where
  /-- A comparison that does not speak of the model. -/
  | idle
  | atMost (a b : Expression)
  | equal (a b : Expression)
  | range (lower : Option Operand) (body : Operand) (upper : Option Operand)

namespace Constraint

instance : Inhabited Constraint := ⟨⟨default, none, none, false, false⟩⟩

/-- The exact value of a side that is a literal real number. -/
def literal? (side : Expression) : Option Exact :=
  side.number?.bind Numeric.toExact?

/-- Whether an expression is a literal number. -/
def isLiteral (e : Expression) : Bool :=
  e.number?.isSome

/-- `a ≤ b`: the side without variables bounds the other one, or the difference is
    bounded by zero. Two literals make no relation. -/
def atMost (a b : Expression) : Except Fault Constraint :=
  if isLiteral a && isLiteral b then .error .emptyRelation
  else if !b.hasVariables then .ok ⟨a, none, some b, false, true⟩
  else if !a.hasVariables then .ok ⟨b, some a, none, false, true⟩
  else .ok ⟨.sub a b, none, some (.number (.int 0)), false, true⟩

/-- `a = b`, with the body chosen as in `atMost`. -/
def equal (a b : Expression) : Except Fault Constraint :=
  if isLiteral a && isLiteral b then .error .emptyRelation
  else if !b.hasVariables then .ok ⟨a, some b, some b, true, true⟩
  else if !a.hasVariables then .ok ⟨b, some a, some a, true, true⟩
  else .ok ⟨.sub a b, some (.number (.int 0)), some (.number (.int 0)), true, true⟩

/-- A body between two sides without variables. Literal sides must not cross, and equal
    ones make an equality. -/
def between (lower body upper : Expression) : Except Fault Constraint :=
  if lower.hasVariables || upper.hasVariables then .error .badValue
  else
    match literal? lower, literal? upper with
    | some x, some y =>
      if isLiteral body || !(x.below y || x.same y) then .error .emptyRelation
      else .ok ⟨body, some lower, some upper, x.same y, true⟩
    | _, _ => .ok ⟨body, some lower, some upper, false, true⟩

/-- A body and the sides that are there; there has to be one. -/
def range (lower : Option Expression) (body : Expression) (upper : Option Expression) :
    Except Fault Constraint :=
  match lower, upper with
  | none, none => .error .badValue
  | some a, none => atMost a body
  | none, some b => atMost body b
  | some a, some b => between a body b

/-- The body of a range as an expression; nothing else can stand there. -/
def part (o : Operand) : Except Fault Expression :=
  match o.toExpression? with
  | some e => .ok e
  | none => .error .badValue

/-- A side of a range, which may be absent. -/
def side : Option Operand → Except Fault (Option Expression)
  | none => .ok none
  | some o => o.expression?

end Constraint

namespace Statement

/-- The constraint that a statement makes. -/
def constraint : Statement → Except Fault Constraint
  | .idle => .error .emptyRelation
  | .atMost a b => Constraint.atMost a b
  | .equal a b => Constraint.equal a b
  | .range lower body upper => do
    let lower ← Constraint.side lower
    let body ← Constraint.part body
    let upper ← Constraint.side upper
    Constraint.range lower body upper

end Statement

namespace Operand

/-- Whether plain values can be compared by size. -/
def areOrdered : Value → Value → Bool
  | .str _, .str _ | .bytes _, .bytes _ => true
  | .tuple _, .tuple _ | .list _, .list _ => true
  | v, w => v.real?.isSome && w.real?.isSome

/-- `a ≤ b`. Plain values have to be comparable, and an expression is compared with
    numbers and expressions only. -/
def atMost (a b : Operand) : Except Fault Statement :=
  match a, b with
  | .plain v, .plain w => if areOrdered v w then .ok .idle else .error .wrongKind
  | a, b =>
    match a.toExpression?, b.toExpression? with
    | some d, some e => .ok (.atMost d e)
    | _, _ => .error .wrongKind

/-- `a = b`. A number on the left changes its side, and nothing is stated by a comparison
    of plain values or with anything that is no number and no expression. -/
def equal (a b : Operand) : Statement :=
  match a, b with
  | .plain _, .plain _ => .idle
  | .plain v, .expr e =>
    match v.literal? with
    | some x => .equal e (.number x)
    | none => .idle
  | a, b =>
    match a.toExpression?, b.toExpression? with
    | some d, some e => .equal d e
    | _, _ => .idle

end Operand

end BlockAngular
