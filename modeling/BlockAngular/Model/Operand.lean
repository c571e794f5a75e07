import BlockAngular.Model.Expression
import BlockAngular.Value.Arithmetic

/-! # Operands

What a written expression comes out as when it is made: a plain value, an expression, or
something else that a model has. Operations on plain values are carried out at once;
an expression takes no plain operands but numbers; and nothing can be done with anything
else. Zeros in sums and ones in products leave no trace.
-/

namespace BlockAngular

/-- The number that a plain value is in an expression; booleans are none. -/
def Value.literal? : Value → Option Numeric
  | .int n => some (.int n)
  | .float x => some (.float x)
  | .nan _ => some (.float Binary64.notANumber)
  | _ => none

namespace Expression

/-- Whether an expression is a literal zero. -/
def isLiteralZero (e : Expression) : Bool :=
  e.number?.any Numeric.isZero

/-- Whether an expression is a literal one. -/
def isLiteralOne (e : Expression) : Bool :=
  e.number?.any Numeric.isOne

/-- Whether an expression is a literal number times a variable. -/
def isMonomial : Expression → Bool
  | .variable _ => true
  | .neg a => isMonomial a
  | .mul (.number _) a => isMonomial a
  | .mul a (.number _) => isMonomial a
  | .div a (.number _) => isMonomial a
  | _ => false

/-- The sum of two expressions; a zero adds nothing. -/
def plus (a b : Expression) : Expression :=
  if a.isLiteralZero then b
  else if b.isLiteralZero then a
  else
    match a with
    | .sum parts => .sum (parts ++ [b])
    | a => .sum [a, b]

/-- The difference of two expressions. -/
def minus (a b : Expression) : Expression :=
  if b.isLiteralZero then a else if a.isLiteralZero then .neg b else .sub a b

/-- The product of two expressions; a one changes nothing. -/
def times (a b : Expression) : Expression :=
  if a.isLiteralOne then b else if b.isLiteralOne then a else .mul a b

/-- The quotient of two expressions. A literal number times a variable cannot be divided
    by zero. -/
def dividedBy (a b : Expression) : Except Fault Expression :=
  if b.isLiteralZero && a.isMonomial then .error .divisionByZero
  else if b.isLiteralOne then .ok a
  else .ok (.div a b)

/-- A power. -/
def power (a b : Expression) : Expression :=
  if b.isLiteralOne then a else .pow a b

end Expression

/-- What a written expression comes out as. -/
inductive Operand where
  | plain (v : Value)
  | expr (e : Expression)
  /-- Something that cannot be reckoned with. -/
  | other

namespace Operand

/-- The expression that an operand is, if it is a number or an expression. -/
def toExpression? : Operand → Option Expression
  | .plain v => v.literal?.map .number
  | .expr e => some e
  | .other => none

/-- An operation: on plain values at once, else on expressions. -/
def combine (onPlain : Value → Value → Except Fault Value)
    (onExpr : Expression → Expression → Except Fault Expression) (a b : Operand) :
    Except Fault Operand :=
  match a, b with
  | .plain v, .plain w => (onPlain v w).map .plain
  | a, b =>
    match a.toExpression?, b.toExpression? with
    | some d, some e => (onExpr d e).map .expr
    | _, _ => .error .wrongKind

/-- The sum of two operands. -/
def add : Operand → Operand → Except Fault Operand :=
  combine Value.add fun a b => .ok (a.plus b)

/-- The difference of two operands. -/
def sub : Operand → Operand → Except Fault Operand :=
  combine Value.sub fun a b => .ok (a.minus b)

/-- The product of two operands. -/
def mul : Operand → Operand → Except Fault Operand :=
  combine Value.mul fun a b => .ok (a.times b)

/-- The quotient of two operands. -/
def div : Operand → Operand → Except Fault Operand :=
  combine Value.div Expression.dividedBy

/-- A power. -/
def pow : Operand → Operand → Except Fault Operand :=
  combine Value.pow fun a b => .ok (a.power b)

/-- An operand with the other sign. -/
def neg : Operand → Except Fault Operand
  | .plain v => v.neg.map .plain
  | .expr e => .ok (.expr (.neg e))
  | .other => .error .wrongKind

/-- A function of an operand. -/
def apply (f : Function) : Operand → Except Fault Operand
  | .plain v =>
    match v.numeric? with
    | some x => (f.apply x).map fun y => .plain (.ofNumeric y)
    | none => .error .wrongKind
  | .expr e => .ok (.expr (.function f e))
  | .other => .error .wrongKind

/-- The sum of operands, from zero on. -/
def sum (operands : List Operand) : Except Fault Operand :=
  operands.foldlM add (.plain (.int 0))

/-- The expression that an operand is where one may be left out. -/
def expression? : Operand → Except Fault (Option Expression)
  | .plain .null => .ok none
  | o =>
    match o.toExpression? with
    | some e => .ok (some e)
    | none => .error .badValue

/-- The expression that an operand is where an expression is read; anything that is
    neither a number nor an expression has none. -/
def expression (o : Operand) : Except Fault Expression :=
  match o.toExpression? with
  | some e => .ok e
  | none => .error .noAttribute

end Operand

end BlockAngular
