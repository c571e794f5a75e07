import BlockAngular.Error
import BlockAngular.Rule.Printer
import BlockAngular.Value.Arithmetic

/-! # Evaluating expressions

Constants, names, tuples, subscripts, attributes and arithmetic have values; no
other expression has one. Operands are evaluated from left to right, after the
operator has been looked up.
-/

namespace BlockAngular.Rule

/-- Names with their values; the first entry of a name counts. -/
abbrev Scope := List (String × Value)

namespace Scope

/-- The value of a name. -/
def value? (scope : Scope) (name : String) : Option Value :=
  List.lookup name scope

/-- Whether a name has a value. -/
def has (scope : Scope) (name : String) : Bool :=
  scope.any fun entry => entry.1 == name

end Scope

/-- Arithmetic has these binary operators and no others. -/
def BinaryOp.apply? : BinaryOp → Option (Value → Value → Except Fault Value)
  | .add => some Value.add
  | .sub => some Value.sub
  | .mul => some Value.mul
  | .div => some Value.div
  | .floorDiv => some Value.floorDiv
  | .mod => some Value.mod
  | .pow => some Value.pow
  | _ => none

/-- Arithmetic has these unary operators and no others. -/
def UnaryOp.apply? : UnaryOp → Option (Value → Except Fault Value)
  | .plus => some Value.plus
  | .minus => some Value.neg
  | _ => none

/-- A result on data as a result of the library. -/
def orFault {α : Type} : Except Fault α → Except Error α
  | .ok a => .ok a
  | .error cause => .error (.fault cause)

mutual

/-- The value of an expression. -/
def Expr.evaluate (scope : Scope) : Expr → Except Error Value
  | .constant value _ => .ok value
  | .name id =>
    match scope.value? id with
    | some value => .ok value
    | none => .error (.fault .noKey)
  | .tuple items => do return .tuple (← evaluateAll scope items)
  | .subscript base index => do
    let b ← base.evaluate scope
    let i ← index.evaluate scope
    orFault (b.item i)
  | .attribute base part => do
    let b ← base.evaluate scope
    orFault (b.attributeOf part)
  | .binary op left right =>
    match op.apply? with
    | none => .error (.fault .noKey)
    | some apply => do
      let l ← left.evaluate scope
      let r ← right.evaluate scope
      orFault (apply l r)
  | .unary op operand =>
    match op.apply? with
    | none => .error (.fault .noKey)
    | some apply => do
      let v ← operand.evaluate scope
      orFault (apply v)
  | e => do
    let text ← orFault e.written
    throw (.cannotEvaluate text)

/-- The values of expressions, from left to right. -/
def Expr.evaluateAll (scope : Scope) : List Expr → Except Error (List Value)
  | [] => .ok []
  | e :: rest => do
    let v ← e.evaluate scope
    let vs ← evaluateAll scope rest
    return v :: vs

end

end BlockAngular.Rule
