import BlockAngular.Key
import BlockAngular.Model.Constraint
import BlockAngular.Stage

/-! # Formulas

Expressions and relations as they are written down: variables and other elements are
named by their keys, components by their names. What a formula comes out as hangs on the
model in which it is read, and is found when it is needed.
-/

namespace BlockAngular

/-- A written expression. -/
inductive Formula where
  | literal (v : Value)
  /-- The element of a key. -/
  | element (key : Key)
  /-- The component of a name, as a whole. -/
  | component (name : String)
  | sum (parts : List Formula)
  | sub (a b : Formula)
  | neg (a : Formula)
  | mul (a b : Formula)
  | div (a b : Formula)
  | pow (a b : Formula)
  | function (f : Function) (a : Formula)
  /-- A constant and products of a coefficient and an element. -/
  | linear (constant : Value) (terms : List (Value × Key))

/-- A written relation. -/
inductive Relation where
  /-- A body between two sides that may be absent. -/
  | range (lower : Option Formula) (body : Formula) (upper : Option Formula)
  | atMost (a b : Formula)
  | atLeast (a b : Formula)
  | equal (a b : Formula)

/-- How the names in a formula are looked up in the state `σ`. -/
structure Lookup (σ : Type) where
  element : Key → Stage σ Operand
  component : String → Stage σ Operand

namespace Formula

variable {σ : Type}

/-- Terms one after the other: coefficients are numbers, and elements variables or other
    expressions. -/
def readTerms (find : Lookup σ) :
    List (Value × Key) → Stage σ (List (Numeric × Expression))
  | [] => pure []
  | (k, key) :: rest => do
    let k ← Stage.ofFault (Expression.readNumber k)
    let e ← Stage.ofFault (← find.element key).expression
    return (k, e) :: (← readTerms find rest)

/-- A linear form over variables, or the sum of products if there are other elements. -/
def linearForm (constant : Numeric) (terms : List (Numeric × Expression)) : Expression :=
  let linear := terms.filterMap fun (k, e) =>
    match e with
    | .variable h => some (h, k)
    | _ => none
  if linear.length = terms.length then .linear constant linear
  else .sum (.number constant :: terms.map fun (k, e) => .mul (.number k) e)

mutual

/-- What a formula comes out as, read from left to right. -/
def operand (find : Lookup σ) : Formula → Stage σ Operand
  | .literal v => pure (.plain v)
  | .element key => find.element key
  | .component name => find.component name
  | .sum parts => do Stage.ofFault (Operand.sum (← operands find parts))
  | .sub a b => do
    let x ← operand find a
    let y ← operand find b
    Stage.ofFault (x.sub y)
  | .neg a => do Stage.ofFault (← operand find a).neg
  | .mul a b => do
    let x ← operand find a
    let y ← operand find b
    Stage.ofFault (x.mul y)
  | .div a b => do
    let x ← operand find a
    let y ← operand find b
    Stage.ofFault (x.div y)
  | .pow a b => do
    let x ← operand find a
    let y ← operand find b
    Stage.ofFault (x.pow y)
  | .function f a => do Stage.ofFault ((← operand find a).apply f)
  | .linear constant terms => do
    let terms ← readTerms find terms
    let constant ← Stage.ofFault (Expression.readNumber constant)
    return .expr (linearForm constant terms)

/-- What some formulas come out as. -/
def operands (find : Lookup σ) : List Formula → Stage σ (List Operand)
  | [] => pure []
  | a :: rest => do
    let x ← operand find a
    return x :: (← operands find rest)

end

/-- The operand of a formula that may be absent. -/
def operand? (find : Lookup σ) : Option Formula → Stage σ (Option Operand)
  | none => pure none
  | some a => do return some (← operand find a)

end Formula

namespace Relation

variable {σ : Type}

/-- What two formulas come out as. -/
def sides (find : Lookup σ) (a b : Formula) : Stage σ (Operand × Operand) := do
  let x ← a.operand find
  return (x, ← b.operand find)

/-- What a relation states. -/
def statement (find : Lookup σ) : Relation → Stage σ Statement
  | .range lower body upper => do
    let lower ← Formula.operand? find lower
    let body ← body.operand find
    return .range lower body (← Formula.operand? find upper)
  | .atMost a b => do
    let (x, y) ← sides find a b
    Stage.ofFault (x.atMost y)
  | .atLeast a b => do
    let (x, y) ← sides find a b
    Stage.ofFault (y.atMost x)
  | .equal a b => do
    let (x, y) ← sides find a b
    return x.equal y

end Relation

end BlockAngular
