import BlockAngular.Affine.Form
import BlockAngular.Error
import BlockAngular.Value.Number

/-! # Reading expressions as affine forms

An expression is walked from left to right with a multiplier. Constants and
coefficients add up as they come; a variable that is fixed counts as its number.
One part that is not affine spoils the whole form, but the walk goes on, so that a
part without a value is reported first.
-/

namespace BlockAngular

/-- What has been collected of an expression. -/
structure Collected where
  constant : Numeric
  terms : List (Handle × Numeric)
  /-- Whether every part so far was affine. -/
  affine : Bool

namespace Collected

/-- Nothing yet. -/
def empty : Collected :=
  ⟨.int 0, [], true⟩

/-- Whether a number is all there is; coefficients of zero do not count. -/
def isConstant (c : Collected) : Bool :=
  c.affine && c.terms.all fun (_, x) => x.isZero

/-- A multiple of a number; the integer one changes nothing. -/
def scaled (multiplier x : Numeric) : Except Fault Numeric :=
  match multiplier with
  | .int 1 => .ok x
  | m => Numeric.mul m x

/-- A sum; nothing is added to the integer zero. -/
def joined (total x : Numeric) : Except Fault Numeric :=
  match total with
  | .int 0 => .ok x
  | t => Numeric.add t x

/-- Add a multiple of a number to the constant. -/
def addConstant (c : Collected) (multiplier x : Numeric) : Except Fault Collected := do
  let product ← scaled multiplier x
  return { c with constant := ← joined c.constant product }

/-- Add to the coefficient of a variable. -/
def addTo (h : Handle) (x : Numeric) :
    List (Handle × Numeric) → Except Fault (List (Handle × Numeric))
  | [] => .ok [(h, x)]
  | (k, y) :: rest =>
    if k = h then do return (k, ← Numeric.add y x) :: rest
    else do return (k, y) :: (← addTo h x rest)

/-- Add a term for a free variable, or its number for a fixed one. -/
def addVariable (c : Collected) (r : Expression.Reading) (coefficient : Numeric) (h : Handle) :
    Except Fault Collected :=
  if r.isFixed h then do c.addConstant coefficient (← Expression.readNumber (r.current h))
  else do return { c with terms := ← addTo h coefficient c.terms }

/-- Whether a variable is fixed without a value. Sums take the values of their parts as they
    are, so this is no number there. -/
def isVoidVariable (r : Expression.Reading) (h : Handle) : Bool :=
  match r.current h with
  | .null => r.isFixed h
  | _ => false

/-- Add a multiple of the terms of a linear form. -/
def addTerms (r : Expression.Reading) (multiplier : Numeric) :
    List (Handle × Numeric) → Collected → Except Fault Collected
  | [], c => .ok c
  | (h, k) :: rest, c => do
    if isVoidVariable r h then throw .wrongKind
    addTerms r multiplier rest (← c.addVariable r (← scaled multiplier k) h)

/-- Note a part that is not affine. -/
def spoiled (c : Collected) : Collected :=
  { c with affine := false }

/-- Whether an expression is a multiple of a variable that is fixed without a value. -/
def isVoid (r : Expression.Reading) : Expression → Except Fault Bool
  | .variable h => .ok (isVoidVariable r h)
  | .neg a => isVoid r a
  | .mul a b => do
    if !a.hasVariables then
      if (← a.evaluate r).isZero then return false else isVoid r b
    else if !b.hasVariables then
      if (← b.evaluate r).isZero then return false else isVoid r a
    else return false
  | .div a b => if b.hasVariables then .ok false else isVoid r a
  | _ => .ok false

mutual

/-- Collect a multiple of an expression; without variables it is its value. A product
    needs a side that comes out as a number, a quotient such a divisor, a function such
    an argument, and a power such an exponent: zero, one, or any number if the base is
    fixed. A side of a product that is zero hides the other one. -/
def add (r : Expression.Reading) (m : Numeric) (e : Expression) (c : Collected) :
    Except Fault Collected :=
  if !e.hasVariables then do c.addConstant m (← e.evaluate r)
  else
    match e with
    | .number _ | .parameter _ => .ok c
    | .variable h => c.addVariable r m h
    | .linear constant terms => do addTerms r m terms (← c.addConstant m constant)
    | .named _ body => add r m body c
    | .sum parts => addAll r m parts c
    | .sub a b => do
      if ← isVoid r a then throw .wrongKind
      let left ← add r m a c
      if ← isVoid r b then throw .wrongKind
      add r m.neg b left
    | .neg a => add r m.neg a c
    | .mul a b => do
      if !a.hasVariables then
        let k ← a.evaluate r
        if k.isZero then return c else add r (← scaled m k) b c
      else if !b.hasVariables then
        let k ← b.evaluate r
        if k.isZero then return c else add r (← scaled m k) a c
      else
        let left ← add r (.int 1) a empty
        if left.isConstant then
          if left.constant.isZero then return c else add r (← scaled m left.constant) b c
        else
          let right ← add r (.int 1) b empty
          if right.isConstant then
            if right.constant.isZero then return c else add r (← scaled m right.constant) a c
          else return c.spoiled
    | .div a b => do
      let divisor ← add r (.int 1) b empty
      if divisor.isConstant then
        add r (← Numeric.div m (.float (← divisor.constant.real))) a c
      else return c.spoiled
    | .pow a b => do
      let exponent ← add r (.int 1) b empty
      if exponent.isConstant then
        if exponent.constant.isZero then c.addConstant m (.int 1)
        else if exponent.constant.isOne then add r m a c
        else if ← a.isFixed r then
          c.addConstant m (← Numeric.pow (← a.evaluate r) exponent.constant)
        else return c.spoiled
      else return c.spoiled
    | .function f a => do
      let argument ← add r (.int 1) a empty
      if argument.isConstant then c.addConstant m (← f.apply argument.constant)
      else return c.spoiled

/-- Collect a multiple of every part. -/
def addAll (r : Expression.Reading) (m : Numeric) (parts : List Expression) (c : Collected) :
    Except Fault Collected :=
  match parts with
  | [] => .ok c
  | part :: rest => do
    if ← isVoid r part then throw .wrongKind
    addAll r m rest (← add r m part c)

end

/-- The zero without a sign for a zero of either sign. -/
def plainZero (x : Float) : Float :=
  if x == 0.0 then 0.0 else x

/-- Terms as doubles. -/
def doubles : List (Handle × Numeric) → Except Fault (List (Handle × Float))
  | [] => .ok []
  | (h, x) :: rest => do return (h, ← x.real) :: (← doubles rest)

/-- The affine form of what was collected; coefficients of zero are dropped. -/
def form? (c : Collected) : Except Fault (Option AffineForm) :=
  if c.affine then do
    let terms ← doubles (c.terms.filter fun (_, x) => !x.isZero)
    return some ⟨plainZero (← c.constant.real), terms⟩
  else .ok none

end Collected

namespace Expression

/-- The value of a fixed variable as a double, which is read from text as well. -/
def fixedNumber : Value → Except Fault Float
  | .null => .error .badValue
  | v => v.toDouble

/-- The affine form of an expression, or nothing if it is not affine. -/
def affine? (r : Reading) (e : Expression) : Except Fault (Option AffineForm) := do
  let collect := do (← Collected.add r (.int 1) e Collected.empty).form?
  match e with
  | .variable h =>
    if r.isFixed h then return some ⟨Collected.plainZero (← fixedNumber (r.current h)), []⟩
    else collect
  | _ => collect

/-- The affine form of an expression that is known in messages by its context. -/
def affine (r : Reading) (context : String) (e : Expression) : Except Error AffineForm :=
  match e.affine? r with
  | .ok (some form) => .ok form
  | .ok none => .error (.notAffine context)
  | .error e => .error (.fault e)

end Expression

end BlockAngular
