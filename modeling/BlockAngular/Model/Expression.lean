import BlockAngular.Model.Handle
import BlockAngular.Value.Number

/-! # Expressions

Expressions over variables and parameters, and what they stand for when parameters
and variables have values. Parameters and fixed variables are read when a value is asked
for.
-/

namespace BlockAngular

/-- The functions of one argument. -/
inductive Function where
  | abs | exp | log | sqrt | sin
  deriving DecidableEq, Repr

namespace Numeric

/-- Whether a number is zero, of either sign. -/
def isZero : Numeric → Bool
  | .int n => n == 0
  | .float x => Binary64.isZero x
  | .complex re im => Binary64.isZero re && Binary64.isZero im

/-- Whether a number is one. -/
def isOne : Numeric → Bool
  | .int n => n == 1
  | .float x => x == 1.0
  | .complex re im => re == 1.0 && Binary64.isZero im

/-- The exact value of a real number. -/
def toExact? : Numeric → Option Exact
  | .int n => some (.finite n)
  | .float x => some (Binary64.exact x)
  | .complex _ _ => none

end Numeric

namespace Function

/-- The function of a name. -/
def ofName? : String → Option Function
  | "abs" => some .abs
  | "exp" => some .exp
  | "log" => some .log
  | "sqrt" => some .sqrt
  | "sin" => some .sin
  | _ => none

/-- Refuse a result past the largest double. -/
def bounded (argument result : Float) : Except Fault Numeric :=
  if Binary64.isInfinite result && !Binary64.isInfinite argument then .error .tooLarge
  else .ok (.float result)

/-- The logarithm of a positive integer past the largest double: that of its leading
    digits, scaled below one, and that of the power of two it is scaled by. -/
def largeLog (n : Nat) : Float :=
  let bits := n.log2 + 1
  let leading := Binary64.nearest (mkRat n (Nat.pow 2 bits))
  let (leading, bits) := if leading == 1.0 then (0.5, bits + 1) else (leading, bits)
  leading.log + (2.0 : Float).log * bits.toFloat

/-- The value of a function; outside its domain there is none. -/
def apply (f : Function) (x : Numeric) : Except Fault Numeric :=
  match f, x with
  | .abs, .int n => .ok (.int n.natAbs)
  | .abs, .float x => .ok (.float x.abs)
  | .abs, .complex re im => .ok (.float (Binary64.hypotenuse re im))
  | .log, .int n =>
    match Binary64.ofInt? n with
    | some y => if n ≤ 0 then .error .badValue else .ok (.float y.log)
    | none => if n < 0 then .error .badValue else .ok (.float (largeLog n.natAbs))
  | f, x => do
    let y ← x.real
    match f with
    | .exp => bounded y y.exp
    | .log => if y ≤ 0.0 then throw .badValue else return .float y.log
    | .sqrt => if y < 0.0 then throw .badValue else return .float y.sqrt
    | .sin => if Binary64.isInfinite y then throw .badValue else return .float y.sin
    | .abs => return .float y.abs

end Function

/-- An expression over variables and parameters. -/
inductive Expression where
  | number (value : Numeric)
  | variable (handle : Handle)
  | parameter (handle : Handle)
  | sum (parts : List Expression)
  | sub (a b : Expression)
  | neg (a : Expression)
  | mul (a b : Expression)
  | div (a b : Expression)
  | pow (a b : Expression)
  | function (f : Function) (a : Expression)
  /-- A constant and products of a coefficient and a variable. -/
  | linear (constant : Numeric) (terms : List (Handle × Numeric))
  /-- An expression with a name of its own. -/
  | named (name : String) (body : Expression)

namespace Expression

instance : Inhabited Expression := ⟨.number (.int 0)⟩

mutual

/-- Whether an expression has variables; a name or a linear form counts as one. -/
def hasVariables : Expression → Bool
  | .number _ | .parameter _ => false
  | .variable _ | .linear _ _ | .named _ _ => true
  | .sum parts => anyHasVariables parts
  | .sub a b | .mul a b | .div a b | .pow a b => hasVariables a || hasVariables b
  | .neg a | .function _ a => hasVariables a

/-- Whether one of the parts has variables. -/
def anyHasVariables : List Expression → Bool
  | [] => false
  | part :: rest => hasVariables part || anyHasVariables rest

end

/-- The number that a literal stands for. -/
def number? : Expression → Option Numeric
  | .number x => some x
  | _ => none

/-- What parameters and variables stand for. -/
structure Reading where
  /-- The value of a parameter. -/
  parameter : Handle → Value
  /-- The current value of a variable. -/
  current : Handle → Value
  /-- Whether a variable is fixed at its current value. -/
  isFixed : Handle → Bool

/-- The number that stands at a place where one is read. -/
def readNumber : Value → Except Fault Numeric
  | .null => .error .badValue
  | v =>
    match v.numeric? with
    | some x => .ok x
    | none => .error .wrongKind

mutual

/-- The value of an expression at the current values of its variables. -/
def evaluate (r : Reading) : Expression → Except Fault Numeric
  | .number x => .ok x
  | .parameter h => readNumber (r.parameter h)
  | .variable h => readNumber (r.current h)
  | .sum parts => evaluateSum r (.int 0) parts
  | .sub a b => do Numeric.sub (← evaluate r a) (← evaluate r b)
  | .neg a => return (← evaluate r a).neg
  | .mul a b => do Numeric.mul (← evaluate r a) (← evaluate r b)
  | .div a b => do Numeric.div (← evaluate r a) (← evaluate r b)
  | .pow a b => do Numeric.pow (← evaluate r a) (← evaluate r b)
  | .function f a => do f.apply (← evaluate r a)
  | .linear constant terms =>
    terms.foldlM (fun total (h, k) => do
      Numeric.add total (← Numeric.mul k (← readNumber (r.current h)))) constant
  | .named _ body => evaluate r body

/-- The sum of the values of some parts. -/
def evaluateSum (r : Reading) (total : Numeric) : List Expression → Except Fault Numeric
  | [] => .ok total
  | part :: rest => do
    let x ← evaluate r part
    evaluateSum r (← Numeric.add total x) rest

end

/-- Whether an expression, if it is a fixed one, has the value zero. -/
def isFixedZero (r : Reading) (e : Expression) (fixed : Bool) : Except Fault Bool := do
  if fixed then return (← e.evaluate r).isZero else return false

mutual

/-- Whether the value of an expression is fixed: all of its parts are, or a factor that
    is fixed is zero, or an exponent that is fixed is. -/
def isFixed (r : Reading) : Expression → Except Fault Bool
  | .number _ | .parameter _ => .ok true
  | .variable h => .ok (r.isFixed h)
  | .sum parts => allFixed r parts
  | .sub a b | .div a b => do
    let left ← isFixed r a
    let right ← isFixed r b
    return left && right
  | .neg a | .function _ a | .named _ a => isFixed r a
  | .mul a b => do
    let left ← isFixed r a
    let right ← isFixed r b
    if left && right then return true
    return (← isFixedZero r a left) || (← isFixedZero r b right)
  | .pow a b => do
    let base ← isFixed r a
    let exponent ← isFixed r b
    if base && exponent then return true
    isFixedZero r b exponent
  | .linear _ terms => .ok (terms.all fun (h, k) => r.isFixed h || k.isZero)

/-- Whether the values of all parts are fixed. -/
def allFixed (r : Reading) : List Expression → Except Fault Bool
  | [] => .ok true
  | part :: rest => do
    let first ← isFixed r part
    let others ← allFixed r rest
    return first && others

end

/-- A linear form with doubles for numbers. -/
def ofTerms (constant : Float) (terms : List (Handle × Float)) : Expression :=
  .linear (.float constant) (terms.map fun (h, c) => (h, .float c))

end Expression

end BlockAngular
