import BlockAngular.Fault
import BlockAngular.Number.Binary64

/-! # Arithmetic on integers, doubles and complex numbers

Integers are unbounded. An integer that meets a double is converted to the
nearest one first, and a double that meets a complex number becomes one with
imaginary part zero. Quotients of integers are rounded once; integer division
rounds toward minus infinity, also for doubles.
-/

namespace BlockAngular

/-- A number of one of the three kinds. -/
inductive Numeric where
  | int (n : Int)
  | float (x : Float)
  | complex (re im : Float)

namespace Binary64

/-- The remainder of an exact division toward zero, with the sign of the dividend. -/
def remainder (x y : Float) : Float :=
  match exact x, exact y with
  | .finite p, .finite q =>
    if q = 0 then notANumber
    else
      let r := p - q * (truncate (p / q) : Rat)
      withSignOf (nearest r) x
  | .finite _, .infinite _ => x
  | _, _ => notANumber

/-- The remainder that has the sign of the divisor. -/
def modulo (x y : Float) : Float :=
  let r := remainder x y
  if isZero r then withSignOf 0.0 y
  else if negative y != negative r && !isNaN r then r + y
  else r

/-- The integral double at or below a finite one. -/
def floor (x : Float) : Float :=
  match toRat? x with
  | some q => withSignOf (nearest (q.floor : Rat)) x
  | none => x

/-- The quotient rounded toward minus infinity, computed through the remainder. -/
def floorDivide (x y : Float) : Float :=
  let r := remainder x y
  let quotient := (x - r) / y
  let tooLarge := !isZero r && !isNaN r && negative y != negative r
  let quotient := if tooLarge then quotient - 1.0 else quotient
  if isZero quotient then withSignOf 0.0 (x / y)
  else
    let whole := floor quotient
    if (0.5 : Float) < quotient - whole then whole + 1.0 else whole

/-- Whether a double is an integer. -/
def isIntegral (x : Float) : Bool :=
  match toRat? x with
  | some q => q.den == 1
  | none => false

/-- Whether a double is an odd integer. -/
def isOdd (x : Float) : Bool :=
  match toRat? x with
  | some q => q.den == 1 && q.num % 2 == 1
  | none => false

/-- The length of the hypotenuse of legs `x ≥ y` whose squares neither overflow nor
    vanish: the root of the rounded sum of squares, less its first-order error. -/
def hypotenuseKernel (x y : Float) : Float :=
  let h := (x * x + y * y).sqrt
  let (t, u) :=
    if h ≤ 2.0 * y then
      let delta := h - y
      (x * (2.0 * delta - x), (delta - 2.0 * (x - y)) * delta)
    else
      let delta := h - x
      (2.0 * delta * (x - 2.0 * y), (4.0 * delta - y) * y + delta * delta)
  h - (t + u) / (2.0 * h)

/-- The power of two with an exponent of either sign, as a double. -/
def scale (e : Int) : Float :=
  nearest (twoPow e)

/-- The length of the hypotenuse. Legs of extreme size are scaled first, and a leg that
    is far shorter than the other one is only added to it. -/
def hypotenuse (x y : Float) : Float :=
  if isInfinite x || isInfinite y then infinity
  else if isNaN x || isNaN y then notANumber
  else
    let long := if x.abs < y.abs then y.abs else x.abs
    let short := if x.abs < y.abs then x.abs else y.abs
    if short ≤ long * scale (-54) then long + short
    else if scale 511 < long then
      hypotenuseKernel (long * scale (-600)) (short * scale (-600)) / scale (-600)
    else if short < scale (-459) then
      hypotenuseKernel (long / scale (-600)) (short / scale (-600)) * scale (-600)
    else hypotenuseKernel long short

end Binary64

namespace Numeric

/-- The double nearest to an integer; past the largest one there is none. -/
def toDouble (n : Int) : Except Fault Float :=
  match Binary64.ofInt? n with
  | some x => .ok x
  | none => .error .tooLarge

/-- The double that a number takes part with in mixed arithmetic. -/
def asDouble : Numeric → Except Fault Float
  | .int n => toDouble n
  | .float x => .ok x
  | .complex re _ => .ok re

/-- The double that a real number is converted to. -/
def real : Numeric → Except Fault Float
  | .complex _ _ => .error .wrongKind
  | x => x.asDouble

/-- Whether an integer fits a machine word. -/
def fitsWord (n : Int) : Bool :=
  -9223372036854775808 ≤ n && n ≤ 9223372036854775807

/-- Real and imaginary part in complex arithmetic. -/
def asComplex : Numeric → Except Fault (Float × Float)
  | .int n => do return (← toDouble n, 0.0)
  | .float x => .ok (x, 0.0)
  | .complex re im => .ok (re, im)

/-- Two numbers lifted to the larger of their kinds. -/
inductive Pair where
  | ints (a b : Int)
  | floats (a b : Float)
  | complexes (a b : Float × Float)

/-- Lift two numbers to the larger of their kinds. -/
def pair : Numeric → Numeric → Except Fault Pair
  | .int a, .int b => .ok (.ints a b)
  | .complex re im, b => do return .complexes (re, im) (← b.asComplex)
  | a, .complex re im => do return .complexes (← a.asComplex) (re, im)
  | a, b => do
    let x ← a.asDouble
    let y ← b.asDouble
    return .floats x y

/-- The sum of two numbers. -/
def add (a b : Numeric) : Except Fault Numeric := do
  match ← pair a b with
  | .ints m n => return .int (m + n)
  | .floats x y => return .float (x + y)
  | .complexes (a, b) (c, d) => return .complex (a + c) (b + d)

/-- The difference of two numbers. -/
def sub (a b : Numeric) : Except Fault Numeric := do
  match ← pair a b with
  | .ints m n => return .int (m - n)
  | .floats x y => return .float (x - y)
  | .complexes (a, b) (c, d) => return .complex (a - c) (b - d)

/-- The product of two complex numbers. -/
def complexProduct (p q : Float × Float) : Float × Float :=
  (p.1 * q.1 - p.2 * q.2, p.1 * q.2 + p.2 * q.1)

/-- The product of two numbers. -/
def mul (a b : Numeric) : Except Fault Numeric := do
  match ← pair a b with
  | .ints m n => return .int (m * n)
  | .floats x y => return .float (x * y)
  | .complexes p q =>
    let (re, im) := complexProduct p q
    return .complex re im

/-- The quotient of complex numbers, scaled by the larger part of the divisor. -/
def complexQuotient (p q : Float × Float) : Except Fault (Float × Float) :=
  let (a, b) := p
  let (c, d) := q
  let absC := c.abs
  let absD := d.abs
  if absD ≤ absC then
    if Binary64.isZero absC then .error .divisionByZero
    else
      let ratio := d / c
      let den := c + d * ratio
      .ok ((a + b * ratio) / den, (b - a * ratio) / den)
  else if absC ≤ absD then
    let ratio := c / d
    let den := c * ratio + d
    .ok ((a * ratio + b) / den, (b * ratio - a) / den)
  else .ok (Binary64.notANumber, Binary64.notANumber)

/-- True division; integers give the double nearest to their quotient. -/
def div (a b : Numeric) : Except Fault Numeric := do
  match ← pair a b with
  | .ints m n =>
    if n = 0 then throw .divisionByZero
    else
      let x := Binary64.nearest ((m : Rat) / (n : Rat))
      let x := if m = 0 && decide (n < 0) then -x else x
      if Binary64.isInfinite x then throw .tooLarge else return .float x
  | .floats x y => if Binary64.isZero y then throw .divisionByZero else return .float (x / y)
  | .complexes p q =>
    let (re, im) ← complexQuotient p q
    return .complex re im

/-- Division rounded toward minus infinity; complex numbers have none. -/
def floorDiv (a b : Numeric) : Except Fault Numeric := do
  match ← pair a b with
  | .ints m n => if n = 0 then throw .divisionByZero else return .int (Int.fdiv m n)
  | .floats x y =>
    if Binary64.isZero y then throw .divisionByZero else return .float (Binary64.floorDivide x y)
  | .complexes _ _ => throw .wrongKind

/-- The remainder of `floorDiv`. -/
def mod (a b : Numeric) : Except Fault Numeric := do
  match ← pair a b with
  | .ints m n => if n = 0 then throw .divisionByZero else return .int (Int.fmod m n)
  | .floats x y =>
    if Binary64.isZero y then throw .divisionByZero else return .float (Binary64.modulo x y)
  | .complexes _ _ => throw .wrongKind

/-- Positive powers by repeated squaring, from the lowest binary digit of the
    exponent; `fuel` bounds the number of its digits. -/
def complexPower (fuel n : Nat) (result base : Float × Float) : Float × Float :=
  match fuel with
  | 0 => result
  | fuel + 1 =>
    if n = 0 then result
    else
      let result := if n % 2 = 1 then complexProduct result base else result
      complexPower fuel (n / 2) result (complexProduct base base)

/-- Powers of complex numbers: by products for small integral exponents, else
    through length and angle. -/
def complexPow (p q : Float × Float) : Except Fault (Float × Float) := do
  let (a, b) := p
  let (c, d) := q
  let (re, im) ←
    match Binary64.toRat? c with
    | some e =>
      if Binary64.isZero d && e.den == 1 && e.num.natAbs ≤ 100 then
        let power := complexPower 8 e.num.natAbs (1.0, 0.0) (a, b)
        if 0 < e.num then pure power else complexQuotient (1.0, 0.0) power
      else general a b c d
    | none => general a b c d
  if Binary64.isInfinite re || Binary64.isInfinite im then throw .tooLarge
  else return (re, im)
where
  /-- Powers through the length and the angle of the base. -/
  general (a b c d : Float) : Except Fault (Float × Float) :=
    if Binary64.isZero c && Binary64.isZero d then .ok (1.0, 0.0)
    else if Binary64.isZero a && Binary64.isZero b then
      if !Binary64.isZero d || Binary64.negative c then .error .divisionByZero else .ok (0.0, 0.0)
    else
      let length := Binary64.hypotenuse a b
      let angle := Float.atan2 b a
      let scale := Float.pow length c
      let phase := angle * c
      if Binary64.isZero d then .ok (scale * phase.cos, scale * phase.sin)
      else
        let scale := scale / Float.exp (angle * d)
        let phase := phase + d * length.log
        .ok (scale * phase.cos, scale * phase.sin)

/-- Powers of doubles. A negative base with a fractional exponent leaves the real
    numbers, and a result past the largest double is refused. -/
def doublePow (x y : Float) : Except Fault Numeric :=
  if Binary64.isZero y then .ok (.float 1.0)
  else if Binary64.isNaN x then .ok (.float x)
  else if Binary64.isNaN y then .ok (.float (if x == 1.0 then 1.0 else y))
  else if Binary64.isInfinite y then
    let size := x.abs
    if size == 1.0 then .ok (.float 1.0)
    else if (0.0 < y) == (1.0 < size) then .ok (.float y.abs)
    else .ok (.float 0.0)
  else if Binary64.isInfinite x then
    let odd := Binary64.isOdd y
    if 0.0 < y then .ok (.float (if odd then x else x.abs))
    else .ok (.float (if odd then Binary64.withSignOf 0.0 x else 0.0))
  else if Binary64.isZero x then
    if y < 0.0 then .error .divisionByZero
    else .ok (.float (if Binary64.isOdd y then x else 0.0))
  else if x < 0.0 && !Binary64.isIntegral y then
    (complexPow (x, 0.0) (y, 0.0)).map fun (re, im) => .complex re im
  else
    let size := Float.pow x.abs y
    if Binary64.isInfinite size then .error .tooLarge
    else .ok (.float (if x < 0.0 && Binary64.isOdd y then -size else size))

/-- Natural powers of an integer. Those of `0`, `1` and `-1` exist for every exponent, and
    of any other base only those that can be written down. -/
def integerPow (m : Int) (n : Nat) : Except Fault Int :=
  if m = 0 then .ok (if n = 0 then 1 else 0)
  else if m.natAbs = 1 then .ok (if n % 2 = 0 then 1 else m)
  else if longestExponent < n then .error .outOfMemory
  else .ok (Int.pow m n)
where
  /-- The largest exponent of a base other than `0`, `1` and `-1`. -/
  longestExponent : Nat := Nat.pow 2 32 - 1

/-- Powers; a negative power of an integer is a double. -/
def pow (a b : Numeric) : Except Fault Numeric := do
  match ← pair a b with
  | .ints m n =>
    if 0 ≤ n then return .int (← integerPow m n.toNat)
    else
      let x ← toDouble m
      let y ← toDouble n
      doublePow x y
  | .floats x y => doublePow x y
  | .complexes p q =>
    let (re, im) ← complexPow p q
    return .complex re im

/-- The number with the other sign. -/
def neg : Numeric → Numeric
  | .int n => .int (-n)
  | .float x => .float (-x)
  | .complex re im => .complex (-re) (-im)

end Numeric

end BlockAngular
