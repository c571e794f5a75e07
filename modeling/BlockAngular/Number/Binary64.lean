/-! # Doubles as exact numbers

A double is read through its bits: either it is not a number, or it is an
infinity, or it stands for exactly one rational. Comparisons between doubles and
integers of any size are made on these exact values, so no rounding takes part
in them. In the other direction `nearest` picks the double next to a rational,
a half going to the even neighbour.
-/

namespace BlockAngular

/-- The exact value that a double stands for. -/
inductive Exact where
  /-- Not a number. -/
  | nan
  /-- One of the two infinities. -/
  | infinite (negative : Bool)
  /-- A rational number; both zeros read as `0`. -/
  | finite (value : Rat)
  deriving DecidableEq

namespace Exact

/-- Equality of numbers; nothing equals a NaN. -/
def same : Exact → Exact → Bool
  | .finite a, .finite b => a == b
  | .infinite a, .infinite b => a == b
  | _, _ => false

/-- The strict order of the extended line; a NaN is below and above nothing. -/
def below : Exact → Exact → Bool
  | .finite a, .finite b => decide (a < b)
  | .finite _, .infinite negative => !negative
  | .infinite negative, .finite _ => negative
  | .infinite a, .infinite b => a && !b
  | _, _ => false

end Exact

namespace Binary64

/-- The sign bit. -/
def negative (x : Float) : Bool :=
  x.toBits.toNat / Nat.pow 2 63 == 1

/-- The eleven exponent bits. -/
def exponentBits (x : Float) : Nat :=
  x.toBits.toNat / Nat.pow 2 52 % Nat.pow 2 11

/-- The fifty-two fraction bits. -/
def fractionBits (x : Float) : Nat :=
  x.toBits.toNat % Nat.pow 2 52

/-- Significand `m` and exponent `e` of the magnitude `m * 2 ^ e` of a finite
    double. -/
def scaled (x : Float) : Nat × Int :=
  if exponentBits x = 0 then (fractionBits x, -1074)
  else (Nat.pow 2 52 + fractionBits x, (exponentBits x : Int) - 1075)

/-- The power of two with an exponent of either sign. -/
def twoPow (e : Int) : Rat :=
  if 0 ≤ e then (Nat.pow 2 e.toNat : Rat) else mkRat 1 (Nat.pow 2 (-e).toNat)

/-- The power of ten with an exponent of either sign. -/
def tenPow (e : Int) : Rat :=
  if 0 ≤ e then (Nat.pow 10 e.toNat : Rat) else mkRat 1 (Nat.pow 10 (-e).toNat)

/-- The exact value of a double. -/
def exact (x : Float) : Exact :=
  if exponentBits x = 2047 then
    if fractionBits x = 0 then .infinite (negative x) else .nan
  else
    let (m, e) := scaled x
    let magnitude := (m : Rat) * twoPow e
    .finite (if negative x then -magnitude else magnitude)

/-- The rational a finite double stands for. -/
def toRat? (x : Float) : Option Rat :=
  match exact x with
  | .finite q => some q
  | _ => none

/-- Whether a double is no number. -/
def isNaN (x : Float) : Bool :=
  exact x == .nan

/-- Whether a double is infinite. -/
def isInfinite (x : Float) : Bool :=
  match exact x with
  | .infinite _ => true
  | _ => false

/-- Both zeros, and nothing else. -/
def isZero (x : Float) : Bool :=
  exact x == .finite 0

/-- The quotient rounded to the nearest natural number, a half going to the even
    neighbour. -/
def roundDiv (num den : Nat) : Nat :=
  let q := num / den
  let r := num % den
  if 2 * r < den then q
  else if den < 2 * r then q + 1
  else q + q % 2

/-- `num / den` scaled by `2 ^ (-e)`, as a fraction again. -/
def shifted (num den : Nat) (e : Int) : Nat × Nat :=
  if 0 ≤ e then (num, den * Nat.pow 2 e.toNat) else (num * Nat.pow 2 (-e).toNat, den)

/-- The bits of the nonnegative double nearest to `num / den`. The carry of a
    rounded significand runs into the exponent field, which is the right
    neighbour; past the largest double stands infinity. -/
def nearestBits (num den : Nat) : Nat :=
  if num = 0 then 0 else
  let guess : Int := (num.log2 : Int) - (den.log2 : Int)
  let (a, b) := shifted num den guess
  let top := if a < b then guess - 1 else guess
  let e := max (top - 52) (-1074)
  let (a, b) := shifted num den e
  let bits := ((e + 1074).toNat) * Nat.pow 2 52 + roundDiv a b
  min bits (2047 * Nat.pow 2 52)

/-- The double nearest to a rational, infinite past the largest double. -/
def nearest (q : Rat) : Float :=
  let bits := nearestBits q.num.natAbs q.den
  Float.ofBits (UInt64.ofNat (if q.num < 0 then bits + Nat.pow 2 63 else bits))

/-- The double nearest to an integer, or nothing when it is past the largest
    double. -/
def ofInt? (n : Int) : Option Float :=
  let x := nearest (n : Rat)
  if isInfinite x then none else some x

/-- The double with the magnitude of the first and the sign of the second. -/
def withSignOf (x y : Float) : Float :=
  let sign := if negative y then Nat.pow 2 63 else 0
  Float.ofBits (UInt64.ofNat (x.toBits.toNat % Nat.pow 2 63 + sign))

/-- The positive infinity. -/
def infinity : Float :=
  Float.ofBits 0x7FF0000000000000

/-- The quiet NaN. -/
def notANumber : Float :=
  Float.ofBits 0x7FF8000000000000

/-- The integer part toward zero of a rational. -/
def truncate (q : Rat) : Int :=
  Int.tdiv q.num q.den

end Binary64

end BlockAngular
