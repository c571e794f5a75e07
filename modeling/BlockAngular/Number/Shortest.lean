import BlockAngular.Number.Binary64

/-! # Shortest decimals

The decimal text of a double has the fewest digits that still read back as the
same double, and among those it is the one nearest to its value. The search runs
over grids of one, two, … significant digits in exact arithmetic: on each grid
only the two neighbours of the value can be nearest.
-/

namespace BlockAngular.Shortest

/-- The reals that read back as the positive double `m * 2 ^ e`, as a closed or
    open interval. -/
structure Interval where
  low : Rat
  high : Rat
  /-- Whether the two ends belong to it. -/
  closed : Bool

/-- Whether a rational reads back as the double. -/
def Interval.holds (i : Interval) (q : Rat) : Bool :=
  if i.closed then decide (i.low ≤ q) && decide (q ≤ i.high)
  else decide (i.low < q) && decide (q < i.high)

/-- Half of the way to either neighbour. The neighbour below a power of two is
    twice as near, and ends belong to an even significand. -/
def interval (m : Nat) (e : Int) : Interval :=
  let quarter := Binary64.twoPow (e - 2)
  let down : Nat := if m = Nat.pow 2 52 ∧ -1074 < e then 1 else 2
  { low := ((4 * m - down : Nat) : Rat) * quarter
    high := ((4 * m + 2 : Nat) : Rat) * quarter
    closed := m % 2 == 0 }

/-- The decimal exponent of the leading digit of a positive rational. -/
def leadingExponent (q : Rat) : Int :=
  let guess := (((q.num.natAbs.log2 : Int) - (q.den.log2 : Int)) * 1233).fdiv 4096
  if q < Binary64.tenPow guess then guess - 1
  else if Binary64.tenPow (guess + 1) ≤ q then guess + 1
  else guess

/-- A positive decimal `digits * 10 ^ exponent`. -/
structure Decimal where
  digits : Nat
  exponent : Int
  deriving DecidableEq

/-- The neighbour of `v` on the grid of multiples of `10 ^ unit` that reads back,
    the nearer one first and on a tie the even one. -/
def onGrid? (i : Interval) (v : Rat) (unit : Int) : Option Decimal :=
  let step := Binary64.tenPow unit
  let low := (v / step).floor.toNat
  let gapLow := v - (low : Rat) * step
  let gapHigh := ((low + 1 : Nat) : Rat) * step - v
  let lowFirst := gapLow < gapHigh || (gapLow == gapHigh && low % 2 == 0)
  let (first, second) := if lowFirst then (low, low + 1) else (low + 1, low)
  if 0 < first && i.holds ((first : Rat) * step) then some ⟨first, unit⟩
  else if 0 < second && i.holds ((second : Rat) * step) then some ⟨second, unit⟩
  else none

/-- Drop the zeros at the end, at most `fuel` of them. -/
def stripZeros : Nat → Decimal → Decimal
  | 0, d => d
  | fuel + 1, d =>
    if d.digits % 10 = 0 ∧ d.digits ≠ 0 then stripZeros fuel ⟨d.digits / 10, d.exponent + 1⟩ else d

/-- Search the grids from `count` digits on, `fuel` of them. -/
def search (i : Interval) (v : Rat) (top : Int) : Nat → Nat → Option Decimal
  | 0, _ => none
  | fuel + 1, count =>
    match onGrid? i v (top - count + 1) with
    | some d => some d
    | none => search i v top fuel (count + 1)

/-- The shortest decimal that reads back as `m * 2 ^ e`, for a positive `m`.
    Seventeen digits always do. -/
def ofScaled (m : Nat) (e : Int) : Decimal :=
  let v := (m : Rat) * Binary64.twoPow e
  match search (interval m e) v (leadingExponent v) 17 1 with
  | some d => stripZeros 18 d
  | none => ⟨m, e⟩

end BlockAngular.Shortest
