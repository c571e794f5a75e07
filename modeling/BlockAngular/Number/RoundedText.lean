import BlockAngular.Number.DecimalText

/-! # Rounded decimal text

The decimal text of a double with a given number of places: positionally, with an
exponent, or in the shorter of the two forms. The exact value is rounded once, a half
going to the even neighbour.
-/

namespace BlockAngular.RoundedText

/-- The magnitude of a finite double as a fraction. -/
def fraction (x : Float) : Nat × Nat :=
  let (m, e) := Binary64.scaled x
  if 0 ≤ e then (m * Nat.pow 2 e.toNat, 1) else (m, Nat.pow 2 (-e).toNat)

/-- The decimal digits of a natural number, at least `count` of them. -/
def digitsOf (count n : Nat) : List Char :=
  let ds := DecimalText.digits n
  List.replicate (count - ds.length) '0' ++ ds

/-- A whole part and a fraction with a point between them, which `pointed` keeps even
    before an empty fraction. -/
def withPoint (pointed : Bool) (whole fraction : List Char) : List Char :=
  if fraction.isEmpty && !pointed then whole else whole ++ '.' :: fraction

/-- The digits before and behind the point when there are `places` behind it. -/
def fixedDigits (places : Nat) (x : Float) : List Char × List Char :=
  let (num, den) := fraction x
  let ds := digitsOf (places + 1) (Binary64.roundDiv (num * Nat.pow 10 places) den)
  (ds.take (ds.length - places), ds.drop (ds.length - places))

/-- The exponent of the leading decimal digit of a positive fraction. -/
def leadingExponent (num den : Nat) : Int :=
  let guess : Int := ((DecimalText.digits num).length : Int) - (DecimalText.digits den).length
  let reached :=
    if 0 ≤ guess then den * Nat.pow 10 guess.toNat ≤ num
    else den ≤ num * Nat.pow 10 (-guess).toNat
  if reached then guess else guess - 1

/-- The leading digit with `places` more, and its exponent. -/
def leadingDigits (places : Nat) (x : Float) : List Char × Int :=
  let (num, den) := fraction x
  if num = 0 then (List.replicate (places + 1) '0', 0)
  else
    let e := leadingExponent num den
    let shift := (places : Int) - e
    let n :=
      if 0 ≤ shift then Binary64.roundDiv (num * Nat.pow 10 shift.toNat) den
      else Binary64.roundDiv num (den * Nat.pow 10 (-shift).toNat)
    let ds := digitsOf (places + 1) n
    if places + 1 < ds.length then (ds.take (places + 1), e + 1) else (ds, e)

/-- Digits with the point behind the first one, and an exponent. -/
def withExponent (pointed : Bool) (ds : List Char) (e : Int) : List Char :=
  withPoint pointed (ds.take 1) (ds.drop 1) ++ 'e' :: DecimalText.exponentText e

/-- Positional text with a number of places behind the point. -/
def fixed (pointed : Bool) (places : Nat) (x : Float) : List Char :=
  let (whole, fraction) := fixedDigits places x
  withPoint pointed whole fraction

/-- Text with an exponent and a number of places behind the point. -/
def scientific (pointed : Bool) (places : Nat) (x : Float) : List Char :=
  let (ds, e) := leadingDigits places x
  withExponent pointed ds e

/-- Digits without the zeros at their end. -/
def withoutZeros (ds : List Char) : List Char :=
  (ds.reverse.dropWhile (· == '0')).reverse

/-- Text with a number of significant digits: positional when the exponent is not below
    `-4` and below that number. Zeros at the end are dropped unless `pointed` keeps
    them and the point. -/
def general (pointed : Bool) (significant : Nat) (x : Float) : List Char :=
  let count := max 1 significant
  let (ds, e) := leadingDigits (count - 1) x
  let kept (fraction : List Char) := if pointed then fraction else withoutZeros fraction
  if e < -4 || (count : Int) ≤ e then
    withExponent pointed (ds.take 1 ++ kept (ds.drop 1)) e
  else if e < 0 then
    withPoint pointed ['0'] (kept (List.replicate (-e - 1).toNat '0' ++ ds))
  else withPoint pointed (ds.take (e.toNat + 1)) (kept (ds.drop (e.toNat + 1)))

/-- The text of a double, with a minus sign in front of a negative one. -/
def signed (finiteText : Float → List Char) (x : Float) : List Char :=
  let text :=
    if Binary64.exponentBits x = 2047 then DecimalText.magnitude x [] else finiteText x
  if DecimalText.signed x then '-' :: text else text

end BlockAngular.RoundedText
