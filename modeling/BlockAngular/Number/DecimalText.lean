import BlockAngular.Number.Shortest
import BlockAngular.Text.Blank
import BlockAngular.Text.Digit

/-! # Decimal text of doubles

Doubles are written with their shortest digits, positionally when the leading
digit stands between `10 ^ -4` and `10 ^ 15` and with an exponent of at least two
digits otherwise. Reading takes any decimal to the nearest double.
-/

namespace BlockAngular.DecimalText

/-- The decimal digits of a natural number. -/
def digits (n : Nat) : List Char :=
  Nat.toDigits 10 n

/-- An exponent with its sign and at least two digits. -/
def exponentText (e : Int) : List Char :=
  let ds := digits e.natAbs
  (if e < 0 then '-' else '+') :: (if ds.length < 2 then '0' :: ds else ds)

/-- A positive decimal; `whole` is put behind a number without a fraction. -/
def layout (d : Shortest.Decimal) (whole : List Char) : List Char :=
  let ds := digits d.digits
  let point : Int := ds.length + d.exponent
  if -4 < point ∧ point ≤ 16 then
    if point ≤ 0 then '0' :: '.' :: List.replicate (-point).toNat '0' ++ ds
    else if (ds.length : Int) ≤ point then
      ds ++ List.replicate (point.toNat - ds.length) '0' ++ whole
    else ds.take point.toNat ++ '.' :: ds.drop point.toNat
  else
    let fraction := ds.drop 1
    ds.take 1 ++ (if fraction.isEmpty then [] else '.' :: fraction) ++
      'e' :: exponentText (point - 1)

/-- A double without its sign. -/
def magnitude (x : Float) (whole : List Char) : List Char :=
  if Binary64.exponentBits x = 2047 then
    if Binary64.fractionBits x = 0 then ['i', 'n', 'f'] else ['n', 'a', 'n']
  else
    let (m, e) := Binary64.scaled x
    if m = 0 then '0' :: whole else layout (Shortest.ofScaled m e) whole

/-- Whether a double is written with a minus sign; a NaN never is. -/
def signed (x : Float) : Bool :=
  Binary64.negative x && !Binary64.isNaN x

/-- A double, with `whole` behind a number without a fraction. -/
def renderWith (whole : List Char) (x : Float) : List Char :=
  if signed x then '-' :: magnitude x whole else magnitude x whole

/-- A double on its own shows that it is one: whole numbers end in `.0`. -/
def render (x : Float) : List Char :=
  renderWith ['.', '0'] x

/-- The double nearest to `digits * 10 ^ exponent`. Numbers far outside the range
    of doubles are settled by their size alone. -/
def ofDecimal (digitsValue : Nat) (exponent : Int) : Float :=
  let size : Int := (Nat.toDigits 10 digitsValue).length + exponent
  if digitsValue = 0 ∨ size < -400 then 0.0
  else if 400 < size then Binary64.infinity
  else Binary64.nearest ((digitsValue : Rat) * Binary64.tenPow exponent)

/-- The number that decimal digits stand for. -/
def digitsNumber (ds : List Nat) : Nat :=
  ds.foldl (fun n d => 10 * n + d) 0

/-- Decimal digits at the start of a text, single underscores between two digits
    skipped, and the rest. `behind` says whether a digit stands before the text. -/
def takeDigits (behind : Bool) : List Char → List Nat × List Char
  | [] => ([], [])
  | c :: rest =>
    match Text.digitValue? c with
    | some d =>
      let (ds, r) := takeDigits true rest
      (d :: ds, r)
    | none =>
      if c == '_' && behind && (rest.head?.bind Text.digitValue?).isSome then
        takeDigits false rest
      else ([], c :: rest)

/-- An exponent part, all of the text: nothing, or `e`, a sign and digits. -/
def exponentPart? : List Char → Option Int
  | [] => some 0
  | c :: rest =>
    if c == 'e' || c == 'E' then
      let (negative, rest) := match rest with
        | '-' :: r => (true, r)
        | '+' :: r => (false, r)
        | r => (false, r)
      match takeDigits false rest with
      | ([], _) => none
      | (ds, []) => some (if negative then -(digitsNumber ds : Int) else digitsNumber ds)
      | _ => none
    else none

/-- An unsigned decimal with an optional fraction and exponent. -/
def unsigned? (text : List Char) : Option Float :=
  let (whole, rest) := takeDigits false text
  let (fraction, rest) := match rest with
    | '.' :: r => takeDigits false r
    | r => ([], r)
  if whole.isEmpty && fraction.isEmpty then none
  else
    (exponentPart? rest).map fun e =>
      ofDecimal (digitsNumber (whole ++ fraction)) (e - fraction.length)

/-- The blanks that may stand around a number: those of Unicode but for the four
    separators of ASCII. -/
def isMargin (c : Char) : Bool :=
  Text.isBlank c && !(0x1C ≤ c.toNat && c.toNat ≤ 0x1F)

/-- Read a double: blanks around it are ignored, and the names of the infinity and
    of NaN are known in any case of letters. -/
def read? (text : List Char) : Option Float :=
  let trimmed := ((text.dropWhile isMargin).reverse.dropWhile isMargin).reverse
  let (negative, body) := match trimmed with
    | '-' :: r => (true, r)
    | '+' :: r => (false, r)
    | r => (false, r)
  let word := String.ofList (body.map Char.toLower)
  let x? :=
    if word == "inf" || word == "infinity" then some Binary64.infinity
    else if word == "nan" then some Binary64.notANumber
    else unsigned? body
  x?.map fun x => if negative then -x else x

end BlockAngular.DecimalText
