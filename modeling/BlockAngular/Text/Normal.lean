import BlockAngular.Text.NormalTables

/-! # The compatibility normal form of identifiers

Two identifiers are the same name when their compatibility normal forms agree:
decompose every character fully, put the combining marks into canonical order,
and compose again. ASCII text is its own normal form.
-/

namespace BlockAngular.Text

/-- A run of code points and what its first one is sent to. -/
structure CodeRun where
  first : Nat
  last : Nat
  image : List Nat

/-- The value of a hexadecimal number written with capital letters. -/
def hexValue (word : List Char) : Nat :=
  word.foldl (fun n c => 16 * n + (if c.isDigit then c.toNat - 48 else c.toNat - 55)) 0

/-- Read one word of a table. -/
def CodeRun.ofWord (word : String) : CodeRun :=
  let chars := word.toList
  let source := chars.takeWhile (· != '=')
  let image := ((chars.dropWhile (· != '=')).drop 1).splitOn '+' |>.map hexValue
  { first := hexValue (source.takeWhile (· != '-'))
    last := hexValue ((source.splitOn '-').getLastD [])
    image }

/-- Read a table of runs. -/
def CodeRun.ofLines (lines : List String) : Array CodeRun :=
  (lines.flatMap fun line => (line.splitOn " ").map CodeRun.ofWord).toArray

/-- What a table of runs sends a code point to. -/
def CodeRun.find? (runs : Array CodeRun) (code : Nat) : Option (List Nat) :=
  (runs.find? fun run => run.first ≤ code && code ≤ run.last).map fun run =>
    run.image.map (· + (code - run.first))

/-- The characters that decompose, with what they decompose into. -/
def decompositions : Array CodeRun :=
  CodeRun.ofLines decompositionLines

/-- The characters whose combining class is not zero. -/
def combiningClasses : Array CodeRun :=
  CodeRun.ofLines combiningClassLines

/-- A pair of code points and the one it composes to. -/
def compositions : Array (Nat × Nat × Nat) :=
  (compositionLines.flatMap fun line => (line.splitOn " ").map fun word =>
    let chars := word.toList
    let pair := (chars.takeWhile (· != '=')).splitOn '+' |>.map hexValue
    (pair.headD 0, pair.getLastD 0, hexValue ((chars.dropWhile (· != '=')).drop 1))).toArray

/-- Full decomposition of one code point; Hangul syllables split by arithmetic. -/
def decomposeCode (code : Nat) : List Nat :=
  if 0xAC00 ≤ code && code < 0xAC00 + 11172 then
    let s := code - 0xAC00
    let lead := 0x1100 + s / 588
    let vowel := 0x1161 + s % 588 / 28
    if s % 28 = 0 then [lead, vowel] else [lead, vowel, 0x11A7 + s % 28]
  else (CodeRun.find? decompositions code).getD [code]

/-- The canonical combining class; zero for a character that starts a group. -/
def combiningClass (code : Nat) : Nat :=
  match combiningClasses.find? fun run => run.first ≤ code && code ≤ run.last with
  | some run => run.image.headD 0
  | none => 0

/-- Put a mark of class `k` behind the marks of higher class at the end of a
    reversed text. -/
def insertMark (k code : Nat) : List Nat → List Nat
  | [] => [code]
  | c :: earlier =>
    if k < combiningClass c then c :: insertMark k code earlier else code :: c :: earlier

/-- Put the marks of every group into ascending class order, stably. -/
def canonicalOrder (codes : List Nat) : List Nat :=
  (codes.foldl (fun done code =>
    let k := combiningClass code
    if k = 0 then code :: done else insertMark k code done) []).reverse

/-- The composite of two code points, if there is one. -/
def composePair? (a b : Nat) : Option Nat :=
  if 0x1100 ≤ a && a < 0x1113 && 0x1161 ≤ b && b < 0x1176 then
    some (0xAC00 + ((a - 0x1100) * 21 + (b - 0x1161)) * 28)
  else if 0xAC00 ≤ a && a < 0xAC00 + 11172 && (a - 0xAC00) % 28 = 0 && 0x11A8 ≤ b && b < 0x11C3 then
    some (a + (b - 0x11A7))
  else (compositions.find? fun (x, y, _) => x == a && y == b).map (·.2.2)

/-- Compose from left to right. `starter` is the character that the following ones
    may join and `marks` are those behind it that did not, in reverse; a mark
    is blocked by one of its own or a higher class. -/
def compose (done : List Nat) (starter : Option Nat) (marks : List Nat) : List Nat → List Nat
  | [] => (marks ++ starter.toList ++ done).reverse
  | c :: rest =>
    let k := combiningClass c
    match starter with
    | none => if k = 0 then compose done (some c) [] rest else compose (c :: done) none [] rest
    | some s =>
      let blocked := match marks with
        | [] => false
        | m :: _ => k ≤ combiningClass m
      match if blocked then none else composePair? s c with
      | some joined => compose done (some joined) marks rest
      | none =>
        if k = 0 then compose (marks ++ s :: done) (some c) [] rest
        else compose done (some s) (c :: marks) rest

/-- The compatibility normal form of an identifier. -/
def normalForm (name : List Char) : List Char :=
  if name.all (·.toNat < 0x80) then name
  else
    (compose [] none []
      (canonicalOrder (name.flatMap fun c => decomposeCode c.toNat))).map Char.ofNat

end BlockAngular.Text
