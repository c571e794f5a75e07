import BlockAngular.Number.RoundedText
import BlockAngular.Value.Number
import BlockAngular.Value.Text

/-! # Filling formats

A format is text, or bytes, with fields that a percent sign starts: a key in round
brackets, flags, a width, a precision and a letter that says how the next argument is
written. A tuple brings several arguments, any other value is one, and a key takes its
argument from a table.
-/

namespace BlockAngular.Value.Format

/-- What a format is made of. -/
inductive Medium where
  | text | bytes
  deriving DecidableEq

/-- A field of a format. -/
structure Field where
  /-- Blanks go behind the argument, not before it. -/
  leftward : Bool
  /-- A number that is not negative bears a plus sign. -/
  plus : Bool
  /-- A number that is not negative has a blank in place of a sign. -/
  blank : Bool
  /-- Marks of bases and decimal points are always written. -/
  alternate : Bool
  /-- A number is filled up with zeros. -/
  zeros : Bool
  width : Nat
  precision : Option Nat

/-- The arguments that are left, and the value that keys are looked up in. -/
structure Arguments where
  left : List Value
  keyed : Option Value

namespace Arguments

/-- Whether keys can be looked up in a value. -/
def isKeyed (medium : Medium) : Value → Bool
  | .table _ | .list _ => true
  | .bytes _ => medium = .text
  | _ => false

/-- The arguments that a value brings. -/
def ofValue (medium : Medium) (v : Value) : Arguments :=
  match v with
  | .tuple items => ⟨items, none⟩
  | v => ⟨[v], if isKeyed medium v then some v else none⟩

/-- The next argument. -/
def next (a : Arguments) : Except Fault (Value × Arguments) :=
  match a.left with
  | [] => .error .wrongKind
  | v :: rest => .ok (v, { a with left := rest })

/-- The next argument as an integer. -/
def nextInteger (a : Arguments) : Except Fault (Int × Arguments) := do
  let (v, a) ← a.next
  match v.integer? with
  | some n => return (n, a)
  | none => throw .wrongKind

/-- Take the argument of a key; only tables have any. -/
def select (a : Arguments) (key : Value) : Except Fault Arguments :=
  match a.keyed with
  | some (.table entries) =>
    match lookup? key entries with
    | some v => .ok { a with left := [v] }
    | none => .error .noKey
  | _ => .error .wrongKind

end Arguments

/-- A key up to the bracket that closes it; brackets in it come in pairs. -/
def keyRun? (depth : Nat) : List Char → Option (List Char × List Char)
  | [] => none
  | c :: rest =>
    if c == ')' && depth == 0 then some ([], rest)
    else
      let depth := if c == '(' then depth + 1 else if c == ')' then depth - 1 else depth
      (keyRun? depth rest).map fun (key, after) => (c :: key, after)

/-- Flags in any order. -/
def readFlags (f : Field) : List Char → Field × List Char
  | [] => (f, [])
  | c :: rest =>
    if c == '-' then readFlags { f with leftward := true } rest
    else if c == '+' then readFlags { f with plus := true } rest
    else if c == ' ' then readFlags { f with blank := true } rest
    else if c == '#' then readFlags { f with alternate := true } rest
    else if c == '0' then readFlags { f with zeros := true } rest
    else (f, c :: rest)

/-- A decimal number below a bound, and the rest. -/
def readNumber (bound : Nat) (cs : List Char) : Except Fault (Nat × List Char) :=
  let n := (cs.takeWhile Char.isDigit).foldl (fun n c => 10 * n + (c.toNat - 48)) 0
  if n < bound then .ok (n, cs.dropWhile Char.isDigit) else .error .badValue

/-- The width: a number, or a star for the next argument, of which a negative one turns
    the field leftward. -/
def readWidth (f : Field) (a : Arguments) (cs : List Char) :
    Except Fault (Field × Arguments × List Char) :=
  match cs with
  | '*' :: rest => do
    let (n, a) ← a.nextInteger
    if !Numeric.fitsWord n then throw .tooLarge
    return ({ f with width := n.natAbs, leftward := f.leftward || n < 0 }, a, rest)
  | cs => do
    let (n, rest) ← readNumber (Nat.pow 2 63) cs
    return ({ f with width := n }, a, rest)

/-- The precision behind a point: a number, or a star for the next argument, of which a
    negative one counts as zero. -/
def readPrecision (f : Field) (a : Arguments) (cs : List Char) :
    Except Fault (Field × Arguments × List Char) :=
  match cs with
  | '.' :: '*' :: rest => do
    let (n, a) ← a.nextInteger
    if n < -2147483648 || 2147483647 < n then throw .tooLarge
    return ({ f with precision := some n.toNat }, a, rest)
  | '.' :: rest => do
    let (n, rest) ← readNumber (Nat.pow 2 31) rest
    return ({ f with precision := some n }, a, rest)
  | cs => .ok (f, a, cs)

/-- Drop the mark of a size, which says nothing. -/
def dropSize : List Char → List Char
  | c :: rest => if c == 'h' || c == 'l' || c == 'L' then rest else c :: rest
  | [] => []

/-- A value in text: text plainly, all else in its written form. -/
def plainText (v : Value) : Except Fault (List Char) :=
  match v with
  | .str s => .ok s.toList
  | v => if v.isWritable then .ok v.text else .error .badValue

/-- The written form of a value. -/
def quotedText (v : Value) : Except Fault (List Char) :=
  if v.isWritable then .ok v.text else .error .badValue

/-- The written form of a value with escapes past ASCII. -/
def asciiText (v : Value) : Except Fault (List Char) := do
  return (← quotedText v).flatMap fun c =>
    if c.toNat < 0x80 then [c] else Text.codeEscape c.toNat

/-- The integer of a number; a double loses its fraction. -/
def wholeNumber (v : Value) : Except Fault Int :=
  match v.numeric? with
  | some (.int n) => .ok n
  | some (.float x) =>
    match Binary64.exact x with
    | .finite q => .ok (Binary64.truncate q)
    | .infinite _ => .error .tooLarge
    | .nan => .error .badValue
  | _ => .error .wrongKind

/-- The digits of an integer with its sign and, in another base than ten, its mark. -/
def integerText (f : Field) (letter : Char) (v : Value) : Except Fault (List Char) := do
  let precision := f.precision.getD 0
  if letter == 'o' || letter == 'x' || letter == 'X' then
    let some n := v.integer? | throw .wrongKind
    let ds := Nat.toDigits (if letter == 'o' then 8 else 16) n.natAbs
    let ds := if letter == 'X' then ds.map Char.toUpper else ds
    layout precision n (if f.alternate then ['0', letter] else []) ds
  else
    let n ← wholeNumber v
    if n.natAbs < tooLong then layout precision n [] (DecimalText.digits n.natAbs)
    else throw .badValue
where
  /-- Sign, mark and digits, as many as the precision asks for. -/
  layout (precision : Nat) (n : Int) (mark ds : List Char) : Except Fault (List Char) :=
    if 2147483644 < precision then .error .tooLarge
    else .ok ((if n < 0 then ['-'] else []) ++ mark ++
      List.replicate (precision - ds.length) '0' ++ ds)

/-- The text of a double by the letter of its field. -/
def doubleText (f : Field) (letter : Char) (x : Float) : List Char :=
  let precision := f.precision.getD 6
  let form :=
    match letter.toLower with
    | 'e' => RoundedText.scientific f.alternate precision
    | 'f' => RoundedText.fixed f.alternate precision
    | _ => RoundedText.general f.alternate precision
  let text := RoundedText.signed form x
  if letter.isUpper then text.map Char.toUpper else text

/-- One character: itself, or by its code. -/
def characterText (medium : Medium) (v : Value) : Except Fault (List Char) :=
  match medium, v with
  | .text, .str s => if s.length = 1 then .ok s.toList else .error .wrongKind
  | .bytes, .bytes [b] => .ok [Char.ofNat b.toNat]
  | medium, v =>
    match v.integer? with
    | none => .error .wrongKind
    | some n =>
      let last := if medium = .text then 0x10FFFF else 0xFF
      if medium = .text && !Numeric.fitsWord n then .error .wrongKind
      else if n < 0 || last < n then .error .tooLarge
      else .ok [Char.ofNat n.toNat]

/-- The text of an argument by the letter of its field, and whether it is a number. -/
def argumentText (medium : Medium) (f : Field) (letter : Char) (v : Value) :
    Except Fault (List Char × Bool) := do
  let cut (text : List Char) : List Char × Bool :=
    ((f.precision.elim text fun n => text.take n), false)
  match letter with
  | 'd' | 'i' | 'u' | 'o' | 'x' | 'X' => return (← integerText f letter v, true)
  | 'e' | 'E' | 'f' | 'F' | 'g' | 'G' =>
    match medium, v.realNumber with
    | _, .ok x => return (doubleText f letter x, true)
    | .text, .error cause => throw cause
    | .bytes, .error _ => throw .wrongKind
  | 'c' => return (← characterText medium v, false)
  | 'a' => return cut (← asciiText v)
  | 'r' => return cut (← if medium = .text then quotedText v else asciiText v)
  | 's' | 'b' =>
    match medium, v with
    | .bytes, .bytes data => return cut (data.map fun b => Char.ofNat b.toNat)
    | .bytes, _ => throw .wrongKind
    | .text, v => if letter == 's' then return cut (← plainText v) else throw .badValue
  | _ => throw .badValue

/-- Whether a letter writes a number in a base that has a mark. -/
def hasMark (letter : Char) : Bool :=
  letter == 'o' || letter == 'x' || letter == 'X'

/-- An argument in its field: sign and mark first, and blanks or zeros up to the width. -/
def padded (f : Field) (letter : Char) (text : List Char) (isNumber : Bool) : List Char :=
  let isSign (c : Char) := c == '-' || c == '+'
  let sign :=
    if !isNumber then []
    else if text.head?.any isSign then text.take 1
    else if f.plus then ['+']
    else if f.blank then [' ']
    else []
  let body := if isNumber && text.head?.any isSign then text.drop 1 else text
  let mark := if f.alternate && hasMark letter then body.take 2 else []
  let body := body.drop mark.length
  let missing := f.width - (sign.length + mark.length + body.length)
  if f.leftward then sign ++ mark ++ body ++ List.replicate missing ' '
  else if f.zeros && isNumber then sign ++ mark ++ List.replicate missing '0' ++ body
  else List.replicate missing ' ' ++ sign ++ mark ++ body

/-- The most characters that a field may have. -/
def roomFor : Nat := Nat.pow 2 28

/-- A key as the value that it is looked up by. -/
def keyValue (medium : Medium) (key : List Char) : Value :=
  match medium with
  | .text => .str (String.ofList key)
  | .bytes => .bytes (key.map fun c => UInt8.ofNat c.toNat)

/-- Read a field behind its percent sign and write the argument that it takes. -/
def fillField (medium : Medium) (a : Arguments) (cs : List Char) :
    Except Fault (List Char × Arguments × List Char) := do
  let (a, cs) ← match cs with
    | '(' :: rest => do
      if a.keyed.isNone then throw .wrongKind
      match keyRun? 0 rest with
      | none => throw .badValue
      | some (key, rest) => pure (← a.select (keyValue medium key), rest)
    | cs => pure (a, cs)
  let (f, cs) := readFlags ⟨false, false, false, false, false, 0, none⟩ cs
  let (f, a, cs) ← readWidth f a cs
  let (f, a, cs) ← readPrecision f a cs
  match dropSize cs with
  | [] => throw .badValue
  | letter :: rest =>
    if letter == '%' then return (['%'], a, rest)
    else
      let (v, a) ← a.next
      if roomFor < f.precision.getD 0 then throw .outOfMemory
      let (text, isNumber) ← argumentText medium f letter v
      if roomFor < f.width then throw .outOfMemory
      return (padded f letter text isNumber, a, rest)

/-- Fill all fields; `fuel` bounds the length of the format. All arguments have to be
    used unless keys can be looked up in them. -/
def fillAll (medium : Medium) : Nat → Arguments → List Char → Except Fault (List Char)
  | 0, _, _ => .error .badValue
  | _ + 1, a, [] => if a.left.isEmpty || a.keyed.isSome then .ok [] else .error .wrongKind
  | fuel + 1, a, c :: rest =>
    if c == '%' then do
      let (text, a, rest) ← fillField medium a rest
      return text ++ (← fillAll medium fuel a rest)
    else do return c :: (← fillAll medium fuel a rest)

/-- A format with its fields filled in by the arguments that a value brings. -/
def fill (medium : Medium) (argument : Value) (format : List Char) : Except Fault (List Char) :=
  fillAll medium (format.length + 1) (.ofValue medium argument) format

end BlockAngular.Value.Format
