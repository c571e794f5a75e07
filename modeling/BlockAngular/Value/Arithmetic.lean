import BlockAngular.Value.Format

/-! # Arithmetic and access on values

The operators that an expression may apply to values, the items of sequences and
tables, and attributes. Numbers follow `Numeric`, booleans count as integers, and
sequences can be joined and repeated. The remainder of text fills its fields in.
-/

namespace BlockAngular.Value

/-- Apply an operation on numbers. -/
def onNumbers (f : Numeric → Numeric → Except Fault Numeric) (a b : Value) : Except Fault Value :=
  match a.numeric?, b.numeric? with
  | some x, some y => (f x y).map ofNumeric
  | _, _ => .error .wrongKind

/-- The most items that a repeated sequence may have. -/
def roomFor : Nat := Nat.pow 2 28

/-- Repeat a sequence; a count below one gives the empty one, and a count that is no
    machine word is refused. A length that is none either is refused with the fault
    `overflow`. -/
def copies {α : Type} (items : List α) (count : Int) (overflow : Fault) :
    Except Fault (List α) :=
  let length := items.length * count.toNat
  if !Numeric.fitsWord count then .error .tooLarge
  else if !Numeric.fitsWord length then .error overflow
  else if roomFor < length then .error .outOfMemory
  else if items.isEmpty then .ok []
  else .ok (List.replicate count.toNat items).flatten

/-- Repeat a value that is a sequence. -/
def repeated (v : Value) (count : Int) : Except Fault Value :=
  match v with
  | .str s => (copies s.toList count .tooLarge).map fun cs => .str (String.ofList cs)
  | .bytes data => (copies data count .tooLarge).map .bytes
  | .tuple items => (copies items count .outOfMemory).map .tuple
  | .list items => (copies items count .outOfMemory).map .list
  | _ => .error .wrongKind

/-- The sum of numbers, or two sequences of one kind joined. -/
def add (a b : Value) : Except Fault Value :=
  match a, b with
  | .str s, .str t => .ok (.str (s ++ t))
  | .bytes s, .bytes t => .ok (.bytes (s ++ t))
  | .tuple s, .tuple t => .ok (.tuple (s ++ t))
  | .list s, .list t => .ok (.list (s ++ t))
  | a, b => onNumbers Numeric.add a b

/-- The difference of numbers. -/
def sub (a b : Value) : Except Fault Value :=
  onNumbers Numeric.sub a b

/-- The product of numbers, or a sequence repeated. -/
def mul (a b : Value) : Except Fault Value :=
  match a.numeric?, b.numeric? with
  | some x, some y => (Numeric.mul x y).map ofNumeric
  | none, some _ =>
    match b.integer? with
    | some n => repeated a n
    | none => .error .wrongKind
  | some _, none =>
    match a.integer? with
    | some n => repeated b n
    | none => .error .wrongKind
  | none, none => .error .wrongKind

/-- The quotient of numbers. -/
def div (a b : Value) : Except Fault Value :=
  onNumbers Numeric.div a b

/-- The quotient of numbers, rounded toward minus infinity. -/
def floorDiv (a b : Value) : Except Fault Value :=
  onNumbers Numeric.floorDiv a b

/-- The remainder of `floorDiv`, or text and bytes with their fields filled in. -/
def mod (a b : Value) : Except Fault Value :=
  match a with
  | .str text => (Format.fill .text b text.toList).map fun cs => .str (String.ofList cs)
  | .bytes data => (Format.fill .bytes b (data.map fun byte => Char.ofNat byte.toNat)).map fun cs =>
      .bytes (cs.map fun c => UInt8.ofNat c.toNat)
  | a => onNumbers Numeric.mod a b

/-- The power of numbers. -/
def pow (a b : Value) : Except Fault Value :=
  onNumbers Numeric.pow a b

/-- The number itself; a boolean becomes an integer. -/
def plus : Value → Except Fault Value
  | .nan mark => .ok (.nan mark)
  | v =>
    match v.numeric? with
    | some x => .ok (ofNumeric x)
    | none => .error .wrongKind

/-- The number with the other sign. -/
def neg (a : Value) : Except Fault Value :=
  match a.numeric? with
  | some x => .ok (ofNumeric x.neg)
  | none => .error .wrongKind

/-- The item at a position; negative positions count from the end. -/
def itemAt {α : Type} (items : List α) (position : Int) : Except Fault α :=
  let fromStart := if position < 0 then position + items.length else position
  if fromStart < 0 then .error .outOfRange
  else
    match items[fromStart.toNat]? with
    | some item => .ok item
    | none => .error .outOfRange

/-- The item of a sequence at a position that is itself a value. -/
def positioned {α : Type} (items : List α) (position : Value) : Except Fault α :=
  match position.integer? with
  | some n => itemAt items n
  | none => .error .wrongKind

/-- The item of a sequence or the entry of a table. -/
def item (v index : Value) : Except Fault Value :=
  match v with
  | .str s => (positioned s.toList index).map fun c => .str (String.singleton c)
  | .bytes data => (positioned data index).map fun b => .int b.toNat
  | .tuple items | .list items => positioned items index
  | .table entries =>
    if !index.hashable then .error .wrongKind
    else
      match lookup? index entries with
      | some found => .ok found
      | none => .error .noKey
  | _ => .error .wrongKind

/-- An attribute: of a record by name, and the parts of a number. -/
def attributeOf (v : Value) (name : String) : Except Fault Value :=
  match v with
  | .record fields =>
    match fields.find? fun field => field.1 == name with
    | some (_, found) => .ok found
    | none => .error .noAttribute
  | .complex re im =>
    if name == "real" then .ok (.float re)
    else if name == "imag" then .ok (.float im)
    else .error .noAttribute
  | .nan mark =>
    if name == "real" then .ok (.nan mark)
    else if name == "imag" then .ok (.float 0.0)
    else .error .noAttribute
  | .float x =>
    if name == "real" then .ok (.float x)
    else if name == "imag" then .ok (.float 0.0)
    else .error .noAttribute
  | v =>
    match v.integer? with
    | some n =>
      if name == "real" || name == "numerator" then .ok (.int n)
      else if name == "imag" then .ok (.int 0)
      else if name == "denominator" then .ok (.int 1)
      else .error .noAttribute
    | none => .error .noAttribute

end BlockAngular.Value
