import BlockAngular.Number.DecimalText
import BlockAngular.Number.Numeric
import BlockAngular.Value.Basic

/-! # Values as numbers

The number that a value takes part with in arithmetic, the integer that it stands for
as a position, and the double that it is converted to. A conversion reads text as
well, arithmetic does not.
-/

namespace BlockAngular.Value

/-- The number that a value takes part with in arithmetic. -/
def numeric? : Value → Option Numeric
  | .bool b => some (.int (if b then 1 else 0))
  | .int n => some (.int n)
  | .float x => some (.float x)
  | .nan _ => some (.float Binary64.notANumber)
  | .complex re im => some (.complex re im)
  | _ => none

/-- A number as a value. -/
def ofNumeric : Numeric → Value
  | .int n => .int n
  | .float x => .float x
  | .complex re im => .complex re im

/-- The integer that a value stands for as a position or a count. -/
def integer? : Value → Option Int
  | .bool b => some (if b then 1 else 0)
  | .int n => some n
  | _ => none

/-- The double of a value that is a real number. -/
def realNumber : Value → Except Fault Float := fun v =>
  match v.numeric? with
  | some x => x.real
  | none => .error .wrongKind

/-- The double that a value is converted to: text and ASCII bytes are read. -/
def toDouble : Value → Except Fault Float
  | .str s =>
    match DecimalText.read? s.toList with
    | some x => .ok x
    | none => .error .badValue
  | .bytes data =>
    let cs := data.map fun b => Char.ofNat b.toNat
    match if cs.all (·.toNat < 0x80) then DecimalText.read? cs else none with
    | some x => .ok x
    | none => .error .badValue
  | v => v.realNumber

/-- The double of a value that may be absent. -/
def toDoubleOrZero : Value → Except Fault Float
  | .null => .ok 0.0
  | v => v.toDouble

end BlockAngular.Value
