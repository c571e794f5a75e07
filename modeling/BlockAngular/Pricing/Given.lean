import BlockAngular.Model.World
import BlockAngular.Pricing.Basic
import BlockAngular.Value.Arithmetic

/-! # Given solutions

Solutions and dual values as they are given: values by variable or constraint. A
missing or absent value counts as zero, and text is read as a decimal number.
-/

namespace BlockAngular

namespace Pricing

/-- The number given for a handle. -/
def given (values : List (Handle × Value)) (h : Handle) : Except Fault Float :=
  match values.lookup h with
  | some v => v.toDoubleOrZero
  | none => .ok 0.0

/-- The current values of the variables of some models. -/
def current (w : World) (h : Handle) : Except Fault Float :=
  match w.variableOf? h with
  | some v => v.value.toDoubleOrZero
  | none => .ok 0.0

/-- The values that rows of a table give: the last one of a handle counts. -/
def ofRows (rows : List (Handle × Value)) : List (Handle × Value) :=
  rows.foldl (fun values (h, v) => Handle.put h v values) []

/-- Coefficients that are values: a product follows the arithmetic of values, while a
    conversion also reads text, and an absent value as no number. -/
def Coefficients.ofValues : Coefficients Value Float where
  times k x := do
    match ← Value.mul k (.float x) with
    | .float y => return y
    | _ => throw .wrongKind
  read k :=
    match k with
    | .null => .ok Binary64.notANumber
    | k => k.toDouble

end Pricing

end BlockAngular
