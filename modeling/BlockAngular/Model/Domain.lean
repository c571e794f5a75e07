import BlockAngular.Value.Basic

/-! # Domains

The sets that the values of a variable are taken from. Each has bounds of its own
and may admit integers only; the two sets `0` and `1` are binary as well.
-/

namespace BlockAngular

/-- The set of values of a variable. -/
inductive Domain where
  | reals
  | nonNegativeReals
  | nonPositiveReals
  | positiveReals
  | negativeReals
  | unitInterval
  | percentFraction
  | integers
  | nonNegativeIntegers
  | nonPositiveIntegers
  | positiveIntegers
  | negativeIntegers
  | binary
  | boolean
  deriving DecidableEq, Repr

namespace Domain

/-- All domains. -/
def all : List Domain :=
  [.reals, .nonNegativeReals, .nonPositiveReals, .positiveReals, .negativeReals, .unitInterval,
    .percentFraction, .integers, .nonNegativeIntegers, .nonPositiveIntegers, .positiveIntegers,
    .negativeIntegers, .binary, .boolean]

/-- The name of a domain. -/
def name : Domain → String
  | .reals => "Reals"
  | .nonNegativeReals => "NonNegativeReals"
  | .nonPositiveReals => "NonPositiveReals"
  | .positiveReals => "PositiveReals"
  | .negativeReals => "NegativeReals"
  | .unitInterval => "UnitInterval"
  | .percentFraction => "PercentFraction"
  | .integers => "Integers"
  | .nonNegativeIntegers => "NonNegativeIntegers"
  | .nonPositiveIntegers => "NonPositiveIntegers"
  | .positiveIntegers => "PositiveIntegers"
  | .negativeIntegers => "NegativeIntegers"
  | .binary => "Binary"
  | .boolean => "Boolean"

/-- The domain of a name. -/
def ofName? (name : String) : Option Domain :=
  all.find? fun d => d.name == name

/-- The least value, or the limit of the values from below. -/
def lower : Domain → Option Int
  | .nonNegativeReals | .positiveReals | .unitInterval | .percentFraction
  | .nonNegativeIntegers | .binary | .boolean => some 0
  | .positiveIntegers => some 1
  | _ => none

/-- The largest value, or the limit of the values from above. -/
def upper : Domain → Option Int
  | .nonPositiveReals | .negativeReals | .nonPositiveIntegers => some 0
  | .unitInterval | .percentFraction | .binary | .boolean => some 1
  | .negativeIntegers => some (-1)
  | _ => none

/-- Whether the domain is a set of two integers, `0` and `1`. -/
def isBinary : Domain → Bool
  | .binary | .boolean => true
  | _ => false

/-- Whether the domain holds integers only. -/
def isDiscrete : Domain → Bool
  | .integers | .nonNegativeIntegers | .nonPositiveIntegers | .positiveIntegers
  | .negativeIntegers | .binary | .boolean => true
  | _ => false

end Domain

end BlockAngular
