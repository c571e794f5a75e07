/-! # Faults of operations on data

The causes for which an operation on values, on a model or on a table fails of
itself, without a rule of this library that forbids it.
-/

namespace BlockAngular

/-- The cause of a failed operation. -/
inductive Fault where
  /-- An operand of a kind that the operation does not take. -/
  | wrongKind
  /-- Division by zero, or zero to a negative power. -/
  | divisionByZero
  /-- A number too large for a double. -/
  | tooLarge
  /-- An operand of the right kind with an unusable value. -/
  | badValue
  /-- A position outside a sequence. -/
  | outOfRange
  /-- A key that a table does not have. -/
  | noKey
  /-- An attribute that a value does not have. -/
  | noAttribute
  /-- A relation that holds no variable part or no possible value. -/
  | emptyRelation
  /-- A sequence that is too long to be kept. -/
  | outOfMemory
  /-- A name that the model already gives to a component. -/
  | nameTaken
  /-- An element that is needed to make itself. -/
  | endless
  deriving DecidableEq, Repr

end BlockAngular
