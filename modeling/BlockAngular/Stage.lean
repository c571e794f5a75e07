import BlockAngular.Error

/-! # Stages

A stage changes a state and may fail; what it did before a failure remains.
-/

namespace BlockAngular

/-- A step of the work on a state. -/
abbrev Stage (σ α : Type) := EStateM Error σ α

namespace Stage

variable {σ α β : Type}

/-- A result that needs no state. -/
def ofExcept : Except Error α → Stage σ α
  | .ok a => pure a
  | .error e => throw e

/-- The result of an operation on data. -/
def ofFault : Except Fault α → Stage σ α
  | .ok a => pure a
  | .error e => throw (.fault e)

/-- Run a stage from a state; after a failure there is no state. -/
def finish (stage : Stage σ α) (s : σ) : Except Error (α × σ) :=
  match stage s with
  | .ok a s => .ok (a, s)
  | .error e _ => .error e

end Stage

end BlockAngular
