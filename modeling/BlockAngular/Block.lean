import BlockAngular.Key

/-! # Blocks

A model with block-angular structure falls into a master problem and subproblems,
each with an id of its own. Annotating a declared variable or constraint means to
name the block that it goes to.
-/

namespace BlockAngular

/-- The problem that a variable or constraint goes to. -/
inductive Block where
  | master
  | subproblem (id : Value)

namespace Block

/-- Whether a block is the master. -/
def isMaster : Block → Bool
  | .master => true
  | .subproblem _ => false

/-- A block whose id has marks on all its NaNs. -/
def marked (mark : Nat) : Block → Block
  | .master => .master
  | .subproblem id => .subproblem (id.marked mark)

/-- The master, or equal ids. -/
def same : Block → Block → Bool
  | .master, .master => true
  | .subproblem a, .subproblem b => Value.same a b
  | _, _ => false

/-- The block as a call. -/
def render : Block → String
  | .master => "master()"
  | .subproblem id => "subproblem(" ++ id.render ++ ")"

end Block

end BlockAngular
