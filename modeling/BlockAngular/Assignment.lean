import BlockAngular.Classify
import BlockAngular.Model.Basic
import BlockAngular.Partition

/-! # Assignments of models

An annotation function is asked for every declared variable and then for every
declared constraint of a model, in the order of declaration, and the first key
without a block ends the questions. A NaN that an answer makes up for an id is a new one
every time; its mark tells which question it came from.
-/

namespace BlockAngular

namespace Classify

/-- The blocks of some keys. The mark is that of the first question. -/
def table (classify : Classify) (mark : Nat) : List Key → Except Error KeyTable
  | [] => .ok []
  | key :: rest => do
    let block ← classify.resolve key
    return (key, block.marked mark) :: (← table classify (mark + 2) rest)

/-- The keys that are asked for, up to the first one without a block. -/
def asked (classify : Classify) : List Key → List Key
  | [] => []
  | key :: rest =>
    match classify.resolve key with
    | .ok _ => key :: asked classify rest
    | .error _ => [key]

end Classify

namespace Model

/-- The keys of the declared variables. -/
def variableKeys (m : Model) : List Key :=
  m.vars.map (·.1)

/-- The keys of the declared constraints. -/
def constraintKeys (m : Model) : List Key :=
  m.constraints.map (·.1)

/-- The blocks of the declared variables and constraints. -/
def assignment (m : Model) (classify : Classify) : Except Error Assignment := do
  let vars ← classify.table 1 m.variableKeys
  let constraints ← classify.table (2 * vars.length + 1) m.constraintKeys
  return ⟨vars, constraints⟩

/-- The keys that are asked for while the blocks of a model are found. -/
def askedKeys (m : Model) (classify : Classify) : List Key :=
  match classify.table 1 m.variableKeys with
  | .ok _ => classify.asked m.variableKeys ++ classify.asked m.constraintKeys
  | .error _ => classify.asked m.variableKeys

/-- The slices of a model whose ids can be keys. -/
def partition (m : Model) (classify : Classify) : Except Error Partition := do
  match Partition.ofAssignment? (← m.assignment classify) with
  | .ok p => return p
  | .error e => throw (.fault e)

end Model

end BlockAngular
