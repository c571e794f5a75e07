import BlockAngular.Classify
import BlockAngular.Model.Declare

/-! # Generalized assignment

Jobs are assigned to machines of limited capacity at least cost. Every job goes to at
least one machine, or is left out at a penalty where penalties are given. The mixed
variant lets every machine run overtime, which whole shifts have to pay for. Both
fall into one subproblem for every machine.
-/

namespace BlockAngular

namespace GeneralizedAssignment

/-- Numbers by machine and job, each pair as a tuple. -/
abbrev Table := List (Value × Value)

/-- An instance of the problem. -/
structure Instance where
  machines : List Value
  jobs : List Value
  costs : Table
  capacities : Table

/-- What the plain variant may have besides. -/
structure Extras where
  /-- The weights; without any every weight is one. -/
  weights : Table
  /-- The penalty for leaving a job out. -/
  penalties : Option Table
  constant : Value
  sense : Sense

/-- The numbers of the mixed variant. -/
structure Overtime where
  cost : Value
  limit : Value
  machineCost : Value

/-- The entry of a table. -/
def look (table : Table) (key : Value) : Except Fault Value :=
  if !key.hashable then .error .wrongKind
  else
    match Value.lookup? key table with
    | some v => .ok v
    | none => .error .noKey

/-- The variable of a component at an index. -/
def variableAt (m : Model) (name : String) (index : List Value) : Except Fault Operand :=
  match m.element name index with
  | .ok h => .ok (.expr (.variable h))
  | .error (.fault e) => .error e
  | .error _ => .error .noKey

/-- The product of an entry of a table and a variable. -/
def product (m : Model) (table : Table) (key : Value) (name : String) (index : List Value) :
    Except Fault Operand := do
  let factor ← look table key
  (Operand.plain factor).mul (← variableAt m name index)

/-- The sum of the variables of a component at some indices. -/
def total (m : Model) (name : String) (indices : List (List Value)) : Except Fault Operand := do
  Operand.sum (← indices.mapM (variableAt m name))

/-- The indices of a component by machine and job. -/
def pairs (i : Instance) : List (List Value) :=
  i.machines.flatMap fun machine => i.jobs.map fun job => [machine, job]

/-- The indices of a component by machine, or by job. -/
def singles (items : List Value) : List (List Value) :=
  items.map fun item => [item]

/-- A constraint for every index; an index has to be a single item. -/
def rowsFor (indices : List Value) (rule : Value → Except Fault Statement) :
    List (List Value × Recipe) :=
  indices.map fun index =>
    ([index], .constraint (match Value.flatIndex [index] with
      | [item] => do (← rule item).constraint
      | _ => .error .wrongKind))

/-- The sum of the costs of all assignments. -/
def assignmentCost (m : Model) (i : Instance) : Except Fault Operand := do
  Operand.sum (← (pairs i).mapM fun pair => product m i.costs (.tuple pair) "x" pair)

/-- At least one machine takes a job, unless there is a penalty for leaving it out. -/
def covering (m : Model) (i : Instance) (penalized : Bool) (job : Value) :
    Except Fault Statement := do
  let taken ← total m "x" (i.machines.map fun machine => [machine, job])
  let covered ← if penalized then taken.add (← variableAt m "penalty" [job]) else pure taken
  (Operand.plain (.int 1)).atMost covered

/-- A variable with a domain and bounds. -/
def variableOf (domain : Domain) (lower upper value : Value) : Variable :=
  ⟨domain, lower, upper, value, false⟩

/-- The weights of all pairs if none are given. -/
def weightsOf (i : Instance) (given : Table) : Table :=
  if given.isEmpty then
    (pairs i).foldl (fun table pair => Value.insertEntry (.tuple pair) (.int 1) table) []
  else given

/-- Declare the model of an instance. -/
def declare (i : Instance) (extras : Extras) : Stage Model Unit := do
  let weights := weightsOf i extras.weights
  Model.addVariables "x" (some (pairs i)) (variableOf .binary .null .null .null)
  if extras.penalties.isSome then
    Model.addVariables "penalty" (some (singles i.jobs))
      (variableOf .nonNegativeReals .null .null .null)
  let m ← get
  Model.addConstraints "assignment" (rowsFor i.jobs (covering m i extras.penalties.isSome))
  Model.addConstraints "capacity" (rowsFor i.machines fun machine => do
    let load ← i.jobs.mapM fun job => product m weights (.tuple [machine, job]) "x" [machine, job]
    (← Operand.sum load).atMost (.plain (← look i.capacities machine)))
  let cost ← Stage.ofFault do
    let cost ← assignmentCost m i
    let cost ← match extras.penalties with
      | some penalties => do
        let terms ← i.jobs.mapM fun job => product m penalties job "penalty" [job]
        cost.add (← Operand.sum terms)
      | none => pure cost
    cost.add (.plain extras.constant)
  Model.addObjectiveOf "objective" cost extras.sense

/-- Declare the model of the mixed variant of an instance. -/
def declareMixed (i : Instance) (overtime : Overtime) : Stage Model Unit := do
  Model.addVariables "x" (some (pairs i)) (variableOf .binary .null .null .null)
  Model.addVariables "overtime" (some (singles i.machines))
    (variableOf .nonNegativeReals (.int 0) overtime.limit .null)
  Model.addVariables "shifts" none
    (variableOf .nonNegativeIntegers (.int 0) (.int i.machines.length) (.int 0))
  let m ← get
  Model.addConstraints "assignment" (rowsFor i.jobs (covering m i false))
  Model.addConstraints "capacity" (rowsFor i.machines fun machine => do
    let load ← total m "x" (i.jobs.map fun job => [machine, job])
    let room ← (Operand.plain (← look i.capacities machine)).add
      (← variableAt m "overtime" [machine])
    load.atMost room)
  let hours ← Stage.ofFault (total m "overtime" (singles i.machines))
  let shifts ← Stage.ofFault (variableAt m "shifts" [])
  Model.addStatement "overtime_budget" (some (← Stage.ofFault (hours.atMost shifts)))
  let cost ← Stage.ofFault do
    let cost ← assignmentCost m i
    let cost ← cost.add (← (Operand.plain overtime.cost).mul hours)
    cost.add (← (Operand.plain overtime.machineCost).mul shifts)
  Model.addObjectiveOf "objective" cost .minimize

/-- The model of an instance. -/
def model (id : Nat) (i : Instance) (extras : Extras) : Except Error Model := do
  return (← (declare i extras).finish (Model.empty id "gap")).2

/-- The model of the mixed variant of an instance. -/
def mixedModel (id : Nat) (i : Instance) (overtime : Overtime) : Except Error Model := do
  return (← (declareMixed i overtime).finish (Model.empty id "mixed_gap")).2

/-- The annotation by machines: what belongs to a machine goes to its subproblem, and
    what ties the machines together to the master. -/
def byMachine : Classify := fun key =>
  if key.name == "x" || key.name == "capacity" || key.name == "overtime" then
    match key.index with
    | machine :: _ => .ok (.block (.subproblem machine))
    | [] => .error (.fault .outOfRange)
  else if key.name == "assignment" || key.name == "penalty" || key.name == "shifts"
      || key.name == "overtime_budget" then
    .ok (.block .master)
  else .ok .missing

end GeneralizedAssignment

end BlockAngular
