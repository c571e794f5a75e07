import BlockAngular.Assignment
import BlockAngular.Decomposition.Convexity
import BlockAngular.Decomposition.Coupling

/-! # Reformulations

A model and an annotation function give a master problem and subproblems. Every
declared variable and constraint has its image in the block that it is annotated
with; what the constraints of the master and the objective say about variables of a
subproblem is kept in the tables of that subproblem.
-/

namespace BlockAngular

/-- A pricing problem with its tables. -/
structure Subproblem where
  id : Value
  model : Model
  coupling : CouplingTable Float
  costs : CostTable Float

namespace Subproblem

/-- The variables of the model, in the order of declaration. -/
def vars (s : Subproblem) : List Handle :=
  s.model.vars.map (·.2)

end Subproblem

/-- The objective of a model, over the images of all its variables. -/
structure MappedObjective where
  /-- The name of the component that holds it. -/
  name : String
  sense : Sense
  form : AffineForm

/-- The result of a decomposition. -/
structure Reformulation where
  master : Model
  subproblems : List Subproblem
  convexityLower : Convexity.Rows
  convexityUpper : Convexity.Rows
  vars : Registry
  constraints : Registry
  /-- The blocks of the declared keys. -/
  assignment : Assignment
  partition : Partition
  /-- What became of the constraints, for every block in turn. -/
  transfers : List (Block × List Transfer)
  objective : Option MappedObjective

namespace Reformulation

/-- The ids of the subproblems. -/
def ids (r : Reformulation) : List Value :=
  r.subproblems.map (·.id)

/-- The subproblem of an id. -/
def subproblem (r : Reformulation) (id : Value) : Except Error Subproblem :=
  if !id.hashable then .error (.fault .wrongKind)
  else
    match r.subproblems.find? fun s => s.id.same id with
    | some s => .ok s
    | none => .error (.noSubproblem id)

/-- The lower and the upper convexity constraint of an id. -/
def convexityOf (r : Reformulation) (id : Value) : Except Fault (Handle × Handle) :=
  if !id.hashable then .error .wrongKind
  else
    match Value.lookup? id r.convexityLower, Value.lookup? id r.convexityUpper with
    | some lower, some upper => .ok (lower, upper)
    | _, _ => .error .noKey

/-- The models of the result. -/
def world (r : Reformulation) : World :=
  r.master :: r.subproblems.map (·.model)

end Reformulation

namespace Decomposition

/-- The names that the master and the subproblems need must not be in use. Without an
    objective the names of the objectives are `null`. -/
def checkNames (m : Model) (config : Config) (objectiveName ownName : Value) :
    Except Error Unit :=
  let inUse (name : Value) : Bool :=
    match name with
    | .str name => m.hasName name
    | _ => false
  let clashes (name : Value) : Bool := inUse name || name.same objectiveName
  if !objectiveName.same ownName && inUse objectiveName then
    .error (.nameClash (.objective objectiveName))
  else if config.lowerName.same config.upperName then
    .error (.nameClash (.sameConvexityNames config.lowerName))
  else if clashes config.lowerName then .error (.nameClash (.convexity config.lowerName))
  else if clashes config.upperName then .error (.nameClash (.convexity config.upperName))
  else .ok ()

/-- The blocks of a decomposition: the master, and the subproblems by their ids. -/
def blocks (ids : List Value) : List Block :=
  .master :: ids.map .subproblem

/-- The name of the model of a block. -/
def modelName : Block → String
  | .master => "master"
  | .subproblem id => "subproblem[" ++ id.render ++ "]"

/-- Empty models for the blocks, numbered from `first`. -/
def emptyModels (first : Nat) (blocks : List Block) : List (Block × Model) :=
  blocks.zipIdx.map fun (block, i) => (block, Model.empty (first + i) (modelName block))

/-- Whether the models of some ids can be named. -/
def checkIds (ids : List Value) : Except Fault Unit :=
  if Value.allWritable ids then .ok () else .error .badValue

/-- Whether the verbosity can be compared with a number. -/
def checkVerbosity (config : Config) : Except Fault Unit :=
  match config.verbosity.real? with
  | some _ => .ok ()
  | none => .error .wrongKind

/-- Run a stage for every block in turn. The registry goes from one to the next. -/
def forBlocks {α : Type} (compact : Model) (stage : Block → Stage Staging α) :
    List (Block × Model) → Registry → Except Error (List (Block × Model × α) × Registry)
  | [], registry => .ok ([], registry)
  | (block, target) :: rest, registry => do
    let (a, s) ← (stage block).finish ⟨compact, target, registry⟩
    let (others, registry) ← forBlocks compact stage rest s.registry
    return ((block, s.target, a) :: others, registry)

/-- The blocks with their models. -/
def models {α : Type} (targets : List (Block × Model × α)) : List (Block × Model) :=
  targets.map fun (block, model, _) => (block, model)

/-- Declare the objective in the model of every block. -/
def addObjectives (registry : Registry) (objective : Option MappedObjective) (name : Value)
    (targets : List (Block × Model)) : Except Error (List (Block × Model)) :=
  match objective with
  | none => .ok targets
  | some o => targets.mapM fun (block, target) => do
    let (_, model) ← (registerObjective registry block name o.sense o.form block.isMaster).finish
      target
    return (block, model)

/-- How expressions over the images of a model's variables are read: an image has the
    value of its preimage, and none of them is fixed yet. -/
def imageReading (m : Model) (registry : Registry) : Expression.Reading where
  parameter := World.parameter [m]
  current image := ((registry.preimage? image).map (World.current [m])).getD .null
  isFixed _ := false

/-- The objective of a model over the images of its variables. -/
def mapObjective (m : Model) (registry : Registry) (objective : Option (Handle × Objective)) :
    Except Error (Option MappedObjective) :=
  match objective with
  | none => .ok none
  | some (h, o) => do
    let form ← o.body.mapped (imageReading m registry) registry.image? "objective"
    return some ⟨h.component, o.sense, form⟩

/-- The subproblems with their tables. -/
def subproblems (models : List (Block × Model)) (couplings : List (Value × CouplingTable Float))
    (costs : List (Value × CostTable Float)) : List Subproblem :=
  models.filterMap fun (block, model) =>
    match block with
    | .master => none
    | .subproblem id =>
      some ⟨id, model, (Value.lookup? id couplings).getD [], (Value.lookup? id costs).getD []⟩

/-- The transfers of the constraints that went to the master. -/
def masterTransfers (transfers : List (Block × List Transfer)) : List Transfer :=
  transfers.flatMap fun (block, ts) =>
    match block with
    | .master => ts
    | .subproblem _ => []

/-- Split a model into a master problem and subproblems. The new models are numbered
    from `first`. -/
def decompose (first : Nat) (m : Model) (classify : Classify) (config : Config) :
    Except Error Reformulation := do
  let assignment ← m.assignment classify
  if assignment.vars.isEmpty then throw (.empty .vars)
  if assignment.constraints.isEmpty then throw (.empty .constraints)
  let partition ← (Partition.ofAssignment? assignment).mapError .fault
  let objective ← m.objectiveInForce?
  let ownName := ((objective.map fun (h, _) => Value.str h.component)).getD .null
  let objectiveName := (objective.map fun (h, _) => config.objectiveNameFor h.component).getD .null
  checkNames m config objectiveName ownName
  let ids := partition.subproblemIds
  (checkIds ids).mapError .fault
  (checkVerbosity config).mapError .fault
  let (withVariables, vars) ←
    forBlocks m (fun block => registerVariables block (partition.variablesOf block))
      (emptyModels first (blocks ids)) .empty
  let pending := withVariables.flatMap fun (_, _, pending) => pending
  let (withConstraints, constraints) ←
    forBlocks m (fun block => registerConstraints (imageReading m vars) vars block
        (partition.constraintsOf block))
      (models withVariables) .empty
  let transfers := withConstraints.map fun (block, _, transfers) => (block, transfers)
  let mapped ← mapObjective m vars objective
  let withObjectives ← addObjectives vars mapped objectiveName (models withConstraints)
  let finished := withObjectives.map fun (block, target) => (block, fixImages pending target)
  let master := ((finished.map (·.2)).head?).getD (Model.empty first (modelName .master))
  let ((lower, upper), master) ← (Convexity.add config ids).finish master
  let couplings ← couplingTables (masterTransfers transfers) vars ids
  let costs ← costTables (mapped.map (·.form)) vars ids
  return {
    master := master
    subproblems := subproblems finished couplings costs
    convexityLower := lower
    convexityUpper := upper
    vars := vars
    constraints := constraints
    assignment := assignment
    partition := partition
    transfers := transfers
    objective := mapped }

end Decomposition

end BlockAngular
