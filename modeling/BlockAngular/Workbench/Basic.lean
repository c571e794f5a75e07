import BlockAngular.Decomposition.Decomposer
import BlockAngular.Model.Activation
import BlockAngular.Model.Adjust

/-! # The workbench

On the workbench lie a compact model, targets that images are built in by hand, the
registries of these images, and the result of the last decomposition that succeeded.
Work is done step by step; a step that is refused changes nothing but what it had
done before it was refused.
-/

namespace BlockAngular

/-- Why a step is refused. -/
inductive Refusal where
  | error (e : Error)
  /-- The step needs a decomposition. -/
  | noDecomposition
  /-- The step needs a mapping of variables. -/
  | noMapping

/-- A model that is built by hand. -/
structure HandTarget where
  name : String
  model : Model

/-- The state of the work. -/
structure Workbench where
  /-- The number of the next model. -/
  next : Nat
  /-- The model that is decomposed. -/
  compact : Model
  /-- Models that were replaced. -/
  retired : List Model
  targets : List HandTarget
  /-- What became of the constraints that were registered, by the names of the targets. -/
  transfers : List (String × Transfer)
  vars : Registry
  constraints : Registry
  /-- Whether the variables registered by hand are the mapping in use. -/
  frozen : Bool
  result : Option Reformulation
  /-- Images that were registered by hand and have to be fixed. -/
  pending : List (Handle × Value)
  /-- The objective that was mapped last. -/
  objective : Option AffineForm
  decomposer : Decomposer

/-- A piece of work. -/
abbrev Work := EStateM Refusal Workbench

/-- Where a model lies. -/
inductive Place where
  | compact
  | result (block : Block)
  | target (name : String)

namespace Workbench

/-- The workbench with an empty compact model. -/
def start : Workbench where
  next := 1
  compact := Model.empty 0 "model"
  retired := []
  targets := []
  transfers := []
  vars := .empty
  constraints := .empty
  frozen := false
  result := none
  pending := []
  objective := none
  decomposer := ⟨.standard, none⟩

/-- The models of the result. -/
def resultModels (b : Workbench) : List Model :=
  (b.result.map Reformulation.world).getD []

/-- All models that handles may refer to. -/
def world (b : Workbench) : World :=
  b.compact :: b.targets.map (·.model) ++ b.resultModels ++ b.retired

/-- Put a model in the place of the one with its number. -/
def put (m : Model) (b : Workbench) : Workbench :=
  let swap (old : Model) : Model := if old.id == m.id then m else old
  { b with
    compact := swap b.compact
    targets := b.targets.map fun t => { t with model := swap t.model }
    result := b.result.map fun r =>
      { r with
        master := swap r.master
        subproblems := r.subproblems.map fun s => { s with model := swap s.model } } }

end Workbench

namespace Work

variable {σ α : Type}

/-- A result of the library. -/
def ofExcept : Except Error α → Work α
  | .ok a => pure a
  | .error e => throw (.error e)

/-- The result of an operation on data. -/
def ofFault : Except Fault α → Work α
  | .ok a => pure a
  | .error e => throw (.error (.fault e))

/-- Run a stage on a part of the workbench. -/
def onPart (stage : Stage σ α) (part : σ) (keep : σ → Workbench → Workbench) : Work α :=
  match stage part with
  | .ok a part => do
    modify (keep part)
    return a
  | .error e part => do
    modify (keep part)
    throw (.error e)

/-- The models in view. -/
def world : Work World := do
  return (← get).world

/-- The result of the last decomposition. -/
def result : Work Reformulation := do
  match (← get).result with
  | some r => return r
  | none => throw .noDecomposition

/-- The subproblem of an id in the result. -/
def subproblem (id : Value) : Work Subproblem := do
  ofExcept ((← result).subproblem id)

/-- The mapping of variables in use: the one frozen by hand, or that of the result. -/
def mapping : Work Registry := do
  let b ← get
  match b.frozen, b.result with
  | true, _ => return b.vars
  | false, some r => return r.vars
  | false, none => throw .noMapping

/-- The target of a name. -/
def target (name : String) : Work HandTarget := do
  match (← get).targets.find? fun t => t.name == name with
  | some t => return t
  | none => throw (.error (.fault .noKey))

/-- The model at a place. -/
def model : Place → Work Model
  | .compact => do return (← get).compact
  | .target name => do return (← target name).model
  | .result .master => do return (← result).master
  | .result (.subproblem id) => do return (← subproblem id).model

/-- Run a stage on the model at a place. -/
def onModel (place : Place) (stage : Stage Model α) : Work α := do
  onPart stage (← model place) Workbench.put

/-- The element of a key in the model at a place. -/
def reach (place : Place) (key : Key) : Work Handle :=
  onModel place (Model.reach key)

/-- The expression that a formula comes out as in the model at a place. -/
def expression (place : Place) (formula : Formula) : Work Expression :=
  onModel place do Stage.ofFault (← formula.operand Model.lookup).expression

/-- The body of the constraint of a key. -/
def body (place : Place) (key : Key) : Work Expression := do
  let h ← reach place key
  let c ← ofFault ((← model place).constraintAt h)
  return c.body

/-- Numbers for new models. -/
def freshNumbers (count : Nat) : Work Nat := do
  let b ← get
  set { b with next := b.next + count }
  return b.next

/-- Put another model in the place of the compact one. -/
def replaceCompact (make : Nat → Except Error Model) : Work Unit := do
  let m ← ofExcept (make (← get).next)
  let _ ← freshNumbers 1
  modify fun b => { b with compact := m, retired := b.compact :: b.retired }

/-- Lay out an empty target. -/
def addTarget (name : String) : Work Unit := do
  let id ← freshNumbers 1
  modify fun b =>
    let (old, others) := b.targets.partition fun t => t.name == name
    { b with
      targets := others ++ [⟨name, Model.empty id name⟩]
      retired := old.map (·.model) ++ b.retired }

/-- How a decomposition is asked for. -/
inductive Manner where
  /-- With an annotation function, which has to be there. -/
  | plain (classify : Option Classify)
  /-- With an annotation function and options for this run. -/
  | wrapped (classify : Option Classify) (options : List (String × Value))
  /-- With rules and options for this run. -/
  | byRules (rules : Except Error Classifier) (options : List (String × Value))
  /-- With the decomposer on the workbench. -/
  | orchestrated (classify : Option Classify) (options : List (String × Value))

namespace Manner

/-- The decomposition of a model. -/
def decompose (b : Workbench) (config : Config) : Manner → Except Error Reformulation
  | .plain classify =>
    Decomposition.decompose b.next b.compact (classify.getD Classify.uncallable) config
  | .wrapped classify options => Decomposer.runOnce b.next b.compact classify config options
  | .byRules rules options => Classifier.decompose rules b.next b.compact config options
  | .orchestrated classify options => b.decomposer.run b.next b.compact classify options

/-- What happens before the decomposition itself. -/
def events : Manner → List Event
  | .byRules (.ok rules) _ => [.compiled rules.size]
  | _ => []

end Manner

/-- Decompose the compact model. The result takes the place of the last one. -/
def decompose (manner : Manner) (config : Config) : Work (Reformulation × List Event) := do
  let b ← get
  let r ← ofExcept (manner.decompose b config)
  let _ ← freshNumbers (1 + r.ids.length)
  modify fun b => { b with result := some r, retired := b.resultModels ++ b.retired }
  return (r, manner.events ++ r.events b.compact)

end Work

end BlockAngular
