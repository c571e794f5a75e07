import BlockAngular.Affine.Substitute
import BlockAngular.Decomposition.Config
import BlockAngular.Model.Declare
import BlockAngular.Model.Report
import BlockAngular.Partition
import BlockAngular.Registry

/-! # Images

The variables, constraints and objectives of the compact model are declared again
in the model of a block, under the same names and indices. An image of a variable
takes over the attributes of its preimage, the body of an image of a constraint
keeps the terms whose variables live in the same block, and the registry of the
stage records every image.
-/

namespace BlockAngular

/-- The model that is decomposed, the model of a block under construction, and the registry
    of its images. -/
structure Staging where
  compact : Model
  target : Model
  registry : Registry

namespace Staging

/-- Work on the target; what was done there before a failure remains. -/
def onTarget {α : Type} (stage : Stage Model α) : Stage Staging α := fun s =>
  match stage s.target with
  | .ok a target => .ok a { s with target := target }
  | .error e target => .error e { s with target := target }

/-- An element of the model that is decomposed. -/
def preimage (name : String) (index : List Value) : Stage Staging Handle := fun s =>
  match Model.reachElement name index s.compact with
  | .ok h compact => .ok h { s with compact := compact }
  | .error e compact => .error e { s with compact := compact }

/-- Register an image in the target. -/
def register (preimage image : Handle) (block : Block) : Stage Staging Unit := do
  let s ← get
  let registry ← Stage.ofExcept (s.registry.add preimage image block)
  set { s with registry := registry }

end Staging

/-- Whether sorted index tuples belong to a declaration without an index. -/
def isScalarIndex (indices : List (List Value)) : Bool :=
  match indices with
  | [[]] => true
  | _ => false

/-- The rows of indices of a declaration, which has none if it is without an index. -/
def rowsOf (indices : List (List Value)) : Option (List (List Value)) :=
  if isScalarIndex indices then none else some indices

/-- Give an image the attributes of its preimage and register it. The answer is the
    image with its value if it has to be fixed. -/
def registerVariable (block : Block) (name : String) (index : List Value) (position : Nat) :
    Stage Staging (List (Handle × Value)) := do
  let h ← Staging.preimage name index
  let s ← get
  let v ← Stage.ofFault (s.compact.variableAt h)
  let attributes ← Stage.ofFault (Attributes.ofVariable? v)
  let image := s.target.handle name position
  set { s with target := s.target.updateVariable image fun _ => attributes.toVariable }
  Staging.register h image block
  return if attributes.fixed then [(image, attributes.fixValue)] else []

/-- Declare the images of a component's variables, in the order of their sorted
    indices. -/
def registerComponent (block : Block) (name : String) (indices : List (List Value)) :
    Stage Staging (List (Handle × Value)) := do
  let ordered := Value.sortIndices indices
  Staging.onTarget (Model.addVariables name (rowsOf ordered) Variable.free)
  let pending ← ordered.zipIdx.mapM fun (index, position) =>
    registerVariable block name index position
  return pending.flatten

/-- Declare the images of the variables of a slice. They stay free for now: the answer
    lists those to be fixed, with their values. -/
def registerVariables (block : Block) (slice : Slice) : Stage Staging (List (Handle × Value)) := do
  let pending ← slice.mapM fun (name, indices) => registerComponent block name indices
  return pending.flatten

/-- Fix the listed variables of a model at their values; those of other models are left
    alone. -/
def fixImages (pending : List (Handle × Value)) (m : Model) : Model :=
  pending.foldl (fun m (image, value) =>
    if image.model = m.id then m.updateVariable image (Variable.fixAt value) else m) m

namespace AffineForm

/-- The terms whose images live in a block. -/
def termsOf (registry : Registry) (block : Block) :
    List (Handle × Float) → Except Error (List (Handle × Float))
  | [] => .ok []
  | (image, k) :: rest => do
    let owner ← registry.imageOwner image
    let kept ← termsOf registry block rest
    return if owner.same block then (image, k) :: kept else kept

/-- The part of a form that belongs to a block: its terms, and the constant if it is to
    be kept. -/
def restrict (registry : Registry) (block : Block) (keepConstant : Bool) (form : AffineForm) :
    Except Error AffineForm := do
  return ⟨if keepConstant then form.constant else 0.0, ← termsOf registry block form.terms⟩

end AffineForm

/-- What became of a constraint: its body over the images of all its variables. -/
structure Transfer where
  preimage : Handle
  image : Handle
  form : AffineForm

/-- A constraint on the way to its block: its preimage, its body over all images, the
    part of it that stays, and its limits. -/
structure Transit where
  preimage : Handle
  form : AffineForm
  body : AffineForm
  limits : Limits Float

/-- A constraint of the compact model on its way to a block. -/
def transit (r : Expression.Reading) (vars : Registry) (block : Block) (name : String)
    (index : List Value) : Stage Staging Transit := do
  let h ← Staging.preimage name index
  let compact := (← get).compact
  let c ← Stage.ofFault (compact.constraintAt h)
  if !(compact.indexOf h).isWritable then throw (.fault .badValue)
  let form ← Stage.ofExcept (c.body.mapped r vars.image? ("constraint " ++ compact.nameOf h))
  let body ← Stage.ofExcept (form.restrict vars block true)
  let limits ← Stage.ofFault (Limits.ofConstraint? r c)
  return ⟨h, form, body, limits⟩

/-- The constraint that a constraint in transit becomes. -/
def Transit.constraint (t : Transit) : Except Fault Constraint :=
  t.limits.constrain t.body.toExpression

/-- Declare the constraints of some indices, which are settled already. -/
def declareConstraints (name : String) (indices : List (List Value))
    (constraints : List (Except Fault Constraint)) : Stage Model Unit := do
  match rowsOf indices, constraints with
  | none, [c] => do
    Model.addStatement name none
    let c ← Stage.ofFault c
    modify fun m => m.putConstraint (m.handle name 0) c
  | _, constraints => Model.addConstraints name (indices.zip (constraints.map .constraint))

/-- Declare the images of a component's constraints, in the order of their sorted
    indices. All of them are taken over before the first one is declared. -/
def registerConstraintComponent (r : Expression.Reading) (vars : Registry) (block : Block)
    (name : String) (indices : List (List Value)) : Stage Staging (List Transfer) := do
  let ordered := Value.sortIndices indices
  let transits ← ordered.mapM (transit r vars block name)
  Staging.onTarget (declareConstraints name ordered (transits.map Transit.constraint))
  transits.zipIdx.mapM fun (t, position) => do
    let image := (← get).target.handle name position
    Staging.register t.preimage image block
    return ⟨t.preimage, image, t.form⟩

/-- Declare the images of the constraints of a slice. -/
def registerConstraints (r : Expression.Reading) (vars : Registry) (block : Block)
    (slice : Slice) : Stage Staging (List Transfer) := do
  let transfers ← slice.mapM fun (name, indices) =>
    registerConstraintComponent r vars block name indices
  return transfers.flatten

/-- Declare the part of an objective that belongs to a block; the constant stays with
    the master. -/
def registerObjective (vars : Registry) (block : Block) (name : Value) (sense : Sense)
    (form : AffineForm) (isMaster : Bool) : Stage Model AffineForm := do
  let part ← Stage.ofExcept (form.restrict vars block isMaster)
  let name ← Stage.ofFault (Config.asName name)
  Model.addObjectiveOf name (.expr part.toExpression) sense
  return part

end BlockAngular
