import BlockAngular.Decomposition.Config
import BlockAngular.Model.Declare

/-! # Convexity constraints

The master gets a lower and an upper constraint for every subproblem, with the id of
the subproblem for an index. Their bodies are empty: a solution procedure fills in
its columns later.
-/

namespace BlockAngular

namespace Convexity

/-- A constraint with an empty body and one side, which has to be a literal number. -/
def emptyRow (side : Value) (isLower : Bool) : Except Fault Constraint :=
  match side.literal? with
  | none => .error .badValue
  | some x =>
    let body := Expression.ofTerms 0.0 []
    let side := some (Expression.number x)
    if isLower then Constraint.range side body none else Constraint.range none body side

/-- Declare a family of constraints without elements. -/
def declare (name : Value) : Stage Model String := do
  let name ← Stage.ofFault (Config.asName name)
  Model.declare name (.constraints true ⟨true, []⟩) []
  return name

/-- Put the constraint of an id into its family. -/
def put (name : String) (id : Value) (c : Constraint) (m : Model) : Model :=
  m.change name fun content =>
    match content with
    | .constraints active family => .constraints active (family.insert id c)
    | content => content

/-- The handle of the constraint of an id. -/
def rowOf (name : String) (id : Value) (m : Model) : Handle :=
  match m.component? name with
  | some ⟨_, .constraints _ family, _⟩ => m.handle name ((family.find? id).getD 0)
  | _ => m.handle name 0

/-- Whether an id can be the index of a constraint. -/
def indexable (id : Value) : Except Fault Unit :=
  match id with
  | .dots => .error .noAttribute
  | id => if id.hashable then .ok () else .error .wrongKind

/-- Add the constraint of an id. -/
def addRow (name : String) (side : Value) (isLower : Bool) (id : Value) : Stage Model Unit := do
  Stage.ofFault (indexable id)
  let row ← Stage.ofFault (emptyRow side isLower)
  modify (put name id row)

/-- The constraints of one side by id. -/
abbrev Rows := List (Value × Handle)

/-- Add the constraints of all ids, the lower and the upper one of each in turn. -/
def addRows (config : Config) (lowerName upperName : String) :
    List Value → Rows × Rows → Stage Model (Rows × Rows)
  | [], rows => pure rows
  | id :: rest, (lower, upper) => do
    addRow lowerName config.lowerRhs true id
    addRow upperName config.upperRhs false id
    let m ← get
    addRows config lowerName upperName rest
      (Value.insertEntry id (rowOf lowerName id m) lower,
        Value.insertEntry id (rowOf upperName id m) upper)

/-- Declare the convexity constraints of some ids in a model. -/
def add (config : Config) (ids : List Value) : Stage Model (Rows × Rows) := do
  let lowerName ← declare config.lowerName
  let upperName ← declare config.upperName
  addRows config lowerName upperName ids ([], [])

end Convexity

end BlockAngular
