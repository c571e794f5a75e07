import BlockAngular.Affine.Collect
import BlockAngular.Model.Limits
import BlockAngular.Model.World

/-! # Reports on models

What can be read of the elements of a model: the attributes of a variable, the limits
of a constraint, and affine forms. A report lists all of it.
-/

namespace BlockAngular

namespace Model

/-- The variable of a handle; anything else has no attributes of a variable. -/
def variableAt (m : Model) (h : Handle) : Except Fault Variable :=
  match m.variableOf? h with
  | some v => .ok v
  | none => .error .noAttribute

/-- The constraint of a handle; one that was left out cannot be read. -/
def constraintAt (m : Model) (h : Handle) : Except Fault Constraint :=
  match m.content? h with
  | some (.constraints _ family) =>
    match family.get? h.position with
    | some c => .ok c
    | none => .error .badValue
  | _ => .error .noAttribute

/-- The attributes of the variable of a handle. -/
def attributesAt (m : Model) (h : Handle) : Except Fault Attributes := do
  Attributes.ofVariable? (← m.variableAt h)

/-- The limits of the constraint of a handle. -/
def limitsAt (m : Model) (r : Expression.Reading) (h : Handle) : Except Fault (Limits Float) := do
  Limits.ofConstraint? r (← m.constraintAt h)

end Model

namespace Constraint

/-- Whether a constraint has variables. -/
def hasVariables (c : Constraint) : Bool :=
  Expression.anyHasVariables (c.body :: c.lower.toList ++ c.upper.toList)

/-- The exact value of a side, if it is there. -/
def sideValue (r : Expression.Reading) : Option Expression → Except Fault (Option Exact)
  | none => .ok none
  | some e => do
    match (← e.evaluate r).toExact? with
    | some x => return some x
    | none => throw .wrongKind

/-- Whether the values of the parts of a constraint satisfy it. -/
def holds (r : Expression.Reading) (c : Constraint) : Except Fault Bool := do
  let lower ← sideValue r c.lower
  let body ← sideValue r (some c.body)
  let upper ← sideValue r c.upper
  let atMost (a b : Option Exact) : Bool :=
    match a, b with
    | some x, some y => x.below y || x.same y
    | _, _ => true
  return atMost lower body && atMost body upper

/-- A constraint read as an affine form: its truth as a number if it has no variables. -/
def affine (r : Expression.Reading) (context : String) (c : Constraint) :
    Except Error AffineForm := do
  if c.hasVariables then throw (.notAffine context)
  return ⟨if ← (c.holds r).mapError .fault then 1.0 else 0.0, []⟩

end Constraint

namespace Model

/-- The affine form of what a component without indices says. -/
def componentForm (m : Model) (r : Expression.Reading) (context name : String) :
    Except Error AffineForm :=
  match m.component? name with
  | some ⟨_, .objectives _ ⟨false, [(_, some o)]⟩, _⟩ => o.body.affine r context
  | some ⟨_, .objectives _ ⟨false, _⟩, _⟩ => .error (.fault .badValue)
  | some ⟨_, .constraints _ ⟨false, [(_, some c)]⟩, _⟩ => c.affine r context
  | some ⟨_, .constraints _ ⟨false, _⟩, _⟩ => .error (.fault .badValue)
  | some ⟨_, .expression (some body), _⟩ => body.affine r context
  | _ => .error (.fault .noAttribute)

end Model

/-- The kinds of components that a report lists. -/
inductive ComponentKind where
  | vars | constraints | objectives
  deriving DecidableEq, Repr

/-- The kind of a component, and whether its elements have indices. -/
def Content.kind? : Content → Option (ComponentKind × Bool)
  | .vars family => some (.vars, family.indexed)
  | .constraints _ family => some (.constraints, family.indexed)
  | .objectives _ family => some (.objectives, family.indexed)
  | _ => none

/-- An objective as it is read. -/
structure ObjectiveReport where
  name : String
  sense : Sense
  form : AffineForm

/-- A model as it is read. -/
structure ModelReport where
  name : String
  components : List (ComponentKind × String × Bool)
  vars : List (Key × Attributes)
  constraints : List (Key × Limits Float × AffineForm)
  objective : Option ObjectiveReport

namespace Model

/-- The attributes of the declared variables. -/
def variableReport (m : Model) : Except Fault (List (Key × Attributes)) :=
  m.vars.mapM fun (key, h) => do return (key, ← m.attributesAt h)

/-- Read a model with all variables free. -/
def report (m : Model) (w : World) : Except Error ModelReport := do
  let vars ← m.variableReport.mapError .fault
  let constraints ← m.allConstraints.mapM fun (key, h) => do
    let c ← (m.constraintAt h).mapError .fault
    let limits ← (Limits.ofConstraint? w.reading c).mapError .fault
    return (key, limits, ← c.body.affine w.freeReading "expression")
  let objective ← m.activeObjectives.head?.mapM fun (h, o) => do
    return ⟨h.component, o.sense, ← o.body.affine w.freeReading "expression"⟩
  return {
    name := m.name
    components := m.components.filterMap fun c =>
      c.content.kind?.map fun (kind, indexed) => (kind, c.name, indexed)
    vars := vars
    constraints := constraints
    objective := objective }

end Model

end BlockAngular
