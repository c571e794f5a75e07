import BlockAngular.Model.Access

/-! # Declarations

Adding components to a model. A component comes without an index or with rows of
indices, and its elements are made in their order, once it is declared. When one of
them fails, the component stays with the elements before it.
-/

namespace BlockAngular

namespace Family

/-- The position of a key by which a first value is given. -/
def keyPosition {α : Type} (f : Family α) (key : Value) : Except Fault Nat :=
  match f.indexed, key with
  | false, .null => .ok 0
  | false, _ => .error .noKey
  | true, key => f.position? key.toIndex

end Family

namespace Value

/-- The keys by which a table or a sequence gives first values. -/
def givenKeys : Value → List Value
  | .table entries => entries.map (·.1)
  | .list items | .tuple items => (List.range items.length).map fun i => .int (Int.ofNat i)
  | _ => []

/-- The first value at an index: that of a table or a sequence there, else the value. A
    table may leave it out. -/
def firstAt (given index : Value) : Except Fault Value :=
  match given with
  | .table entries => .ok ((lookup? index entries).getD .null)
  | .list _ | .tuple _ => item given index
  | given => .ok given

end Value

namespace Variable

/-- How the variable at an index is made; the value is given for all indices at once. -/
def recipe (v : Variable) (index : Value) : Recipe :=
  match v.value.firstAt index with
  | .ok value =>
    if value.isStorable then .variable { v with value := value } none
    else .variable { v with value := .null } (some .wrongKind)
  | .error e => .variable { v with value := .null } (some e)

end Variable

namespace Model

/-- Declare a component whose elements are still to be made. -/
def declare (name : String) (content : Content) (recipes : List Recipe) : Stage Model Unit := do
  let m ← Stage.ofFault ((← get).add name content recipes)
  set m

/-- Make the element at a position of a component unless it is there. -/
def makeAt (name : String) (position : Nat) : Stage Model Unit := do
  let m ← get
  let h := m.handle name position
  if !m.hasElement h then make lookup h

/-- Make the elements of a component in their order. -/
def makeAll (name : String) (count : Nat) : Stage Model Unit :=
  (List.range count).forM (makeAt name)

/-- Declare variables that are all alike but for their first values. The elements that
    first values are given for come first. -/
def addVariables (name : String) (rows : Option (List (List Value))) (v : Variable) :
    Stage Model Unit := do
  let shape ← match rows with
    | none => pure (Family.scalar ())
    | some rows => Stage.ofFault (Family.ofRows? (rows.map fun row => (row, ())))
  let recipes := shape.elements.map fun (index, _) => v.recipe index
  declare name (.vars shape.cleared) recipes
  v.value.givenKeys.forM fun key => do
    makeAt name (← Stage.ofFault (shape.keyPosition key))
  makeAll name recipes.length

/-- Declare a constraint without an index by what it states; it may be left out. -/
def addStatement (name : String) (statement : Option Statement) : Stage Model Unit := do
  declare name (.constraints true (Family.optional none)) []
  match statement with
  | none => pure ()
  | some statement => do
    let c ← Stage.ofFault statement.constraint
    modify fun m => m.putConstraint (m.handle name 0) c

/-- Declare a constraint without an index by a relation; it may be left out. -/
def addConstraint (name : String) (relation : Option Relation) : Stage Model Unit := do
  match relation with
  | none => addStatement name none
  | some relation => do addStatement name (some (← relation.statement lookup))

/-- Declare constraints by rows of indices. -/
def addConstraints (name : String) (rows : List (List Value × Recipe)) : Stage Model Unit := do
  let family ← Stage.ofFault (Family.ofRows? rows)
  let recipes := family.elements.filterMap (·.2)
  declare name (.constraints true family.cleared) recipes
  makeAll name recipes.length

/-- Declare an objective without an index by what its body comes out as. -/
def addObjectiveOf (name : String) (body : Operand) (sense : Sense) : Stage Model Unit := do
  declare name (.objectives true (Family.optional none)) []
  match ← Stage.ofFault body.expression? with
  | some e => modify fun m => m.putObjective (m.handle name 0) ⟨e, sense, true⟩
  | none => pure ()

/-- Declare an objective without an index. -/
def addObjective (name : String) (body : Formula) (sense : Sense) : Stage Model Unit := do
  addObjectiveOf name (← body.operand lookup) sense

/-- Declare objectives by rows of indices. -/
def addObjectives (name : String) (rows : List (List Value × Formula)) (sense : Sense) :
    Stage Model Unit := do
  let family ← Stage.ofFault (Family.ofRows? rows)
  let recipes := family.elements.filterMap fun (_, body) => body.map (Recipe.objective · sense)
  declare name (.objectives true family.cleared) recipes
  makeAll name recipes.length

/-- Give an expression a name. -/
def addExpression (name : String) (body : Formula) : Stage Model Unit := do
  let o ← body.operand lookup
  declare name (.expression none) []
  let e ← Stage.ofFault o.expression?
  modify fun m => m.change name fun _ => .expression e

/-- Declare a parameter. -/
def addParameter (name : String) (value : Value) : Stage Model Unit :=
  declare name (.parameter value) []

/-- Change the value of a parameter, or of a variable without an index. -/
def setParameter (name : String) (value : Value) : Stage Model Unit := do
  if !(← get).hasName name then throw (.fault .noAttribute)
  modify fun m => m.change name fun content =>
    match content with
    | .parameter _ => .parameter value
    | .vars family =>
      if family.indexed then .vars family
      else .vars (family.update 0 fun v => { v with value := value })
    | content => content

/-- Give a component another name. -/
def addAlias (name target : String) : Stage Model Unit := do
  let m ← get
  match m.component? target with
  | none => throw (.fault .wrongKind)
  | some c => declare name (.reference (m.behind c).name) []

/-- Declare a free variable in a sub-block. -/
def addInner (block name : String) : Stage Model Unit := do
  match (← get).component? block with
  | some ⟨_, .block vars, _⟩ =>
    if Reserved.inBlock name then throw (.fault .badValue)
    else if vars.any fun (other, _) => other == name then throw (.fault .nameTaken)
    else modify fun m => m.change block fun _ => .block (vars ++ [(name, Variable.free)])
  | _ => pure ()

/-- Declare a sub-block with free variables. -/
def addBlock (name : String) (inner : List String) : Stage Model Unit := do
  declare name (.block []) []
  inner.forM (addInner name)

end Model

end BlockAngular
