import BlockAngular.Error
import BlockAngular.Model.Constraint
import BlockAngular.Model.Family
import BlockAngular.Model.Formula
import BlockAngular.Model.Reserved
import BlockAngular.Model.Variable

/-! # Models

A model is a list of named components in the order of their declaration. Variables,
constraints and objectives come in families; a parameter has a value, an expression
can have a name, a reference stands for another component, and a sub-block has
variables of its own that its model does not declare. A component may be declared
without its elements, or without some of them; it keeps how they are made.
-/

namespace BlockAngular

/-- What a component is. -/
inductive Content where
  | vars (family : Family Variable)
  | constraints (active : Bool) (family : Family Constraint)
  | objectives (active : Bool) (family : Family Objective)
  | parameter (value : Value)
  | expression (body : Option Expression)
  /-- Another name for the component with the given name. -/
  | reference (target : String)
  /-- Variables without an index, by name. -/
  | block (vars : List (String × Variable))

/-- How an element that is not there is made. -/
inductive Recipe where
  /-- By its description; if its first value is refused, it is there without a value. -/
  | variable (v : Variable) (refusal : Option Fault)
  /-- By a relation; without one there is no such element. -/
  | relation (r : Option Relation)
  /-- By a constraint that is settled already. -/
  | constraint (c : Except Fault Constraint)
  | objective (body : Formula) (sense : Sense)

/-- A declaration of a model. -/
structure Component where
  name : String
  content : Content
  /-- How the elements are made, by position. -/
  recipes : List Recipe

/-- A model under construction. -/
structure Model where
  /-- The number that handles refer to. -/
  id : Nat
  name : String
  components : List Component

namespace Model

/-- The model without components. -/
def empty (id : Nat) (name : String) : Model :=
  ⟨id, name, []⟩

/-- The component of a name. -/
def component? (m : Model) (name : String) : Option Component :=
  m.components.find? fun c => c.name == name

/-- Whether a name is given to a component. -/
def hasName (m : Model) (name : String) : Bool :=
  (m.component? name).isSome

/-- Declare a component under a name that is free and not reserved. -/
def add (m : Model) (name : String) (content : Content) (recipes : List Recipe) :
    Except Fault Model :=
  if Reserved.inModel name then .error .badValue
  else if m.hasName name then .error .nameTaken
  else .ok { m with components := m.components ++ [⟨name, content, recipes⟩] }

/-- Change the component of a name. -/
def change (m : Model) (name : String) (f : Content → Content) : Model :=
  { m with components := m.components.map fun c =>
      if c.name == name then { c with content := f c.content } else c }

/-- The handle of an element of a component. -/
def handle (m : Model) (name : String) (position : Nat) : Handle :=
  ⟨m.id, name, position⟩

/-- The name of a variable of a sub-block. -/
def innerName (block inner : String) : String :=
  block ++ "." ++ inner

/-- The variable of a sub-block. -/
def innerVariable? (m : Model) (name : String) : Option Variable :=
  m.components.findSome? fun c =>
    match c.content with
    | .block vars =>
      (vars.find? fun (inner, _) => innerName c.name inner == name).map (·.2)
    | _ => none

/-- The position of an index in a component. -/
def positionIn (content : Content) (index : List Value) : Except Fault Nat :=
  match content with
  | .vars family => family.position? index
  | .constraints _ family => family.position? index
  | .objectives _ family => family.position? index
  | _ => .ok 0

/-- Whether the elements of a component have indices. -/
def isIndexed : Content → Bool
  | .vars family => family.indexed
  | .constraints _ family => family.indexed
  | .objectives _ family => family.indexed
  | .reference _ => true
  | _ => false

/-- The component that a reference stands for; any other component stands for itself. -/
def behind (m : Model) (c : Component) : Component :=
  match c.content with
  | .reference target => (m.component? target).getD c
  | _ => c

/-- The position of an index by which the one element of a component without indices is
    asked for. -/
def soleElement (index : List Value) : Except Fault Nat :=
  if !Value.allHashable index then .error .wrongKind
  else if index.isEmpty then .ok 0
  else .error .noKey

/-- The element of a component that is asked for by an index; a reference passes on what
    its component has. -/
def item (m : Model) (c : Component) (index : List Value) : Except Fault Handle :=
  let target := m.behind c
  let position :=
    if isIndexed target.content then positionIn target.content index else soleElement index
  position.map (m.handle target.name)

/-- The element of a component by name and index. A component without an index ignores
    the one given. -/
def element (m : Model) (name : String) (index : List Value) : Except Error Handle :=
  match m.component? name with
  | none => .error (.noComponent name)
  | some c =>
    if isIndexed c.content then (m.item c index).mapError .fault
    else .ok (m.handle c.name 0)

/-- The element of a key. A name with a dot is that of a variable in a sub-block. -/
def locate (m : Model) (key : Key) : Except Error Handle :=
  match key.name.splitOn "." with
  | [_] => m.element key.name key.index
  | [block, inner] =>
    match m.component? block with
    | some ⟨_, .block vars, _⟩ =>
      if vars.any fun (other, _) => other == inner then .ok (m.handle key.name 0)
      else .error (.noComponent inner)
    | _ => .error (.fault .noAttribute)
  | _ => .error (.fault .badValue)

/-- The content of the component that a handle names. -/
def content? (m : Model) (h : Handle) : Option Content :=
  (m.component? h.component).map (·.content)

/-- The variable of a handle. -/
def variableOf? (m : Model) (h : Handle) : Option Variable :=
  match m.content? h with
  | some (.vars family) => family.get? h.position
  | some _ => none
  | none => m.innerVariable? h.component

/-- The constraint of a handle. -/
def constraintOf? (m : Model) (h : Handle) : Option Constraint :=
  match m.content? h with
  | some (.constraints _ family) => family.get? h.position
  | _ => none

/-- The objective of a handle. -/
def objectiveOf? (m : Model) (h : Handle) : Option Objective :=
  match m.content? h with
  | some (.objectives _ family) => family.get? h.position
  | _ => none

/-- Whether the element of a handle is there. -/
def hasElement (m : Model) (h : Handle) : Bool :=
  match m.content? h with
  | some (.vars family) => (family.get? h.position).isSome
  | some (.constraints _ family) => (family.get? h.position).isSome
  | some (.objectives _ family) => (family.get? h.position).isSome
  | _ => true

/-- How the element of a handle is made. -/
def recipe? (m : Model) (h : Handle) : Option Recipe :=
  (m.component? h.component).bind fun c => c.recipes[h.position]?

/-- The number of elements that a component has or may have. -/
def places : Content → Nat
  | .vars family => family.elements.length
  | .constraints _ family => family.elements.length
  | .objectives _ family => family.elements.length
  | _ => 0

/-- The number of elements that a model has or may have. -/
def size (m : Model) : Nat :=
  m.components.foldl (fun n c => n + places c.content) 0

/-- Put a variable in its place. -/
def putVariable (h : Handle) (v : Variable) (m : Model) : Model :=
  m.change h.component fun content =>
    match content with
    | .vars family => .vars (family.setAt h.position v)
    | content => content

/-- Put a constraint in its place. -/
def putConstraint (h : Handle) (c : Constraint) (m : Model) : Model :=
  m.change h.component fun content =>
    match content with
    | .constraints active family => .constraints active (family.setAt h.position c)
    | content => content

/-- Put an objective in its place. -/
def putObjective (h : Handle) (o : Objective) (m : Model) : Model :=
  m.change h.component fun content =>
    match content with
    | .objectives active family => .objectives active (family.setAt h.position o)
    | content => content

/-- The value of the parameter of a handle. -/
def parameter (m : Model) (h : Handle) : Value :=
  match m.content? h with
  | some (.parameter value) => value
  | _ => .null

/-- Change the variable of a handle. -/
def updateVariable (m : Model) (h : Handle) (f : Variable → Variable) : Model :=
  if m.hasName h.component then
    m.change h.component fun content =>
      match content with
      | .vars family => .vars (family.update h.position f)
      | content => content
  else
    { m with components := m.components.map fun c =>
        match c.content with
        | .block vars =>
          { c with content := .block (vars.map fun (inner, v) =>
              (inner, if innerName c.name inner == h.component then f v else v)) }
        | _ => c }

/-- The index at a position of a component; `null` without one. -/
def indexAt (content : Content) (position : Nat) : Value :=
  match content with
  | .vars family => family.indexAt position
  | .constraints _ family => family.indexAt position
  | .objectives _ family => family.indexAt position
  | _ => .null

/-- The index of the element of a handle; `null` without an index. -/
def indexOf (m : Model) (h : Handle) : Value :=
  match m.content? h with
  | some content => indexAt content h.position
  | none => .null

/-- The key of the element of a handle. -/
def keyOf (m : Model) (h : Handle) : Key :=
  ⟨h.component, (m.indexOf h).toIndex⟩

/-- An item of an index in the name of an element: text plainly. -/
def indexText : Value → List Char
  | .str s => s.toList
  | v => v.text

/-- The items of an index with commas between them. -/
def indexTexts : List Value → List Char
  | [] => []
  | [v] => indexText v
  | v :: rest => indexText v ++ ',' :: indexTexts rest

/-- The name of the element of a handle: its component, and its index if the component
    has indices. -/
def nameOf (m : Model) (h : Handle) : String :=
  match m.content? h with
  | some content =>
    if isIndexed content then
      let items := match m.indexOf h with
        | .tuple items => items
        | v => [v]
      h.component ++ "[" ++ String.ofList (indexTexts items) ++ "]"
    else h.component
  | none => h.component

/-- The elements that are there, by key. -/
def keyed {α : Type} (m : Model) (name : String) (family : Family α) : List (Key × Handle) :=
  family.present.map fun (index, position, _) =>
    (⟨name, index.toIndex⟩, m.handle name position)

/-- The declared variables: those of every component of variables, not of references and
    sub-blocks. -/
def vars (m : Model) : List (Key × Handle) :=
  m.components.flatMap fun c =>
    match c.content with
    | .vars family => m.keyed c.name family
    | _ => []

/-- All constraints, active or not. -/
def allConstraints (m : Model) : List (Key × Handle) :=
  m.components.flatMap fun c =>
    match c.content with
    | .constraints _ family => m.keyed c.name family
    | _ => []

/-- The declared constraints: the active elements of active components. -/
def constraints (m : Model) : List (Key × Handle) :=
  m.components.flatMap fun c =>
    match c.content with
    | .constraints true family =>
      (family.present.filter fun (_, _, a) => a.active).map fun (index, position, _) =>
        (⟨c.name, index.toIndex⟩, m.handle c.name position)
    | _ => []

/-- The active objectives. -/
def activeObjectives (m : Model) : List (Handle × Objective) :=
  m.components.flatMap fun c =>
    match c.content with
    | .objectives true family =>
      (family.present.filter fun (_, _, o) => o.active).map fun (_, position, o) =>
        (m.handle c.name position, o)
    | _ => []

/-- The one active objective with its handle, if there is any. -/
def objectiveInForce? (m : Model) : Except Error (Option (Handle × Objective)) :=
  match m.activeObjectives with
  | [] => .ok none
  | [one] => .ok (some one)
  | several =>
    if several.all fun (h, _) => (m.indexOf h).isWritable then
      .error (.severalObjectives (several.map fun (h, _) => m.nameOf h))
    else .error (.fault .badValue)

end Model

end BlockAngular
