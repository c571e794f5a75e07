import BlockAngular.Model.Basic

/-! # Worlds

A handle says which model it belongs to. A world is a list of models with different
numbers in which handles are looked up.
-/

namespace BlockAngular

/-- The models that handles may refer to. -/
abbrev World := List Model

namespace World

/-- The model of a number. -/
def model? (w : World) (id : Nat) : Option Model :=
  w.find? fun m => m.id == id

/-- The variable of a handle. -/
def variableOf? (w : World) (h : Handle) : Option Variable :=
  (w.model? h.model).bind fun m => m.variableOf? h

/-- The constraint of a handle. -/
def constraintOf? (w : World) (h : Handle) : Option Constraint :=
  (w.model? h.model).bind fun m => m.constraintOf? h

/-- The value of the parameter of a handle. -/
def parameter (w : World) (h : Handle) : Value :=
  match w.model? h.model with
  | some m => m.parameter h
  | none => .null

/-- The current value of a variable. -/
def current (w : World) (h : Handle) : Value :=
  ((w.variableOf? h).map (·.value)).getD .null

/-- Whether a variable is fixed. -/
def isFixed (w : World) (h : Handle) : Bool :=
  (w.variableOf? h).any (·.fixed)

/-- Parameters and variables as the models have them. -/
def reading (w : World) : Expression.Reading :=
  ⟨w.parameter, w.current, w.isFixed⟩

/-- Parameters and variables as the models have them, with no variable fixed. -/
def freeReading (w : World) : Expression.Reading :=
  ⟨w.parameter, w.current, fun _ => false⟩

/-- The name of the element of a handle. -/
def nameOf (w : World) (h : Handle) : String :=
  match w.model? h.model with
  | some m => m.nameOf h
  | none => h.component

/-- Whether the element of a handle has a name that can be written. -/
def isNameable (w : World) (h : Handle) : Bool :=
  match w.model? h.model with
  | some m => (m.indexOf h).isWritable
  | none => true

/-- The key of the element of a handle. -/
def keyOf (w : World) (h : Handle) : Key :=
  match w.model? h.model with
  | some m => m.keyOf h
  | none => ⟨h.component, []⟩

/-- Change the model of a number. -/
def update (w : World) (id : Nat) (f : Model → Model) : World :=
  w.map fun m => if m.id == id then f m else m

/-- Change the variable of a handle. -/
def updateVariable (w : World) (h : Handle) (f : Variable → Variable) : World :=
  w.update h.model fun m => m.updateVariable h f

end World

end BlockAngular
