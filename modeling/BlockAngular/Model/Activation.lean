import BlockAngular.Model.Access

/-! # Activation

Components of constraints and objectives can be switched off and on, as a whole or
element by element. An element that is switched on brings its component with it;
a component stays on when its elements are switched off one by one. A reference
switches the elements that it stands for.
-/

namespace BlockAngular

namespace Constraint

/-- Switch a constraint on or off. -/
def switch (on : Bool) (c : Constraint) : Constraint :=
  { c with active := on }

end Constraint

namespace Objective

/-- Switch an objective on or off. -/
def switch (on : Bool) (o : Objective) : Objective :=
  { o with active := on }

end Objective

namespace Content

/-- Switch a component and all its elements; variables, parameters and named expressions
    cannot be switched. -/
def switch (on : Bool) : Content → Except Fault Content
  | .constraints _ family => .ok (.constraints on (family.map (Constraint.switch on)))
  | .objectives _ family => .ok (.objectives on (family.map (Objective.switch on)))
  | .block inner => .ok (.block inner)
  | _ => .error .noAttribute

/-- Switch one element; a component without an index is its own element. -/
def switchAt (on : Bool) (position : Nat) : Content → Except Fault Content
  | .constraints active family =>
    .ok (.constraints (if family.indexed then active || on else on)
      (family.update position (Constraint.switch on)))
  | .objectives active family =>
    .ok (.objectives (if family.indexed then active || on else on)
      (family.update position (Objective.switch on)))
  | .block inner => .ok (.block inner)
  | _ => .error .noAttribute

/-- What becomes of the switch of a component when its elements are switched one by
    one. -/
def activeAfter {α : Type} (on active : Bool) (family : Family α) : Bool :=
  if family.present.isEmpty then active
  else if family.indexed then active || on
  else on

/-- Switch the elements one by one. -/
def switchEach (on : Bool) : Content → Except Fault Content
  | .constraints active family =>
    .ok (.constraints (activeAfter on active family) (family.map (Constraint.switch on)))
  | .objectives active family =>
    .ok (.objectives (activeAfter on active family) (family.map (Objective.switch on)))
  | content => content.switch on

end Content

namespace Model

/-- Change the content of a component in a way that may fail. -/
def changeWith (name : String) (f : Content → Except Fault Content) : Stage Model Unit := do
  match (← get).component? name with
  | none => throw (.fault .noAttribute)
  | some c => do
    let content ← Stage.ofFault (f c.content)
    modify fun m => m.change name fun _ => content

/-- Switch a component. -/
def switchComponent (name : String) (on : Bool) : Stage Model Unit := do
  match (← get).component? name with
  | some ⟨_, .reference target, _⟩ => changeWith target (Content.switchEach on)
  | _ => changeWith name (Content.switch on)

/-- Switch the element of a component at an index. -/
def switchElement (name : String) (index : List Value) (on : Bool) : Stage Model Unit := do
  let m ← get
  match m.component? name with
  | none => throw (.fault .wrongKind)
  | some c => do
    let h ← Stage.ofFault (m.item c index)
    settle h
    changeWith h.component (Content.switchAt on h.position)

end Model

end BlockAngular
