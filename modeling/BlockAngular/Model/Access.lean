import BlockAngular.Model.Basic

/-! # Access

Elements are looked up by their keys. An element that is not there yet is made when it
is asked for, and stays. What it is made from may ask for other elements in turn; the
number of places in the model bounds how far this can go, since an element that is
asked for again while it is made needs itself.
-/

namespace BlockAngular

namespace Model

/-- The operand that an element is in an expression. -/
def operandOf (m : Model) (h : Handle) : Operand :=
  match m.content? h with
  | none | some (.vars _) => .expr (.variable h)
  | some (.parameter _) => .expr (.parameter h)
  | some (.expression (some body)) => .expr (.named h.component body)
  | some (.objectives _ family) =>
    match family.get? h.position with
    | some o => .expr (.named h.component o.body)
    | none => .other
  | _ => .other

/-- The operand that a component is in an expression; there may be none of the name. -/
def componentOperand (m : Model) (name : String) : Operand :=
  match m.component? name with
  | none => .plain .null
  | some c => if isIndexed c.content then .other else m.operandOf (m.handle name 0)

/-- Make the element of a handle by its recipe. A place may be left empty. -/
def make (find : Lookup Model) (h : Handle) : Stage Model Unit := do
  match (← get).recipe? h with
  | none | some (.relation none) => pure ()
  | some (.variable v refusal) => do
    modify (putVariable h v)
    match refusal with
    | some e => throw (.fault e)
    | none => pure ()
  | some (.relation (some r)) => do
    let statement ← r.statement find
    let c ← Stage.ofFault statement.constraint
    modify (putConstraint h c)
  | some (.constraint c) => do
    let c ← Stage.ofFault c
    modify (putConstraint h c)
  | some (.objective body sense) => do
    let o ← body.operand find
    match ← Stage.ofFault o.expression? with
    | some e => modify (putObjective h ⟨e, sense, true⟩)
    | none => pure ()

/-- The look-up that finds elements by their keys and settles each. -/
def lookupBy (settle : Handle → Stage Model Unit) : Lookup Model where
  element key := do
    let h ← Stage.ofExcept ((← get).locate key)
    settle h
    return (← get).operandOf h
  component name := do return (← get).componentOperand name

/-- Whether the element of a handle belongs to a component with indices and is not there. -/
def isUnmade (m : Model) (h : Handle) : Bool :=
  (m.content? h).any isIndexed && !m.hasElement h

/-- See to it that an element is there. The first argument bounds how many elements
    can be under way at once. -/
def settleWithin : Nat → Handle → Stage Model Unit
  | 0, h => do
    if (← get).isUnmade h then throw (.fault .endless)
  | bound + 1, h => do
    if (← get).isUnmade h then
      make (lookupBy (settleWithin bound)) h
      if (← get).isUnmade h then throw (.fault .noKey)

/-- See to it that an element is there. -/
def settle (h : Handle) : Stage Model Unit := do
  settleWithin (← get).size h

/-- The look-up of names in formulas. -/
def lookup : Lookup Model :=
  lookupBy settle

/-- An element that is looked up, and settled. -/
def obtain (find : Model → Except Error Handle) : Stage Model Handle := do
  let h ← Stage.ofExcept (find (← get))
  settle h
  return h

/-- The element of a key. -/
def reach (key : Key) : Stage Model Handle :=
  obtain fun m => m.locate key

/-- The element of a component. -/
def reachElement (name : String) (index : List Value) : Stage Model Handle :=
  obtain fun m => m.element name index

end Model

end BlockAngular
