import BlockAngular.Model.Access

/-! # Adjusting variables

Changing what a variable has after it is declared: its value, whether it is fixed there,
its bounds and its domain. Nothing is checked against the domain.
-/

namespace BlockAngular

/-- A change of a variable. -/
inductive Adjustment where
  /-- Fix the variable at a value, or where it is. -/
  | fix (value : Option Value)
  | unfix
  | assign (value : Value)
  /-- Replace the bounds that are given. -/
  | bounds (lower upper : Option Value)
  | domain (d : Domain)

namespace Adjustment

/-- What happens where there is no variable: bounds that are not given and domains go
    unnoticed. -/
def onOther : Adjustment → Except Fault Unit
  | .fix _ | .unfix => .error .noAttribute
  | .assign _ => .error .wrongKind
  | .bounds none none | .domain _ => .ok ()
  | .bounds _ _ => .error .noAttribute

/-- The variable after a change, even one that is refused. A value that cannot be kept is
    refused, after the variable is fixed. -/
def apply (v : Variable) : Adjustment → Variable × Except Fault Unit
  | .fix none => ({ v with fixed := true }, .ok ())
  | .fix (some value) => store { v with fixed := true } value
  | .unfix => ({ v with fixed := false }, .ok ())
  | .assign value => store v value
  | .bounds lower upper =>
    ({ v with lower := lower.getD v.lower, upper := upper.getD v.upper }, .ok ())
  | .domain d => ({ v with domain := d }, .ok ())
where
  /-- Keep a value, if that is possible. -/
  store (v : Variable) (value : Value) : Variable × Except Fault Unit :=
    if value.isStorable then ({ v with value := value }, .ok ()) else (v, .error .wrongKind)

end Adjustment

namespace Model

/-- Whether a handle belongs to a variable. -/
def isVariable (m : Model) (h : Handle) : Bool :=
  match m.content? h with
  | some (.vars _) => true
  | some _ => false
  | none => (m.innerVariable? h.component).isSome

/-- Change the variable of a key. -/
def adjust (key : Key) (change : Adjustment) : Stage Model Unit := do
  let h ← reach key
  let m ← get
  if m.isVariable h then
    match m.variableOf? h with
    | none => pure ()
    | some v => do
      let (v, outcome) := change.apply v
      set (m.updateVariable h fun _ => v)
      Stage.ofFault outcome
  else Stage.ofFault change.onOther

end Model

end BlockAngular
