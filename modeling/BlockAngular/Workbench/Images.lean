import BlockAngular.Workbench.Basic

/-! # Images by hand

The stages of a decomposition one at a time: declaring and registering the images of
variables and constraints in a target, mapping expressions, fixing images, convexity
constraints and tables.
-/

namespace BlockAngular

namespace Workbench

/-- Keep a target and change what was registered in it. -/
def keepTarget (name : String) (f : HandTarget → HandTarget) (b : Workbench) : Workbench :=
  { b with targets := b.targets.map fun t => if t.name == name then f t else t }

end Workbench

namespace Work

/-- Keep the model of a target. -/
def keepModel (name : String) (m : Model) (b : Workbench) : Workbench :=
  b.keepTarget name fun t => { t with model := m }

/-- Keep what a stage did to the compact model, to a target and to its registry. -/
def keepStaging (name : String) (keepRegistry : Registry → Workbench → Workbench) (s : Staging)
    (b : Workbench) : Workbench :=
  keepRegistry s.registry ((keepModel name s.target b).put s.compact)

/-- Register the variables of a slice in a target. -/
def registerVariables (name : String) (block : Block) (slice : Slice) :
    Work (List (Handle × Value)) := do
  let t ← target name
  let b ← get
  let pending ← onPart (BlockAngular.registerVariables block slice) ⟨b.compact, t.model, b.vars⟩
    (keepStaging name fun vars b => { b with vars := vars })
  modify fun b => { b with pending := b.pending ++ pending }
  return pending

/-- Register the constraints of a slice in a target. -/
def registerConstraints (name : String) (block : Block) (slice : Slice) : Work (List Transfer) := do
  let t ← target name
  let vars ← mapping
  let b ← get
  let transfers ← onPart (BlockAngular.registerConstraints b.world.reading vars block slice)
    ⟨b.compact, t.model, b.constraints⟩
    (keepStaging name fun constraints b => { b with constraints := constraints })
  modify fun b => { b with transfers := b.transfers ++ transfers.map (name, ·) }
  return transfers

/-- Register the image of a variable or constraint of the compact model. -/
def addImage (kind : Registry.Kind) (preimage : Key) (place : Place) (image : Key) (block : Block) :
    Work Unit := do
  let h ← reach .compact preimage
  let image ← reach place image
  let b ← get
  match kind with
  | .vars => do
    let registry ← ofExcept (b.vars.add h image block)
    set { b with vars := registry }
  | .constraints => do
    let registry ← ofExcept (b.constraints.add h image block)
    set { b with constraints := registry }

/-- The registry of a kind. -/
def registry (kind : Registry.Kind) : Work Registry := do
  let b ← get
  match kind with
  | .vars => return b.vars
  | .constraints => return b.constraints

/-- Freeze a registry; from now on a frozen registry of variables is the mapping in
    use. It goes on to show what is registered later. -/
def freeze (kind : Registry.Kind) : Work Registry := do
  match kind with
  | .vars => modify fun b => { b with frozen := true }
  | .constraints => pure ()
  registry kind

/-- The affine form of an expression over images. -/
def mapped (e : Expression) (context : String) : Work AffineForm := do
  let vars ← mapping
  ofExcept (e.mapped (← world).reading vars.image? context)

/-- The part of an expression that belongs to a block. -/
def restricted (e : Expression) (block : Block) (keepConstant : Bool) : Work AffineForm := do
  let form ← mapped e "expression"
  ofExcept (form.restrict (← mapping) block keepConstant)

/-- Register the objective of the compact model in a target, perhaps under another name. Its
    form is remembered even if the target cannot take it. -/
def registerObjective (name : String) (block : Block) (isMaster : Bool) (label : Option Value) :
    Work (Option AffineForm) := do
  match ← ofExcept (← get).compact.objectiveInForce? with
  | none => return none
  | some (h, o) => do
    let form ← mapped o.body "objective"
    modify fun b => { b with objective := some form }
    let t ← target name
    let part ← onPart (BlockAngular.registerObjective (← mapping) block
      (label.getD (.str h.component)) o.sense form isMaster) t.model (keepModel name)
    return some part

/-- Fix the images that have to be fixed. -/
def fixPending : Work Unit :=
  modify fun b => b.world.foldl (fun changed m => changed.put (fixImages b.pending m)) b

/-- Convexity constraints in a target. -/
def addConvexity (name : String) (config : Config) (ids : List Value) :
    Work (Convexity.Rows × Convexity.Rows) := do
  let t ← target name
  onPart (Convexity.add config ids) t.model (keepModel name)

/-- The coupling tables of what was registered in a target, or in an earlier one of the
    same name. -/
def couplings (name : String) (ids : List Value) : Work (List (Value × CouplingTable Float)) := do
  let vars ← mapping
  let transfers := (← get).transfers.filterMap fun (target, t) =>
    if target == name then some t else none
  ofExcept (couplingTables transfers vars ids)

/-- The cost tables of the objective that was mapped last. -/
def costs (ids : List Value) : Work (List (Value × CostTable Float)) := do
  let vars ← mapping
  ofExcept (costTables (← get).objective vars ids)

end Work

end BlockAngular
