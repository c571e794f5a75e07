import BlockAngular.Decomposition.Reformulation

/-! # Events

What a decomposition reports about its work: how many keys were resolved and
partitioned, what was registered in each block, which terms a block had to drop, and
the sizes of the result.
-/

namespace BlockAngular

/-- The part of the work that an event belongs to. -/
inductive Topic where
  | assignment | partition | images | affineForms | reformulation | tables | rules
  deriving DecidableEq, Repr

/-- Something that a decomposition reports. -/
inductive Event where
  | compiled (rules : Nat)
  | resolved (vars constraints : Nat)
  | partitioned (vars constraints subproblems : Nat)
  | registered (components : Nat) (block : Block)
  | dropped (terms : Nat) (context : String) (block : Block)
  | convexity (pairs : Nat)
  | couplings (sizes : List (Value × Nat))
  | finished (masterVariables subproblems : Nat)

namespace Event

/-- The part of the work that reports an event. -/
def topic : Event → Topic
  | .compiled _ => .rules
  | .resolved _ _ => .assignment
  | .partitioned _ _ _ => .partition
  | .registered _ _ => .images
  | .dropped _ _ _ => .affineForms
  | .convexity _ | .finished _ _ => .reformulation
  | .couplings _ => .tables

/-- Whether the event is meant for everybody, not only for those who look for details. -/
def isSummary : Event → Bool
  | .finished _ _ => true
  | _ => false

/-- The wording of an event. -/
def message : Event → String
  | .compiled rules => "Compiled " ++ Nat.repr rules ++ " decomposition rules"
  | .resolved vars constraints =>
    "Resolved " ++ Nat.repr vars ++ " variable and " ++ Nat.repr constraints ++
      " constraint annotations"
  | .partitioned vars constraints subproblems =>
    "Partitioned " ++ Nat.repr vars ++ " variables and " ++ Nat.repr constraints ++
      " constraints into master + " ++ Nat.repr subproblems ++ " subproblems"
  | .registered components block =>
    "Registered " ++ Nat.repr components ++ " variable components on " ++ block.render
  | .dropped terms context block =>
    "Dropped " ++ Nat.repr terms ++ " cross-model terms from " ++ context ++ " for " ++ block.render
  | .convexity pairs => "Allocated " ++ Nat.repr pairs ++ " convexity constraint pairs"
  | .couplings sizes =>
    "Coupling mappings: " ++ (Value.table (sizes.map fun (id, n) => (id, .int n))).render
  | .finished masterVariables subproblems =>
    "Decomposed model into a master with " ++ Nat.repr masterVariables ++ " variables and " ++
      Nat.repr subproblems ++ " subproblems"

end Event

namespace Reformulation

/-- The number of terms of a form that do not belong to a block. -/
def foreignTerms (registry : Registry) (block : Block) (form : AffineForm) : Nat :=
  (form.terms.filter fun (image, _) => !((registry.imageOwner? image).any (·.same block))).length

/-- The report of dropped terms, if there are any. -/
def droppedFrom (registry : Registry) (context : String) (block : Block) (form : AffineForm) :
    List Event :=
  match foreignTerms registry block form with
  | 0 => []
  | terms => [.dropped terms context block]

/-- The events of the decomposition of a model, in the order in which they happen. -/
def events (r : Reformulation) (compact : Model) : List Event :=
  let blocks := Decomposition.blocks r.ids
  [.resolved r.assignment.vars.length r.assignment.constraints.length,
    .partitioned r.assignment.vars.length r.assignment.constraints.length r.ids.length] ++
  (blocks.map fun block => .registered (r.partition.variablesOf block).length block) ++
  (r.transfers.flatMap fun (block, transfers) => transfers.flatMap fun t =>
    droppedFrom r.vars (compact.nameOf t.preimage) block t.form) ++
  (match r.objective with
    | some o => blocks.flatMap fun block => droppedFrom r.vars "objective" block o.form
    | none => []) ++
  [.convexity r.convexityLower.length,
    .couplings (r.subproblems.map fun s => (s.id, s.coupling.length)),
    .finished (r.vars.imagesOf .master).length r.subproblems.length]

end Reformulation

end BlockAngular
