import BlockAngular.Decomposition.Images

/-! # Couplings and costs

The terms that a constraint of the master loses to the subproblems are kept in
coupling tables, one for each subproblem: for a variable its constraints with the
coefficients there, in the order of registration. The terms of the objective are
kept in cost tables likewise.
-/

namespace BlockAngular

/-- Constraints and coefficients by variable. -/
abbrev CouplingTable (κ : Type) := List (Handle × List (Handle × κ))

/-- Costs by variable. -/
abbrev CostTable (κ : Type) := List (Handle × κ)

namespace CouplingTable

variable {κ : Type}

/-- Add a coefficient of a variable in a constraint. -/
def addPair (table : CouplingTable κ) (image row : Handle) (k : κ) : CouplingTable κ :=
  Handle.change image [] (· ++ [(row, k)]) table

/-- The constraints of a variable with its coefficients; none if it couples nothing. -/
def pairsOf (table : CouplingTable κ) (image : Handle) : List (Handle × κ) :=
  (table.lookup image).getD []

/-- The constraints of the table, in the order of their first appearance. -/
def rows (table : CouplingTable κ) : List Handle :=
  (table.flatMap fun (_, pairs) => pairs.map (·.1)).foldl
    (fun seen row => Handle.insertNew row seen) []

/-- The kind and the size of the table. -/
def summary (table : CouplingTable κ) : String :=
  "CouplingConstraintMapping with " ++ Nat.repr table.length ++ " variables"

end CouplingTable

namespace CostTable

variable {κ : Type}

/-- The cost of a variable; a variable without one costs nothing. -/
def costOf (zero : κ) (table : CostTable κ) (image : Handle) : κ :=
  (table.lookup image).getD zero

/-- The kind and the size of the table. -/
def summary (table : CostTable κ) : String :=
  "OriginalCostMapping with " ++ Nat.repr table.length ++ " variables"

end CostTable

/-- Entries by id, every id with an empty table at first; ids must be able to be keys. -/
def emptyTables {α : Type} (ids : List Value) : Except Error (List (Value × List α)) :=
  if Value.allHashable ids then
    .ok (ids.foldl (fun tables id => Value.insertEntry id [] tables) [])
  else .error (.fault .wrongKind)

/-- Change the table of an id that has one. -/
def changeTable {α : Type} (id : Value) (f : α → α) :
    List (Value × α) → Except Fault (List (Value × α))
  | [] => .error .noKey
  | (k, a) :: rest =>
    if k.same id then .ok ((k, f a) :: rest)
    else do return (k, a) :: (← changeTable id f rest)

/-- Change the table of the subproblem that an image lives in; images of the master
    have no table. -/
def changeOwned {α : Type} (registry : Registry) (image : Handle) (f : α → α)
    (tables : List (Value × α)) : Except Error (List (Value × α)) := do
  match ← registry.imageOwner image with
  | .master => return tables
  | .subproblem id =>
    match if id.hashable then changeTable id f tables else .error .wrongKind with
    | .ok tables => return tables
    | .error e => throw (.fault e)

/-- The coupling table of every id, from the constraints of the master. -/
def couplingTables (transfers : List Transfer) (registry : Registry) (ids : List Value) :
    Except Error (List (Value × CouplingTable Float)) := do
  (transfers.flatMap fun t => t.form.terms.map fun (image, k) => (t.image, image, k)).foldlM
    (fun tables (row, image, k) =>
      changeOwned registry image (fun table => CouplingTable.addPair table image row k) tables)
    (← emptyTables ids)

/-- The cost table of every id; without an objective they are empty. -/
def costTables (objective : Option AffineForm) (registry : Registry) (ids : List Value) :
    Except Error (List (Value × CostTable Float)) := do
  ((objective.map (·.terms)).getD []).foldlM
    (fun tables (image, k) => changeOwned registry image (Handle.put image k) tables)
    (← emptyTables ids)

end BlockAngular
