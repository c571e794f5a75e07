import BlockAngular.Decomposition.Coupling

/-! # Pricing

What a column of a subproblem costs and contributes to the constraints of the master,
and the reduced costs of the variables for given dual values. The functions work
over any numbers; a solution gives the value of a variable and a dual solution that
of a constraint, and either may fail to have a number there. Convexity constraints
take no part.
-/

namespace BlockAngular

namespace Pricing

variable {κ α : Type}

/-- The numbers that coefficients are read as. A coefficient can be multiplied by the
    value of a variable, and can be converted to a number. -/
structure Coefficients (κ α : Type) where
  times : κ → α → Except Fault α
  read : κ → Except Fault α

namespace Coefficients

/-- Coefficients that are numbers already. -/
def plain [Mul α] : Coefficients α α :=
  ⟨fun k x => .ok (k * x), .ok⟩

end Coefficients

/-- The cost of a column: the sum of the costs of its variables. -/
def columnCost [OfNat α 0] [Add α] [Mul α] (costs : CostTable α)
    (solution : Handle → Except Fault α) : Except Fault α := do
  let products ← costs.mapM fun (v, cost) => do return cost * (← solution v)
  return products.foldl (· + ·) 0

/-- The products of the coefficients of a variable and its value. -/
def contributions (c : Coefficients κ α) (x : α) :
    List (Handle × κ) → Except Fault (List (Handle × α))
  | [] => .ok []
  | (row, k) :: rest => do return (row, ← c.times k x) :: (← contributions c x rest)

/-- Add contributions to the coefficients of a column. -/
def accumulate [OfNat α 0] [Add α] (products column : List (Handle × α)) : List (Handle × α) :=
  products.foldl (fun column (row, x) => Handle.change row 0 (· + x) column) column

/-- The coefficients of a column in the constraints, without zeros. Variables at zero
    contribute nothing. -/
def columnCoefficients [OfNat α 0] [Add α] [BEq α] (c : Coefficients κ α) (table : CouplingTable κ)
    (solution : Handle → Except Fault α) : Except Fault (List (Handle × α)) := do
  let column ← table.foldlM (fun column (v, pairs) => do
    let x ← solution v
    if x == 0 then return column
    else return accumulate (← contributions c x pairs) column) []
  return column.filter fun (_, x) => !(x == 0)

/-- The entries of one column of the matrix, with duplicates summed. -/
def matrixColumn [Add α] (c : Coefficients κ α) (pairs : List (Handle × κ)) :
    Except Fault (List (Handle × α)) := do
  let entries ← pairs.mapM fun (row, k) => do return (row, ← c.read k)
  return entries.foldl (fun column (row, x) =>
    match column.lookup row with
    | some y => Handle.put row (y + x) column
    | none => Handle.put row x column) []

/-- A sparse matrix by columns. -/
structure Matrix (α : Type) where
  rows : List Handle
  columns : List (Handle × List (Handle × α))

namespace Matrix

/-- The entry in a row of a column. -/
def entry [OfNat α 0] (column : List (Handle × α)) (row : Handle) : α :=
  (column.lookup row).getD 0

/-- The rows of the matrix, one entry for every column. -/
def dense [OfNat α 0] (m : Matrix α) : List (List α) :=
  m.rows.map fun row => m.columns.map fun (_, column) => entry column row

/-- The number of entries that are stored. -/
def size (m : Matrix α) : Nat :=
  m.columns.foldl (fun n (_, column) => n + column.length) 0

end Matrix

/-- The matrix of the coefficients of some variables in the constraints of the table. -/
def matrix [Add α] (c : Coefficients κ α) (table : CouplingTable κ) (columns : List Handle) :
    Except Fault (Matrix α) := do
  let columns ← columns.mapM fun v => do return (v, ← matrixColumn c (table.pairsOf v))
  return ⟨table.rows, columns⟩

/-- The sum of the dual values weighted with the entries of a column, row by row. -/
def weighted [OfNat α 0] [Add α] [Mul α] (column duals : List (Handle × α)) : α :=
  duals.foldl (fun total (row, y) =>
    match column.lookup row with
    | some k => total + k * y
    | none => total) 0

/-- The reduced cost of every listed variable: its cost less the dual values weighted
    with its coefficients. -/
def reducedCosts [OfNat α 0] [Add α] [Sub α] [Mul α] (c : Coefficients κ α)
    (table : CouplingTable κ) (costs : CostTable α) (vars : List Handle)
    (duals : Handle → Except Fault α) : Except Fault (List (Handle × α)) := do
  let m ← matrix c table vars
  let duals ← m.rows.mapM fun row => do return (row, ← duals row)
  return m.columns.foldl (fun reduced (v, column) =>
    let cost := costs.costOf 0 v
    Handle.put v (if m.rows.isEmpty then cost else cost - weighted column duals) reduced) []

/-- The variables of the tables, those of the coupling table first. -/
def tableVariables (coupling : CouplingTable κ) (costs : CostTable α) : List Handle :=
  (coupling.map (·.1) ++ costs.map (·.1)).foldl (fun seen v => Handle.insertNew v seen) []

end Pricing

end BlockAngular
