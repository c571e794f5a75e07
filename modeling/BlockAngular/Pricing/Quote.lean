import BlockAngular.Pricing.Given

/-! # Quotes

Everything that pricing has to say about one subproblem: its variables, the cost and
the coefficients of a column for a solution, and the reduced costs for a dual
solution. A part that cannot be computed fails alone.
-/

namespace BlockAngular

namespace Pricing

variable {κ : Type}

/-- The cost and the coefficients of a column. -/
structure ColumnQuote where
  cost : Except Fault Float
  coefficients : Except Fault (List (Handle × Float))

/-- What pricing says about a subproblem. -/
structure Quote where
  vars : List Handle
  column : Option ColumnQuote
  reduced : Option (Except Fault (List (Handle × Float)))

/-- Where the values of variables come from. -/
inductive Solution where
  /-- The current values of the variables. -/
  | current
  | given (rows : List (Handle × Value))

/-- The number of a variable in a solution. -/
def Solution.value (w : World) : Solution → Handle → Except Fault Float
  | .current => Pricing.current w
  | .given rows => Pricing.given (ofRows rows)

/-- Price a subproblem with the given tables. -/
def quote (c : Coefficients κ Float) (w : World) (coupling : CouplingTable κ)
    (costs : CostTable Float) (vars : List Handle) (solution : Option Solution)
    (duals : Option (List (Handle × Value))) : Quote where
  vars := vars
  column := solution.map fun solution =>
    ⟨columnCost costs (solution.value w), columnCoefficients c coupling (solution.value w)⟩
  reduced := duals.map fun rows => reducedCosts c coupling costs vars (given (ofRows rows))

/-- A coupling table from rows: the last row of a variable counts. -/
def couplingOfRows (rows : List (Handle × List (Handle × κ))) : CouplingTable κ :=
  rows.foldl (fun table (v, pairs) => Handle.put v pairs table) []

/-- A cost table from rows; costs are converted to numbers. -/
def costsOfRows (rows : List (Handle × Value)) : Except Fault (CostTable Float) :=
  (ofRows rows).mapM fun (v, cost) => do return (v, ← cost.toDouble)

end Pricing

end BlockAngular
