import BlockAngular.Proofs.GeneralizedAssignment.Instances

/-! # Sums over machines and jobs

The sums and the constraints that the declarations of an instance make, over the variables of a
model that has them.
-/

namespace BlockAngular

theorem Expression.sumOf_concat {es : List Expression} (some : es ≠ []) (e : Expression) :
    sumOf (es ++ [e]) = (sumOf es).plus e := by
  cases es with
  | nil => exact absurd rfl some
  | cons first rest => simp [sumOf]

namespace Model

variable {m : Model} {terms : List (Key × Numeric)}

theorem weighted_hasVariables (some : terms ≠ []) : (m.weighted terms).hasVariables = true :=
  (weighted_collects some).withVariables (by simpa [coefficients] using some)

/-- A variable at the end of a sum. -/
theorem weighted_concat (some : terms ≠ []) (key : Key) :
    m.weighted (terms ++ units [key]) = (m.weighted terms).plus (.variable (m.preimageOf key)) := by
  have products : (terms.map fun term =>
      (Expression.number term.2).times (.variable (m.preimageOf term.1))) ≠ [] := by simpa using some
  have sum := Expression.sumOf_concat products (.variable (m.preimageOf key))
  rw [weighted, List.map_append]
  exact sum

theorem weighted_congr {m' : Model}
    (same : ∀ key ∈ terms.map (·.1), m'.preimageOf key = m.preimageOf key) :
    m'.weighted terms = m.weighted terms := by
  refine congrArg Expression.sumOf (List.map_congr_left fun term ht => ?_)
  simp [same term.1 (List.mem_map_of_mem ht)]

end Model

namespace Constraint

/-- An expression with variables that is at most a number, and one that is at least a number. -/
theorem atMost_number {e : Expression} (withVars : e.hasVariables = true) (k : Numeric) :
    atMost e (.number k) = .ok ⟨e, none, some (.number k), false, true⟩ ∧
      atMost (.number k) e = .ok ⟨e, some (.number k), none, false, true⟩ := by
  have literal : isLiteral e = false := by
    simp [isLiteral, Expression.number?_of_hasVariables withVars]
  have plain : (Expression.number k).hasVariables = false := rfl
  simp [atMost, literal, plain, withVars]

/-- Two expressions with variables. -/
theorem atMost_difference {a b : Expression} (ha : a.hasVariables = true)
    (hb : b.hasVariables = true) : atMost a b = .ok ⟨.sub a b, none, some (.number (.int 0)), false, true⟩ := by
  have literal : isLiteral a = false := by simp [isLiteral, Expression.number?_of_hasVariables ha]
  simp [atMost, literal, ha, hb]

end Constraint

namespace GeneralizedAssignment

section Operands

variable {m : Model} (wf : m.WellFormed)
include wf

theorem variableAt_ok {name : String} {index : List Value} (hk : ⟨name, index⟩ ∈ m.variableKeys) :
    variableAt m name index = .ok (.expr (.variable (m.preimageOf ⟨name, index⟩))) := by
  have found : m.element name index = .ok (m.preimageOf ⟨name, index⟩) :=
    (Model.declares_of_mem_variableKeys hk).element wf
  simp [variableAt, found]

theorem product_ok {table : Table} {key : Value} {name : String} {index : List Value}
    (there : (amount? table key).isSome = true) (hk : ⟨name, index⟩ ∈ m.variableKeys) :
    product m table key name index = .ok (.expr ((Expression.number (number table key)).times
      (.variable (m.preimageOf ⟨name, index⟩)))) := by
  obtain ⟨v, found, literal, -⟩ := look_of_amount? there
  simp [product, found, variableAt_ok wf hk, Operand.mul, Operand.combine, Operand.toExpression?,
    literal, bind, Except.bind, Except.map]

/-- A sum of variables. -/
theorem total_ok (name : String) {indices : List (List Value)} (some : indices ≠ [])
    (declared : ∀ index ∈ indices, ⟨name, index⟩ ∈ m.variableKeys) :
    total m name indices =
      .ok (.expr (m.weighted (units (indices.map fun index => ⟨name, index⟩)))) := by
  have each := Success.mapM_of_ok fun index hi => variableAt_ok wf (declared index hi)
  have there : (indices.map fun index => Expression.variable (m.preimageOf ⟨name, index⟩)) ≠ [] := by
    simpa using some
  have sum := Operand.sum_exprs there
  rw [total, each, Model.weighted_units]
  simpa [bind, Except.bind, Function.comp_def] using sum

/-- The products of a sum, and their sum. -/
theorem products_ok {α : Type} {items : List α} {table : Table} (key : α → Value) (name : String)
    (index : α → List Value) (some : items ≠ [])
    (there : ∀ a ∈ items, (amount? table (key a)).isSome = true)
    (declared : ∀ a ∈ items, ⟨name, index a⟩ ∈ m.variableKeys) : ∃ operands,
      items.mapM (fun a => product m table (key a) name (index a)) = .ok operands ∧
        Operand.sum operands = .ok (.expr (m.weighted (items.map fun a =>
          (⟨name, index a⟩, number table (key a))))) := by
  have products : (items.map fun a => (Expression.number (number table (key a))).times
      (.variable (m.preimageOf ⟨name, index a⟩))) ≠ [] := by simpa using some
  have sum := Operand.sum_exprs products
  refine ⟨_, Success.mapM_of_ok fun a ha => product_ok wf (there a ha) (declared a ha), ?_⟩
  simpa [Model.weighted, Function.comp_def] using sum

end Operands

/-- Rules that come out for every item make a constraint for every item. -/
theorem rowsFor_eq {items : List Value} {rule : Value → Except Fault Statement}
    {c : Value → Constraint} (labels : ∀ item ∈ items, item.IsLabel)
    (made : ∀ item ∈ items, ∃ statement, rule item = .ok statement ∧
      statement.constraint = .ok (c item)) :
    rowsFor items rule = (items.map fun item => ([item], c item)).map fun row =>
      (row.1, .constraint (.ok row.2)) := by
  rw [rowsFor, List.map_map]
  refine List.map_congr_left fun item hi => ?_
  obtain ⟨statement, ruled, stated⟩ := made item hi
  simp [(Value.IsLabelled.one (labels item hi)).flatIndex, ruled, stated, bind, Except.bind]

end GeneralizedAssignment

end BlockAngular
