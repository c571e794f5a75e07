import BlockAngular.Pricing.Given
import BlockAngular.Proofs.Pricing.ReducedCosts
import Mathlib.Algebra.BigOperators.Ring.List

/-! # The tables of a subproblem are a bilinear form

A solution and dual values meet in the cost of the column, its coefficients and the reduced
costs. The first two go through the tables entry by entry and leave out what is zero, the last
goes variable by variable through a matrix. Where the tables know only listed variables, these
are ways to add up the same products.
-/

namespace BlockAngular

namespace Pricing

/-- The number that a solution or dual values give for a handle; a handle that is missing, or
has no number, counts as zero. -/
def numberAt {α : Type} (zero : α) (values : List (Handle × Option α)) (h : Handle) : α :=
  ((values.lookup h).join).getD zero

/-- Given numbers are read this way. -/
theorem given_numbers (values : List (Handle × Option Float)) (h : Handle) :
    given (values.map fun (h, x) => (h, (x.map Value.float).getD .null)) h =
      .ok (numberAt 0.0 values h) := by
  induction values with
  | nil => rfl
  | cons entry rest ih =>
      obtain ⟨own, x⟩ := entry
      unfold given numberAt at ih ⊢
      rw [List.map_cons, List.lookup_cons, List.lookup_cons]
      cases h == own with
      | false => exact ih
      | true => cases x <;> rfl

section Exact

variable {α : Type} [CommRing α]

/-- Summed over the listed variables, what the entries of a table give is summed over the
table. -/
theorem sum_lookup {β : Type} {vars : List Handle} (listed : vars.Nodup)
    {table : List (Handle × β)} (keys : (table.map (·.1)).Nodup)
    (within : ∀ v ∈ table.map (·.1), v ∈ vars) (part : Handle → β → α) :
    (vars.map fun v => ((table.lookup v).map (part v)).getD 0).sum =
      (table.map fun (v, b) => part v b).sum := by
  induction table with
  | nil => simp
  | cons entry rest ih =>
      obtain ⟨own, b⟩ := entry
      obtain ⟨new, others⟩ := List.nodup_cons.mp keys
      obtain ⟨here, later⟩ := List.forall_mem_cons.mp within
      have absent : rest.lookup own = none := lookup_of_absent new
      have split (v : Handle) : ((((own, b) :: rest).lookup v).map (part v)).getD 0 =
          (if own = v then part v b else 0) + ((rest.lookup v).map (part v)).getD 0 := by
        rw [List.lookup_cons]
        by_cases equal : own = v
        · subst equal
          simp [absent]
        · have apart : (v == own) = false := by simpa using Ne.symm equal
          simp [equal, apart]
      rw [List.map_congr_left fun v _ => split v, List.sum_map_add,
        sum_ite_row listed here fun v => part v b, ih others later, List.map_cons, List.sum_cons]

variable {κ : Type} {w : κ → α} {table : CouplingTable κ} {costs : CostTable α} {vars : List Handle}

/-- The coefficient of a variable in a row, all pairs of the two taken together. -/
def coefficient (w : κ → α) (table : CouplingTable κ) (row v : Handle) : α :=
  amountIn row ((table.pairsOf v).map fun (row, k) => (row, w k))

theorem amountIn_mul (row : Handle) (pairs : List (Handle × κ)) (x : α) :
    amountIn row (pairs.map fun (row, k) => (row, w k * x)) =
      amountIn row (pairs.map fun (row, k) => (row, w k)) * x := by
  induction pairs with
  | nil => simp
  | cons pair pairs ih =>
      simp only [List.map_cons, amountIn_cons, ih]
      split <;> simp [add_mul]

/-- What is added up for a row is what its coefficients give at the values. -/
theorem sum_products (listed : vars.Nodup) (keys : (table.map (·.1)).Nodup)
    (within : ∀ v ∈ table.map (·.1), v ∈ vars) (y : Handle → α) (row : Handle) :
    (table.map fun (v, pairs) => amountIn row (pairs.map fun (row, k) => (row, w k * y v))).sum =
      (vars.map fun v => coefficient w table row v * y v).sum := by
  rw [← sum_lookup listed keys within fun v pairs =>
    amountIn row (pairs.map fun (row, k) => (row, w k * y v))]
  refine congrArg List.sum (List.map_congr_left fun v _ => ?_)
  rw [coefficient, CouplingTable.pairsOf]
  cases table.lookup v with
  | none => simp
  | some pairs => exact amountIn_mul row pairs (y v)

/-- The cost of a column is what the costs give at the values. -/
theorem sum_costs (listed : vars.Nodup) (keys : (costs.map (·.1)).Nodup)
    (within : ∀ v ∈ costs.map (·.1), v ∈ vars) (y : Handle → α) :
    (costs.map fun (v, cost) => cost * y v).sum =
      (vars.map fun v => costs.costOf 0 v * y v).sum := by
  rw [← sum_lookup listed keys within fun v cost => cost * y v]
  refine congrArg List.sum (List.map_congr_left fun v _ => ?_)
  rw [CostTable.costOf]
  cases costs.lookup v <;> simp

/-- A reduced cost has the coefficients of all rows at the dual values. -/
theorem reducedCost_eq {rows : List Handle} (different : rows.Nodup) {v : Handle}
    (within : ∀ pair ∈ table.pairsOf v, pair.1 ∈ rows) (d : Handle → α) :
    reducedCost w table costs d v =
      costs.costOf 0 v - (rows.map fun row => d row * coefficient w table row v).sum := by
  have entries : ∀ e ∈ (table.pairsOf v).map fun (row, k) => (row, w k), e.1 ∈ rows := by
    intro e he
    obtain ⟨pair, hp, rfl⟩ := List.mem_map.mp he
    exact within pair hp
  have pairs := sum_amountIn different entries d
  rw [List.map_map] at pairs
  simp only [reducedCost, coefficient, mul_comm (d _), pairs]
  rfl

/-- Sums over rows and variables can be taken in either order. -/
theorem sum_comm (rows vars : List Handle) (f : Handle → Handle → α) :
    (rows.map fun row => (vars.map fun v => f row v).sum).sum =
      (vars.map fun v => (rows.map fun row => f row v).sum).sum := by
  induction rows with
  | nil => simp
  | cons row rows ih => simp [ih, List.sum_map_add]

/-- A column has the rows whose products do not cancel. -/
theorem columnCoefficients_members [BEq α] [LawfulBEq α] (w : κ → α) (y : Handle → α)
    (table : CouplingTable κ) : ∃ column,
      columnCoefficients (.of w) table (fun v => .ok (y v)) = .ok column ∧
      (∀ row, Matrix.entry column row = (table.map fun (v, pairs) =>
        amountIn row (pairs.map fun (row, k) => (row, w k * y v))).sum) ∧
      ∀ row, row ∈ column.map (·.1) ↔ Matrix.entry column row ≠ 0 := by
  obtain ⟨column, made, entries⟩ := columnCoefficients_entry w y table
  refine ⟨column, made, entries, fun row => ⟨fun there => ?_, fun different => ?_⟩⟩
  · rw [columnCoefficients_of, Except.ok.injEq] at made
    have all : ((table.foldl (addColumn w y) []).map (·.1)).Nodup :=
      addColumn_keys_nodup w y table List.nodup_nil
    have nodup : (column.map (·.1)).Nodup := by
      rw [← made]
      exact all.sublist (List.filter_sublist.map _)
    obtain ⟨⟨_, x⟩, he, rfl⟩ := List.mem_map.mp there
    rw [Matrix.entry, (lookup_eq_some nodup).mpr he, Option.getD_some]
    rw [← made] at he
    simpa using (List.mem_filter.mp he).2
  · by_contra absent
    simp [Matrix.entry, lookup_of_absent absent] at different

/-- What a column costs less what its coefficients are worth is worth its reduced costs. -/
theorem pricing_identity (listed : vars.Nodup) (keys : (table.map (·.1)).Nodup)
    (within : ∀ v ∈ table.map (·.1), v ∈ vars) (costKeys : (costs.map (·.1)).Nodup)
    (costWithin : ∀ v ∈ costs.map (·.1), v ∈ vars) {rows : List Handle} (different : rows.Nodup)
    (inRows : ∀ v, ∀ pair ∈ table.pairsOf v, pair.1 ∈ rows) (y d : Handle → α) :
    (costs.map fun (v, cost) => cost * y v).sum -
        (rows.map fun row => d row * (table.map fun (v, pairs) =>
          amountIn row (pairs.map fun (row, k) => (row, w k * y v))).sum).sum =
      (vars.map fun v => reducedCost w table costs d v * y v).sum := by
  have worth : (rows.map fun row => d row * (table.map fun (v, pairs) =>
        amountIn row (pairs.map fun (row, k) => (row, w k * y v))).sum).sum =
      (vars.map fun v => (rows.map fun row => d row * coefficient w table row v).sum * y v).sum :=
    calc
      _ = (rows.map fun row =>
            (vars.map fun v => d row * coefficient w table row v * y v).sum).sum := by
          simp only [sum_products listed keys within, ← List.sum_map_mul_left, mul_assoc]
      _ = (vars.map fun v =>
            (rows.map fun row => d row * coefficient w table row v * y v).sum).sum :=
          sum_comm rows vars _
      _ = _ := by simp only [List.sum_map_mul_right]
  rw [worth, sum_costs listed costKeys costWithin, sub_eq_iff_eq_add, ← List.sum_map_add]
  refine congrArg List.sum (List.map_congr_left fun v _ => ?_)
  rw [reducedCost_eq different (inRows v), ← add_mul, sub_add_cancel]

end Exact

end Pricing

end BlockAngular
