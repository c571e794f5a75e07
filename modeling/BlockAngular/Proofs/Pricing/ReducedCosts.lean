import BlockAngular.Proofs.Pricing.Matrix

/-! # Reduced costs in exact arithmetic

The product of the matrix of a coupling table with dual values has, for every variable of the
list, the sum over the pairs of the variable in the table: a row outside these pairs adds
nothing. So the reduced cost of a variable depends on its own entries in the tables alone, and
not on the list of variables that is priced with it.
-/

namespace BlockAngular

namespace Pricing

section Exact

variable {κ α : Type} [Ring α]

theorem total_eq_sum (xs : List α) : total xs = xs.sum := by
  cases xs with
  | nil => rfl
  | cons x rest =>
      calc rest.foldl (· + ·) x = rest.foldl (· + ·) (x + 0) := by rw [add_zero]
        _ = x + rest.foldl (· + ·) 0 := List.foldl_assoc
        _ = (x :: rest).sum := by rw [List.sum_cons, List.sum_eq_foldl]

/-- Dual values are weighted with entries, and absent entries add nothing. -/
theorem weighted_eq (column duals : List (Handle × α)) :
    weighted column duals = (duals.map fun dual => Matrix.entry column dual.1 * dual.2).sum := by
  have step (sum : α) : duals.foldl (fun total dual => total + Matrix.entry column dual.1 * dual.2)
      sum = sum + (duals.map fun dual => Matrix.entry column dual.1 * dual.2).sum := by
    induction duals generalizing sum with
    | nil => simp
    | cons dual duals ih => rw [List.foldl_cons, ih, List.map_cons, List.sum_cons, add_assoc]
  have read : weighted column duals =
      duals.foldl (fun total dual => total + Matrix.entry column dual.1 * dual.2) 0 := by
    unfold weighted
    congr 1
    funext total dual
    cases here : column.lookup dual.1 <;> simp [Matrix.entry, here]
  rw [read, step 0, zero_add]

/-- Among different rows, one is met once. -/
theorem sum_ite_row {rows : List Handle} (nodup : rows.Nodup) {own : Handle} (h : own ∈ rows)
    (f : Handle → α) : (rows.map fun row => if own = row then f row else 0).sum = f own := by
  induction rows with
  | nil => cases h
  | cons row rows ih =>
      obtain ⟨new, others⟩ := List.nodup_cons.mp nodup
      rw [List.map_cons, List.sum_cons]
      by_cases equal : own = row
      · subst equal
        have nothing : (rows.map fun row => if own = row then f row else 0).sum = 0 := by
          refine List.sum_eq_zero fun x hx => ?_
          obtain ⟨row, hr, rfl⟩ := List.mem_map.mp hx
          have other : own ≠ row := by
            rintro rfl
            exact new hr
          exact if_neg other
        rw [nothing, if_pos rfl, add_zero]
      · have later : own ∈ rows := by simpa [equal] using h
        rw [if_neg equal, ih others later, zero_add]

/-- Summed over all rows, the amounts of some entries are the entries. -/
theorem sum_amountIn {rows : List Handle} (nodup : rows.Nodup) {entries : List (Handle × α)}
    (within : ∀ e ∈ entries, e.1 ∈ rows) (d : Handle → α) :
    (rows.map fun row => amountIn row entries * d row).sum =
      (entries.map fun (row, a) => a * d row).sum := by
  induction entries with
  | nil => simp
  | cons e entries ih =>
      obtain ⟨own, a⟩ := e
      obtain ⟨first, others⟩ := List.forall_mem_cons.mp within
      simp only [amountIn_cons, add_mul, ite_mul, zero_mul, List.map_cons, List.sum_cons,
        List.sum_map_add, sum_ite_row nodup first fun row => a * d row, ih others]

variable {w : κ → α} {table : CouplingTable κ} {costs : CostTable α} {v : Handle}

theorem entry_columnOf_eq (row : Handle) : Matrix.entry (columnOf w table v) row =
    amountIn row ((table.pairsOf v).map fun (row, k) => (row, w k)) := by
  rw [columnOf, entry_gather, total_eq_sum, amountIn]

/-- The cost of a variable less its coefficients at the dual values. -/
def reducedCost (w : κ → α) (table : CouplingTable κ) (costs : CostTable α) (duals : Handle → α)
    (v : Handle) : α :=
  costs.costOf 0 v - ((table.pairsOf v).map fun (row, k) => w k * duals row).sum

/-- The column of a variable at the dual values has the pairs of the variable. -/
theorem weighted_columnOf (duals : Handle → α) :
    weighted (columnOf w table v) (table.rows.map fun row => (row, duals row)) =
      ((table.pairsOf v).map fun (row, k) => w k * duals row).sum := by
  rw [weighted_eq, List.map_map]
  simp only [Function.comp_def, entry_columnOf_eq]
  rw [sum_amountIn CouplingTable.rows_nodup, List.map_map]
  · rfl
  · intro e he
    obtain ⟨pair, hp, rfl⟩ := List.mem_map.mp he
    exact CouplingTable.row_mem_of_pair hp

/-- Every variable of the list gets the reduced cost that its own entries give. -/
theorem reducedCosts_eq (times : κ → α → Except Fault α) (vars : List Handle)
    (duals : Handle → α) :
    reducedCosts ⟨times, fun k => .ok (w k)⟩ table costs vars (fun row => .ok (duals row)) =
      .ok (vars.foldl (fun reduced v =>
        Handle.put v (reducedCost w table costs duals v) reduced) []) := by
  have dual : table.rows.mapM (fun row => do return (row, ← (.ok (duals row) : Except Fault α))) =
      .ok (table.rows.map fun row => (row, duals row)) := by
    rw [Success.mapM_ok, List.forall₂_map_right_iff]
    exact List.forall₂_same.mpr fun _ _ => rfl
  have own (v : Handle) : (if table.rows.isEmpty then costs.costOf 0 v
      else costs.costOf 0 v - weighted (columnOf w table v)
        (table.rows.map fun row => (row, duals row))) = reducedCost w table costs duals v := by
    rw [weighted_columnOf]
    split
    · rename_i none
      have noPairs : table.pairsOf v = [] := by
        refine List.eq_nil_iff_forall_not_mem.mpr fun pair hp => ?_
        have row := CouplingTable.row_mem_of_pair hp
        rw [List.isEmpty_iff.mp none] at row
        cases row
      simp [reducedCost, noPairs]
    · rfl
  rw [reducedCosts, matrix_ok]
  simp only [bind, Except.bind] at dual ⊢
  rw [dual]
  simp only [List.foldl_map, own]
  rfl

theorem lookup_reducedCosts (vars : List Handle) (duals : Handle → α) :
    (vars.foldl (fun reduced v => Handle.put v (reducedCost w table costs duals v) reduced)
        []).lookup v =
      if v ∈ vars then some (reducedCost w table costs duals v) else none :=
  Handle.lookup_foldl_put _ _

omit [Ring α] in
theorem mem_tableVariables :
    v ∈ tableVariables table costs ↔ v ∈ table.map (·.1) ∨ v ∈ costs.map (·.1) := by
  rw [tableVariables, Handle.foldl_insertNew, List.mem_eraseDups, List.mem_append]

/-- A variable that no table knows costs nothing. -/
theorem reducedCost_of_absent (duals : Handle → α) (h : v ∉ tableVariables table costs) :
    reducedCost w table costs duals v = 0 := by
  rw [mem_tableVariables, not_or] at h
  simp [reducedCost, CouplingTable.pairsOf_of_absent h.1, CostTable.costOf_of_absent h.2]

/-- The matrix of a coupling table always exists, over any numbers and any list of variables, and
the reduced costs that go through it are those of each variable alone. A list of one's own and
the variables of the tables give the same reduced costs, and zero to what the tables do not
know. -/
theorem reducedCosts_refines {β : Type} [OfNat β 0] [Add β] (read : κ → β)
    (timesRead : κ → β → Except Fault β) (w : κ → α) (times : κ → α → Except Fault α)
    (table : CouplingTable κ) (costs : CostTable α) (vars : List Handle) (duals : Handle → α) :
    (∃ m, matrix ⟨timesRead, fun k => .ok (read k)⟩ table vars = .ok m ∧
      m.Exports read table vars) ∧
    ∃ reduced known,
      reducedCosts ⟨times, fun k => .ok (w k)⟩ table costs vars (fun row => .ok (duals row)) =
        .ok reduced ∧
      reducedCosts ⟨times, fun k => .ok (w k)⟩ table costs (tableVariables table costs)
        (fun row => .ok (duals row)) = .ok known ∧
      reduced.map (·.1) = vars.eraseDups ∧
      (∀ v ∈ vars, reduced.lookup v = some
        (costs.costOf 0 v - ((table.pairsOf v).map fun (row, k) => w k * duals row).sum)) ∧
      ∀ v ∈ vars, reduced.lookup v =
        if v ∈ tableVariables table costs then known.lookup v else some 0 := by
  refine ⟨matrix_exports timesRead vars, _, _, reducedCosts_eq times vars duals,
    reducedCosts_eq times _ duals, ?_, fun v hv => ?_, fun v hv => ?_⟩
  · rw [Handle.foldl_put_keys, List.map_nil, Handle.foldl_insertNew]
  · rw [lookup_reducedCosts, if_pos hv]
    rfl
  · rw [lookup_reducedCosts, lookup_reducedCosts, if_pos hv]
    split
    · rfl
    · rename_i unknown
      rw [reducedCost_of_absent duals unknown]

end Exact

end Pricing

end BlockAngular
