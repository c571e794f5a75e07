import BlockAngular.Pricing.Basic
import BlockAngular.Proofs.Decomposition.Couplings
import Mathlib.Algebra.BigOperators.Group.List.Basic
import Mathlib.Algebra.Ring.Defs

/-! # Columns in exact arithmetic

Over numbers whose sums and products are exact, the entry of a column in a constraint is the
sum of the products that the coupling table has for the constraint, and a column costs the
sum of the products of the cost table. Leaving out variables at zero and zero entries does
not change any sum.
-/

namespace BlockAngular

namespace CostTable

variable {κ : Type} {table : CostTable κ} {v : Handle} {zero k : κ}

theorem costOf_of_mem (nodup : (table.map (·.1)).Nodup) (h : (v, k) ∈ table) :
    table.costOf zero v = k := by
  rw [costOf, (lookup_eq_some nodup).mpr h, Option.getD_some]

theorem costOf_of_absent (absent : v ∉ table.map (·.1)) : table.costOf zero v = zero := by
  rw [costOf, lookup_of_absent absent, Option.getD_none]

end CostTable

namespace Pricing

section Exact

variable {κ α : Type} [Semiring α]

/-- Coefficients that stand for numbers of an arithmetic without errors. -/
def Coefficients.of (w : κ → α) : Coefficients κ α :=
  ⟨fun k x => .ok (w k * x), fun k => .ok (w k)⟩

@[simp] theorem Coefficients.of_times (w : κ → α) (k : κ) (x : α) :
    (Coefficients.of w).times k x = .ok (w k * x) := rfl

/-- The sum of the numbers that some entries have for a row. -/
def amountIn (row : Handle) (entries : List (Handle × α)) : α :=
  ((entries.filter fun e => e.1 = row).map (·.2)).sum

@[simp] theorem amountIn_nil (row : Handle) : amountIn row ([] : List (Handle × α)) = 0 := rfl

theorem amountIn_cons (row own : Handle) (a : α) (entries : List (Handle × α)) :
    amountIn row ((own, a) :: entries) = (if own = row then a else 0) + amountIn row entries := by
  by_cases equal : own = row <;> simp [amountIn, equal]

theorem contributions_of (w : κ → α) (x : α) (pairs : List (Handle × κ)) :
    contributions (.of w) x pairs = .ok (pairs.map fun (row, k) => (row, w k * x)) := by
  induction pairs with
  | nil => rfl
  | cons pair rest ih =>
      simp [contributions, ih, bind, Except.bind, pure, Except.pure]

/-- Accumulated products add to the entries of their rows. -/
theorem entry_accumulate (row : Handle) (products column : List (Handle × α)) :
    Matrix.entry (accumulate products column) row =
      Matrix.entry column row + amountIn row products := by
  induction products generalizing column with
  | nil => simp [accumulate]
  | cons product rest ih =>
      obtain ⟨own, a⟩ := product
      have step : Matrix.entry (Handle.change own 0 (· + a) column) row =
          Matrix.entry column row + if own = row then a else 0 := by
        by_cases equal : row = own
        · simp [Matrix.entry, Handle.lookup_change, equal]
        · simp [Matrix.entry, Handle.lookup_change, equal, Ne.symm equal]
      have others := ih (Handle.change own 0 (· + a) column)
      rw [step] at others
      rw [amountIn_cons, ← add_assoc, ← others]
      rfl

theorem accumulate_keys_nodup (products : List (Handle × α)) {column : List (Handle × α)}
    (nodup : (column.map (·.1)).Nodup) : ((accumulate products column).map (·.1)).Nodup := by
  induction products generalizing column with
  | nil => exact nodup
  | cons product rest ih => exact ih (Handle.change_keys_nodup nodup)

variable [BEq α]

/-- What the pairs of a variable with a value add to a column. -/
def addColumn (w : κ → α) (y : Handle → α) (column : List (Handle × α))
    (entry : Handle × List (Handle × κ)) : List (Handle × α) :=
  if y entry.1 == 0 then column
  else accumulate (entry.2.map fun (row, k) => (row, w k * y entry.1)) column

theorem addColumn_keys_nodup (w : κ → α) (y : Handle → α) (table : CouplingTable κ)
    {column : List (Handle × α)} (nodup : (column.map (·.1)).Nodup) :
    ((table.foldl (addColumn w y) column).map (·.1)).Nodup := by
  induction table generalizing column with
  | nil => exact nodup
  | cons entry rest ih =>
      refine ih ?_
      unfold addColumn
      split
      · exact nodup
      · exact accumulate_keys_nodup _ nodup

theorem foldlM_addColumn (w : κ → α) (y : Handle → α) (table : CouplingTable κ)
    (column : List (Handle × α)) :
    table.foldlM (fun column (v, pairs) => do
      let x ← (.ok (y v) : Except Fault α)
      if x == 0 then return column
      else return accumulate (← contributions (.of w) x pairs) column) column =
        .ok (table.foldl (addColumn w y) column) := by
  induction table generalizing column with
  | nil => rfl
  | cons entry rest ih =>
      obtain ⟨v, pairs⟩ := entry
      simp only [List.foldlM_cons, List.foldl_cons, contributions_of] at ih ⊢
      rw [← ih]
      by_cases zero : (y v == 0) = true <;>
        simp [addColumn, zero, bind, Except.bind, pure, Except.pure]

theorem columnCoefficients_of (w : κ → α) (y : Handle → α) (table : CouplingTable κ) :
    columnCoefficients (.of w) table (fun v => .ok (y v)) =
      .ok ((table.foldl (addColumn w y) []).filter fun (_, x) => !(x == 0)) := by
  rw [columnCoefficients, foldlM_addColumn]
  rfl

variable [LawfulBEq α]

theorem entry_addColumn (w : κ → α) (y : Handle → α) (row : Handle) (column : List (Handle × α))
    (entry : Handle × List (Handle × κ)) :
    Matrix.entry (addColumn w y column entry) row = Matrix.entry column row +
      amountIn row (entry.2.map fun (row, k) => (row, w k * y entry.1)) := by
  unfold addColumn
  split
  · rename_i atZero
    have zero : y entry.1 = 0 := by simpa using atZero
    have nothing : amountIn row (entry.2.map fun (row, k) => (row, w k * y entry.1)) = 0 := by
      refine List.sum_eq_zero fun a ha => ?_
      obtain ⟨e, he, rfl⟩ := List.mem_map.mp ha
      obtain ⟨pair, -, rfl⟩ := List.mem_map.mp (List.mem_of_mem_filter he)
      simp [zero]
    rw [nothing, add_zero]
  · exact entry_accumulate row _ column

theorem entry_foldl_addColumn (w : κ → α) (y : Handle → α) (row : Handle) (table : CouplingTable κ)
    (column : List (Handle × α)) :
    Matrix.entry (table.foldl (addColumn w y) column) row = Matrix.entry column row +
      (table.map fun (v, pairs) =>
        amountIn row (pairs.map fun (row, k) => (row, w k * y v))).sum := by
  induction table generalizing column with
  | nil => simp
  | cons entry rest ih => simp [ih, entry_addColumn, add_assoc]

/-- Zero entries count as much as absent ones. -/
theorem entry_filter_ne_zero {column : List (Handle × α)} (nodup : (column.map (·.1)).Nodup)
    (row : Handle) :
    Matrix.entry (column.filter fun (e : Handle × α) => !(e.2 == 0)) row =
      Matrix.entry column row := by
  induction column with
  | nil => rfl
  | cons entry rest ih =>
      obtain ⟨own, x⟩ := entry
      obtain ⟨new, others⟩ := List.nodup_cons.mp nodup
      simp only [Matrix.entry] at ih ⊢
      by_cases equal : row = own
      · subst equal
        have absent : rest.lookup row = none := lookup_of_absent new
        by_cases zero : x = 0
        · simp [zero, ih others, absent]
        · simp [zero]
      · have other : (row == own) = false := by simpa using equal
        by_cases zero : x = 0
        · simp [zero, List.lookup_cons, other, ih others]
        · simp [zero, List.lookup_cons, other, ih others]

/-- There is a column, and its entry in a row is the sum of all products for the row. -/
theorem columnCoefficients_entry (w : κ → α) (y : Handle → α) (table : CouplingTable κ) :
    ∃ column, columnCoefficients (.of w) table (fun v => .ok (y v)) = .ok column ∧
      ∀ row, Matrix.entry column row = (table.map fun (v, pairs) =>
        amountIn row (pairs.map fun (row, k) => (row, w k * y v))).sum := by
  refine ⟨_, columnCoefficients_of w y table, fun row => ?_⟩
  have nodup : ((table.foldl (addColumn w y) []).map (·.1)).Nodup :=
    addColumn_keys_nodup w y table List.nodup_nil
  refine (entry_filter_ne_zero nodup row).trans ?_
  rw [entry_foldl_addColumn]
  simp [Matrix.entry]

omit [BEq α] [LawfulBEq α] in
/-- The products that a table has for a row are those of its entries. -/
theorem sum_ofEntries (w : κ → α) (y : Handle → α) (row : Handle)
    (entries : List (Handle × Handle × κ)) :
    ((CouplingTable.ofEntries entries).map fun (v, pairs) =>
        amountIn row (pairs.map fun (row, k) => (row, w k * y v))).sum =
      amountIn row (entries.map fun (row, v, k) => (row, w k * y v)) := by
  induction entries using List.reverseRecOn with
  | nil => rfl
  | append_singleton entries e ih =>
      obtain ⟨own, v, k⟩ := e
      rw [CouplingTable.ofEntries_concat, CouplingTable.addPair,
        Handle.sum_change (d := if own = row then w k * y v else 0), ih]
      · by_cases equal : own = row <;> simp [amountIn, equal]
      · simp [amountIn_cons]
      · intro pairs
        by_cases equal : own = row <;> simp [amountIn, equal]

omit [BEq α] [LawfulBEq α] in
theorem products_ok (costs : CostTable α) (y : Handle → α) :
    costs.mapM (fun (v, cost) => do return cost * (← (.ok (y v) : Except Fault α))) =
      .ok (costs.map fun (v, cost) => cost * y v) := by
  rw [Success.mapM_ok, List.forall₂_map_right_iff]
  exact List.forall₂_same.mpr fun _ _ => rfl

omit [BEq α] [LawfulBEq α] in
/-- A column costs the sum of the products of costs and values. -/
theorem columnCost_eq (costs : CostTable α) (y : Handle → α) :
    columnCost costs (fun v => .ok (y v)) = .ok (costs.map fun (v, cost) => cost * y v).sum := by
  rw [columnCost, products_ok, List.sum_eq_foldl]
  rfl

end Exact

end Pricing

end BlockAngular
