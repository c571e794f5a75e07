import BlockAngular.Proofs.Decomposition.Origins
import BlockAngular.Proofs.Pricing.Bilinear

/-! # Columns are worth their reduced costs

The tables of a subproblem know variables of its model and constraints of the master only, each
variable once. So what is true of such tables is true of every subproblem of a decomposition:
the cost of a column, less the dual values of the constraints that it is in, is what the reduced
costs of the variables give at the solution.
-/

namespace BlockAngular

open Decomposition

namespace Model

variable {m : Model}

/-- The elements of components with different names have different handles. -/
theorem handles_nodup (names : m.names.Nodup) {select : Component → List (Key × Handle)}
    (selected : ∀ c ∈ m.components, ∃ positions : List Nat, positions.Nodup ∧
      (select c).map (·.2) = positions.map (m.handle c.name)) :
    ((m.components.flatMap select).map (·.2)).Nodup := by
  rw [List.map_flatMap]
  refine List.nodup_flatMap.mpr ⟨fun c hc => ?_, ?_⟩
  · obtain ⟨positions, different, equal⟩ := selected c hc
    rw [equal]
    exact different.map fun a b same => congrArg Handle.position same
  · refine (List.pairwise_map.mp names).imp_of_mem fun {c d} hc hd different => ?_
    obtain ⟨positions, -, equal⟩ := selected c hc
    obtain ⟨positions', -, equal'⟩ := selected d hd
    simp only [Function.onFun, equal, equal', List.disjoint_left, List.mem_map]
    rintro h ⟨_, -, rfl⟩ ⟨_, -, same⟩
    exact different (congrArg Handle.component same).symm

theorem keyed_handles (name : String) {α : Type} (family : Family α) :
    (m.keyed name family).map (·.2) = (family.present.map (·.2.1)).map (m.handle name) := by
  simp [keyed, Function.comp_def]

theorem vars_nodup (names : m.names.Nodup) : (m.vars.map (·.2)).Nodup := by
  refine handles_nodup names fun c _ => ?_
  split
  · exact ⟨_, Family.present_positions_nodup _, keyed_handles _ _⟩
  · exact ⟨[], List.nodup_nil, rfl⟩

theorem allConstraints_nodup (names : m.names.Nodup) : (m.allConstraints.map (·.2)).Nodup := by
  refine handles_nodup names fun c _ => ?_
  split
  · exact ⟨_, Family.present_positions_nodup _, keyed_handles _ _⟩
  · exact ⟨[], List.nodup_nil, rfl⟩

end Model

namespace Subproblem

variable {α : Type} [CommRing α]

/-- The tables of a subproblem know its variables and some constraints only. -/
structure IsPriced (s : Subproblem) (rows : List Handle) : Prop where
  vars_nodup : s.vars.Nodup
  coupling_nodup : (s.coupling.map (·.1)).Nodup
  coupling_vars : ∀ v ∈ s.coupling.map (·.1), v ∈ s.vars
  costs_nodup : (s.costs.map (·.1)).Nodup
  costs_vars : ∀ v ∈ s.costs.map (·.1), v ∈ s.vars
  rows_nodup : rows.Nodup
  coupling_rows : ∀ v, ∀ pair ∈ s.coupling.pairsOf v, pair.1 ∈ rows

/-- The costs of a subproblem as numbers. -/
def costsAs (w : Float → α) (s : Subproblem) : CostTable α :=
  s.costs.map fun (v, k) => (v, w k)

/-- The cost, the coefficients and the reduced costs of a subproblem for a solution and dual
values of some constraints fit together. -/
structure FitsTogether (s : Subproblem) (rows : List Handle) (w : Float → α) (y d : Handle → α)
    (cost : α) (column reduced : List (Handle × α)) : Prop where
  identity : cost - (rows.map fun row => d row * Pricing.Matrix.entry column row).sum =
    (s.vars.map fun v => Pricing.Matrix.entry reduced v * y v).sum
  /-- Every variable has its reduced cost. -/
  reduced_vars : reduced.map (·.1) = s.vars
  /-- The column has the constraints that the solution contributes to. -/
  column_rows : ∀ row, row ∈ column.map (·.1) ↔
    (s.vars.map fun v => Pricing.coefficient w s.coupling row v * y v).sum ≠ 0

theorem IsPriced.fitsTogether {s : Subproblem} {rows : List Handle} (h : s.IsPriced rows) [BEq α]
    [LawfulBEq α] (w : Float → α) (y d : Handle → α) : ∃ cost column reduced,
      Pricing.columnCost (s.costsAs w) (fun v => .ok (y v)) = .ok cost ∧
      Pricing.columnCoefficients (.of w) s.coupling (fun v => .ok (y v)) = .ok column ∧
      Pricing.reducedCosts (.of w) s.coupling (s.costsAs w) s.vars (fun row => .ok (d row)) =
        .ok reduced ∧
      s.FitsTogether rows w y d cost column reduced := by
  have keys : (s.costsAs w).map (·.1) = s.costs.map (·.1) := by
    simp [costsAs, Function.comp_def]
  obtain ⟨column, made, entries, members⟩ := Pricing.columnCoefficients_members w y s.coupling
  refine ⟨_, column, _, Pricing.columnCost_eq _ y, made, Pricing.reducedCosts_eq _ s.vars d,
    ?_, ?_, fun row => ?_⟩
  · have reduced (v : Handle) (hv : v ∈ s.vars) : Pricing.Matrix.entry (s.vars.foldl
        (fun reduced v => Handle.put v (Pricing.reducedCost w s.coupling (s.costsAs w) d v) reduced)
        []) v = Pricing.reducedCost w s.coupling (s.costsAs w) d v := by
      rw [Pricing.Matrix.entry, Pricing.lookup_reducedCosts, if_pos hv, Option.getD_some]
    simp only [entries]
    rw [Pricing.pricing_identity h.vars_nodup h.coupling_nodup h.coupling_vars
      (keys ▸ h.costs_nodup) (keys ▸ h.costs_vars) h.rows_nodup h.coupling_rows]
    exact congrArg List.sum (List.map_congr_left fun v hv => by rw [reduced v hv])
  · rw [Handle.foldl_put_keys, List.map_nil, Handle.foldl_insertNew]
    exact Handle.eraseDups_of_nodup h.vars_nodup
  · rw [members, entries, Pricing.sum_products h.vars_nodup h.coupling_nodup h.coupling_vars]

end Subproblem

namespace Reformulation.Trace

variable {first : Nat} {m : Model} {classify : Classify} {config : Config} {r : Reformulation}

/-- The terms of the objective that live in a subproblem. -/
theorem costs_keys (h : r.Trace first m classify config) {s : Subproblem}
    (hs : s ∈ r.subproblems) : (s.costs.map (·.1)).Nodup ∧
      ∀ v ∈ s.costs.map (·.1), r.vars.livesIn (.subproblem s.id) v = true := by
  cases ho : r.objective with
  | none => simp [h.costs_eq_nil ho hs]
  | some o =>
      have nodup := h.objective_nodup ho
      rw [h.costs_eq ho nodup hs]
      refine ⟨nodup.sublist (List.filter_sublist.map _), fun v hv => ?_⟩
      obtain ⟨term, hterm, rfl⟩ := List.mem_map.mp hv
      exact (List.mem_filter.mp hterm).2

theorem isPriced (h : r.Trace first m classify config) (wf : m.WellFormed) {s : Subproblem}
    (hs : s ∈ r.subproblems) : s.IsPriced (r.master.allConstraints.map (·.2)) := by
  obtain ⟨number, hb, view⟩ := h.subproblem_numbered wf hs
  have listed : (Block.subproblem s.id, s.model) ∈ r.targets :=
    List.mem_cons_of_mem _ (List.mem_map.mpr ⟨s, hs, rfl⟩)
  obtain ⟨_, -, shape⟩ := h.exists_outlined listed
  have master : (Block.master, r.master) ∈ r.targets := List.mem_cons_self
  obtain ⟨_, -, masterShape⟩ := h.exists_outlined master
  refine ⟨Model.vars_nodup shape.names_nodup, ?_, fun v hv => (h.coupling_keys wf hs hv).2.1,
    (h.costs_keys hs).1, fun v hv => h.mem_vars_of_livesIn hb view ((h.costs_keys hs).2 v hv),
    Model.allConstraints_nodup masterShape.names_nodup, fun v pair hp => ?_⟩
  · rw [h.coupling_eq hs]
    exact CouplingTable.ofEntries_keys_nodup _
  · unfold CouplingTable.pairsOf at hp
    cases found : s.coupling.lookup v with
    | none => simp [found] at hp
    | some pairs =>
        rw [found, Option.getD_some] at hp
        obtain ⟨before, after, equal, -⟩ := List.lookup_eq_some_iff.mp found
        have here : (v, pairs) ∈ s.coupling := by simp [equal]
        obtain ⟨t, ht, row, -⟩ := h.transfer_of_pair wf hs here hp
        rw [← row]
        exact (h.transfer_row wf ht).1

end Reformulation.Trace

namespace Reformulation

/-- For every solution and dual values, the prices of the subproblems fit together. -/
def PricesColumns (r : Reformulation) {α : Type} [CommRing α] [BEq α] (w : Float → α) : Prop :=
  ∀ s ∈ r.subproblems, ∀ solution duals : List (Handle × Option α), ∃ cost column reduced,
    Pricing.columnCost (s.costsAs w) (fun v => .ok (Pricing.numberAt 0 solution v)) = .ok cost ∧
    Pricing.columnCoefficients (.of w) s.coupling (fun v => .ok (Pricing.numberAt 0 solution v)) =
      .ok column ∧
    Pricing.reducedCosts (.of w) s.coupling (s.costsAs w) s.vars
      (fun row => .ok (Pricing.numberAt 0 duals row)) = .ok reduced ∧
    s.FitsTogether (r.master.allConstraints.map (·.2)) w (Pricing.numberAt 0 solution)
      (Pricing.numberAt 0 duals) cost column reduced

end Reformulation

namespace Decomposition

/-- The tables of every subproblem of a decomposition are three views of one bilinear form. -/
theorem pricesColumns {first : Nat} {m : Model} {classify : Classify} {config : Config}
    {r : Reformulation} {α : Type} [CommRing α] [BEq α] [LawfulBEq α] (w : Float → α)
    (wf : m.WellFormed) (h : decompose first m classify config = .ok r) : r.PricesColumns w :=
  fun _ hs _ _ => ((decompose_trace wf h).isPriced wf hs).fitsTogether w _ _

end Decomposition

/-- The one subproblem of the two columns prices its variable. -/
theorem twoColumns_pricesColumns : twoColumns.WellFormed ∧
    ∃ r, Decomposition.decompose 1 twoColumns firstApart .standard = .ok r ∧
      r.subproblems.map (·.vars) = [[⟨2, "x", 0⟩]] ∧ r.PricesColumns Binary64.rational := by
  obtain ⟨r, h, vars⟩ := exists_of_toOption_bind
    (x := Decomposition.decompose 1 twoColumns firstApart .standard)
    (f := fun r => some (r.subproblems.map (·.vars))) (b := [[⟨2, "x", 0⟩]]) (by decide +kernel)
  exact ⟨twoColumns_wellFormed, r, h, Option.some.inj vars,
    Decomposition.pricesColumns Binary64.rational twoColumns_wellFormed h⟩

end BlockAngular
