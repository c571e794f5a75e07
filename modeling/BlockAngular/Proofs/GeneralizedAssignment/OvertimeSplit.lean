import BlockAngular.Proofs.GeneralizedAssignment.Overtime
import BlockAngular.Proofs.GeneralizedAssignment.Split

/-! # The split of an instance with overtime

The overtime of a machine stays in its subproblem, so that the constraint of the machine keeps all
its terms. Only the constraint about the shifts, which is the master's, ties the machines
together.
-/

namespace BlockAngular

open Decomposition
open Collected (realTerms plainZero)

namespace GeneralizedAssignment

/-- The coefficients of the load of a machine, against its overtime. -/
def roomTerms (i : Instance) (machine : Value) : List (Key × Float) :=
  (loadKeys i machine).map (·, 1.0) ++ [(⟨"overtime", [machine]⟩, -1.0)]

/-- The coefficients of the overtime, against the shifts. -/
def budgetTerms (i : Instance) : List (Key × Float) :=
  (overtimeKeys i).map (·, 1.0) ++ [(⟨"shifts", []⟩, -1.0)]

/-- The coefficients of the costs, of those of overtime and of that of the shifts. -/
def mixedCostTerms (i : Instance) (overtime : Overtime) : List (Key × Numeric) :=
  coefficients (costTerms i) ++ (overtimeKeys i).map (·, overtime.cost.number.coefficient) ++
    [(⟨"shifts", []⟩, overtime.machineCost.number.coefficient)]

/-- The bounds of the overtime can be read. -/
theorem Overtime.IsProper.exists_attributes {overtime : Overtime} (numbers : overtime.IsProper) :
    ∃ a, Attributes.ofVariable? (variableOf .nonNegativeReals (.int 0) overtime.limit .null) =
      .ok a := by
  have upper : ∃ bound, Variable.tightest overtime.limit none (.infinite false)
      (fun x y => y.below x) = .ok bound := by
    obtain none | ⟨x, number, above | ⟨q, finite⟩⟩ := numbers.limit
    · exact ⟨.null, by rw [none]; rfl⟩
    · refine ⟨.null, ?_⟩
      unfold Variable.tightest
      split <;> simp_all [Exact.same]
    · refine ⟨overtime.limit, ?_⟩
      unfold Variable.tightest
      split <;> simp_all
  obtain ⟨bound, tight⟩ := upper
  have lower : (variableOf .nonNegativeReals (.int 0) overtime.limit .null).lowerBound =
      .ok (.int 0) := rfl
  have bounded : (variableOf .nonNegativeReals (.int 0) overtime.limit .null).upperBound =
      .ok bound := tight
  exact ⟨_, by rw [Attributes.ofVariable?, lower, bounded]; rfl⟩

/-- A model that the declarations of a proper instance with overtime have made. -/
structure BuiltMixed (i : Instance) (overtime : Overtime) (m : Model) : Prop where
  proper : i.IsProper
  numbers : overtime.IsProper
  declared : m.Declared
  contents : m.contents = mixedContents m i overtime

namespace BuiltMixed

variable {i : Instance} {overtime : Overtime} {m : Model} {machine job : Value}
variable (built : BuiltMixed i overtime m)
include built

theorem regular : m.Regular :=
  built.declared.regular

theorem wellFormed : m.WellFormed :=
  built.regular.toWellFormed

theorem variableKeys : m.variableKeys = mixedColumns i := by
  rw [Model.variableKeys_contents, built.contents, mixedContents, List.flatMap_append,
    mixedVariables_keys built.proper]
  exact List.append_nil _

theorem mem_constraintKeys {key : Key} : key ∈ m.constraintKeys ↔
    (∃ job ∈ i.jobs, key = ⟨"assignment", [job]⟩) ∨
      (∃ machine ∈ i.machines, key = ⟨"capacity", [machine]⟩) ∨ key = ⟨"overtime_budget", []⟩ := by
  have bare : (mixedVariables i overtime).flatMap (fun c =>
      c.2.constraintRows.map fun row => Key.mk c.1 row) = [] := rfl
  have covering := constraintRows_of_labels (coveringRow m i false) built.proper.job fun _ _ => rfl
  have room := constraintRows_of_labels (roomRow m i) built.proper.machine fun _ _ => rfl
  have budget : (Content.ofConstraint (budgetRow m i)).constraintRows = [[]] := rfl
  have goal : (Content.ofObjective (mixedCosts m i overtime) .minimize).constraintRows = [] := rfl
  rw [Model.constraintKeys_contents, built.contents, mixedContents, List.flatMap_append, bare]
  simp only [List.flatMap_cons, List.flatMap_nil, covering, room, budget, goal, List.map_map,
    List.map_nil, List.map_cons, List.nil_append, List.append_nil, List.mem_append, List.mem_map,
    List.mem_singleton, Function.comp_apply]
  exact or_congr (exists_congr fun _ => and_congr_right fun _ => eq_comm)
    (or_congr (exists_congr fun _ => and_congr_right fun _ => eq_comm) .rfl)

theorem capacity_mem (hm : machine ∈ i.machines) : ⟨"capacity", [machine]⟩ ∈ m.constraintKeys :=
  built.mem_constraintKeys.mpr (.inr (.inl ⟨machine, hm, rfl⟩))

theorem budget_mem : ⟨"overtime_budget", []⟩ ∈ m.constraintKeys :=
  built.mem_constraintKeys.mpr (.inr (.inr rfl))

theorem overtime_mem (hm : machine ∈ i.machines) : ⟨"overtime", [machine]⟩ ∈ m.variableKeys :=
  built.variableKeys ▸ mem_mixedColumns.mpr (.inr (.inl ⟨machine, hm, rfl⟩))

theorem readCovering (hj : job ∈ i.jobs) : m.readConstraint ⟨"assignment", [job]⟩ =
    .ok (m.formBy 0.0 ((coveringKeys i false job).map fun key => (key, 1.0)),
      ⟨some 1.0, none, false⟩) :=
  readConstraint_coveringRow built.proper built.wellFormed
    (by simp [built.contents, mixedContents]) hj (built.mem_constraintKeys.mpr (.inl ⟨job, hj, rfl⟩))
    fun _ hk => built.variableKeys ▸ columns_subset (coveringKeys_subset hj hk)

/-- The load of a machine has a term for every job, and its overtime one with the other sign. -/
theorem exists_readRoom (hm : machine ∈ i.machines) : ∃ constant,
    m.readConstraint ⟨"capacity", [machine]⟩ =
      .ok (m.formBy constant (roomTerms i machine), ⟨none, some 0.0, false⟩) := by
  have wf := built.wellFormed
  have label := built.proper.machine machine hm
  have listed : ("capacity", .ofConstraints (i.machines.map fun machine =>
      ([machine], roomRow m i machine))) ∈ m.contents := by simp [built.contents, mixedContents]
  obtain ⟨given, -⟩ := built.proper.capacities machine hm
  obtain ⟨-, -, -, real⟩ := look_of_amount? given
  obtain ⟨opposite, multiple, constant⟩ := Numeric.exists_opposite ⟨_, real⟩
  have some : loadKeys i machine ≠ [] := by simpa [loadKeys] using built.proper.jobs
  have room := (Model.variable_collects (m := m) (n := (Numeric.int 1).neg) rfl
    ⟨"overtime", [machine]⟩).numberPlus (by simp) multiple
  have difference := (Model.units_collects (m := m) (n := .int 1) rfl some).minus room
    (by simpa using some)
  have formed := Model.formOf_difference built.wellFormed difference
    (built.variableKeys ▸ List.forall_mem_append.mpr ⟨fun _ hk => loadKeys_subset hm hk, by
      simpa using mem_mixedColumns.mpr (.inr (.inl ⟨machine, hm, rfl⟩))⟩)
    (List.nodup_append.mpr ⟨built.proper.jobs_nodup.map fun _ _ same => by simpa using same,
      by simp, by simp [loadKeys]⟩)
    (by split; exacts [⟨_, Numeric.real_zero⟩, constant])
  exact ⟨_, Model.readConstraint_of wf (built.capacity_mem hm)
    (constraintOf?_of_labels wf listed label hm) (Value.IsLabelled.one label).isWritable formed
    (Limits.ofConstraint?_atMost Numeric.real_zero (by decide +kernel))⟩

theorem budgetKeys_nodup : (overtimeKeys i ++ [Key.mk "shifts" []]).Nodup :=
  List.nodup_append.mpr ⟨built.proper.machines_nodup.map fun _ _ same => by simpa using same,
    by simp, by simp [overtimeKeys]⟩

/-- The overtime of every machine counts once against the shifts. -/
theorem readBudget : m.readConstraint ⟨"overtime_budget", []⟩ =
    .ok (m.formBy 0.0 (budgetTerms i), ⟨none, some 0.0, false⟩) := by
  have wf := built.wellFormed
  have listed : ("overtime_budget", .ofConstraint (budgetRow m i)) ∈ m.contents := by
    simp [built.contents, mixedContents]
  have some : overtimeKeys i ≠ [] := by simpa [overtimeKeys] using built.proper.machines
  have difference := (Model.units_collects (m := m) (n := .int 1) rfl some).minus
    (Model.variable_collects rfl ⟨"shifts", []⟩) (by simpa using some)
  have formed := Model.formOf_difference built.wellFormed difference
    (built.variableKeys ▸ List.forall_mem_append.mpr ⟨fun _ hk => overtimeKeys_subset hk, by
      simpa using shifts_mem⟩)
    built.budgetKeys_nodup ⟨_, Numeric.real_zero⟩
  exact Model.readConstraint_of wf built.budget_mem
    (Model.constraintOf?_of_ofConstraint wf listed) rfl formed
    (Limits.ofConstraint?_atMost Numeric.real_zero (by decide +kernel))

/-- The costs are over all the variables, each of which occurs once. -/
theorem exists_costs_form (context : String) :
    ∃ form, m.formOf context (mixedCosts m i overtime) = .ok form := by
  obtain ⟨y, cost⟩ := Option.isSome_iff_exists.mp built.numbers.cost
  obtain ⟨z, machineCost⟩ := Option.isSome_iff_exists.mp built.numbers.machineCost
  have pairs : costTerms i ≠ [] := by simpa [costTerms] using built.proper.pairs_ne_nil
  have machines : overtimeKeys i ≠ [] := by simpa [overtimeKeys] using built.proper.machines
  have hours := (Model.weighted_collects (m := m) pairs).plus
    (Model.units_times_collects machines overtime.cost.number) (.inl rfl)
    (by simpa [coefficients] using pairs) (by simpa using machines)
  have all := hours.plus
    (Model.units_times_collects (List.cons_ne_nil ⟨"shifts", []⟩ []) overtime.machineCost.number)
    (.inl rfl) (by simp [machines]) (by simp)
  have keys : (mixedCostTerms i overtime).map (·.1) = m.variableKeys := by
    rw [built.variableKeys, mixedColumns]
    simp [mixedCostTerms, costTerms, Function.comp_def]
  refine ⟨_, all.formOf_terms built.wellFormed (fun _ hk => keys ▸ hk)
    (keys ▸ built.wellFormed.variableKeys_distinct.nodup) ?_ context⟩
  have own : ∀ term ∈ costTerms i, ∃ y, term.2.real = .ok y :=
    numbers_real built.proper.costs_given (Key.mk "x")
  simp only [List.forall_mem_append, List.forall_mem_map]
  exact ⟨⟨coefficients_real own,
      fun _ _ => ⟨y, Numeric.real_coefficient (Value.literal?_of_double? cost).2⟩⟩,
    fun _ _ => ⟨z, Numeric.real_coefficient (Value.literal?_of_double? machineCost).2⟩⟩

/-- The bounds of the variables can be read. -/
theorem exists_attributes : ∀ key ∈ m.variableKeys, ∃ v a,
    m.variableAt (m.preimageOf key) = .ok v ∧ Attributes.ofVariable? v = .ok a := by
  have wf := built.wellFormed
  intro key hk
  rw [built.variableKeys, mem_mixedColumns] at hk
  rcases hk with ⟨machine, hm, job, hj, rfl⟩ | ⟨machine, hm, rfl⟩ | rfl
  · have listed : ("x", .ofVariables (some (pairs i)) (variableOf .binary .null .null .null)) ∈
        m.contents := by simp [built.contents, mixedContents, mixedVariables]
    exact ⟨_, _, Model.variableAt_of_contents wf listed
      (fun row hr => (built.proper.pairs_labelled row hr).isRow)
      (mem_pairs.mpr ⟨machine, hm, job, hj, rfl⟩), rfl⟩
  · have listed : ("overtime", .ofVariables (some (singles i.machines))
        (variableOf .nonNegativeReals (.int 0) overtime.limit .null)) ∈ m.contents := by
      simp [built.contents, mixedContents, mixedVariables]
    obtain ⟨a, bounds⟩ := built.numbers.exists_attributes
    exact ⟨_, a, Model.variableAt_of_contents wf listed
      (fun row hr => (built.proper.machines_labelled row hr).isRow)
      (List.mem_map_of_mem (f := fun machine => [machine]) hm), bounds⟩
  · have listed : ("shifts", .ofVariables none (variableOf .nonNegativeIntegers (.int 0)
        (.int i.machines.length) (.int 0))) ∈ m.contents := by
      simp [built.contents, mixedContents, mixedVariables]
    exact ⟨_, _, Model.variableAt_of_contents wf listed (by simp) (List.mem_singleton_self _), rfl⟩

theorem isSplit : IsSplit m i.machines := by
  have cases : ∀ key ∈ m.variableKeys ++ m.constraintKeys, Value.allSimple key.index = true ∧
      (byMachine.resolve key = .ok .master ∨
        ∃ machine ∈ i.machines, byMachine.resolve key = .ok (.subproblem machine)) := by
    intro key hk
    rw [List.mem_append, built.variableKeys, mem_mixedColumns, built.mem_constraintKeys] at hk
    rcases hk with (⟨machine, hm, job, hj, rfl⟩ | ⟨machine, hm, rfl⟩ | rfl) |
      ⟨job, hj, rfl⟩ | ⟨machine, hm, rfl⟩ | rfl
    · have labels := Value.IsLabelled.two (built.proper.machine machine hm) (built.proper.job job hj)
      exact ⟨labels.allSimple, .inr ⟨machine, hm, (resolve_machine machine [job]).1⟩⟩
    · exact ⟨(Value.IsLabelled.one (built.proper.machine machine hm)).allSimple,
        .inr ⟨machine, hm, (resolve_machine machine []).2.2⟩⟩
    · exact ⟨rfl, .inl (resolve_master []).2.2.1⟩
    · exact ⟨(Value.IsLabelled.one (built.proper.job job hj)).allSimple,
        .inl (resolve_master [job]).1⟩
    · exact ⟨(Value.IsLabelled.one (built.proper.machine machine hm)).allSimple,
        .inr ⟨machine, hm, (resolve_machine machine []).2.1⟩⟩
    · exact ⟨rfl, .inl (resolve_master []).2.2.2⟩
  exact ⟨built.proper.machine, fun key hk => (cases key hk).1, fun key hk => (cases key hk).2⟩

theorem objectiveInForce : m.objectiveInForce? =
    .ok (some (⟨m.id, "objective", 0⟩, ⟨mixedCosts m i overtime, .minimize, true⟩)) := by
  have goals : m.activeObjectives =
      [(⟨m.id, "objective", 0⟩, ⟨mixedCosts m i overtime, .minimize, true⟩)] := by
    rw [Model.activeObjectives_contents, built.contents]
    rfl
  rw [Model.objectiveInForce?, goals]

/-- A proper instance with overtime is decomposed. -/
theorem exists_decompose (first : Nat) : ∃ r, decompose first m byMachine .standard = .ok r := by
  have columns : m.variableKeys ≠ [] := by simp [built.variableKeys, mixedColumns]
  refine built.isSplit.exists_decompose built.regular columns (List.ne_nil_of_mem built.budget_mem)
    built.objectiveInForce (built.exists_costs_form "objective") built.exists_attributes ?_ ?_ first
  · intro key hk
    rcases built.mem_constraintKeys.mp hk with ⟨job, hj, rfl⟩ | ⟨machine, hm, rfl⟩ | rfl
    · exact ⟨_, built.readCovering hj, rfl⟩
    · obtain ⟨constant, read⟩ := built.exists_readRoom hm
      exact ⟨_, read, rfl⟩
    · exact ⟨_, built.readBudget, rfl⟩
  · have names : m.contents.map (·.1) =
        ["x", "overtime", "shifts", "assignment", "capacity", "overtime_budget", "objective"] := by
      rw [built.contents]
      rfl
    rw [Model.hasName_contents, Model.hasName_contents, names]
    decide

theorem roomTerms_declared (hm : machine ∈ i.machines) :
    ∀ term ∈ roomTerms i machine, term.1 ∈ m.variableKeys := by
  rw [built.variableKeys, roomTerms]
  refine List.forall_mem_append.mpr ⟨List.forall_mem_map.mpr fun _ hk => loadKeys_subset hm hk, ?_⟩
  simpa using mem_mixedColumns.mpr (.inr (.inl ⟨machine, hm, rfl⟩))

theorem budgetTerms_declared : ∀ term ∈ budgetTerms i, term.1 ∈ m.variableKeys := by
  rw [built.variableKeys, budgetTerms]
  refine List.forall_mem_append.mpr ⟨List.forall_mem_map.mpr fun _ hk => overtimeKeys_subset hk, ?_⟩
  simpa using shifts_mem

section Trace

variable {first : Nat} {r : Reformulation} (h : r.Trace first m byMachine .standard)
include h

theorem ids_eq : r.ids = Value.sortIds i.machines :=
  built.isSplit.ids_eq h built.proper.machines_nodup fun _ hm => built.capacity_mem hm

variable {s : Subproblem} (hs : s ∈ r.subproblems)
include hs

theorem id_mem : s.id ∈ i.machines :=
  GeneralizedAssignment.id_mem (built.ids_eq h) hs

/-- The constraint of a machine keeps all its terms. -/
theorem exists_room : ∃ constant,
    m.readConstraint ⟨"capacity", [s.id]⟩ =
        .ok (m.formBy constant (roomTerms i s.id), ⟨none, some 0.0, false⟩) ∧
      s.model.HasRow ⟨"capacity", [s.id]⟩ constant (roomTerms i s.id) ⟨none, some 0.0, false⟩ := by
  have hm := built.id_mem h hs
  have label := built.proper.machine _ hm
  obtain ⟨constant, read⟩ := built.exists_readRoom hm
  have kept : termsFor byMachine (.subproblem s.id) (roomTerms i s.id) = roomTerms i s.id := by
    refine List.filter_eq_self.mpr (List.forall_mem_append.mpr ⟨List.forall_mem_map.mpr
      (List.forall_mem_map.mpr fun job _ => goes_of_resolve label (resolve_machine s.id [job]).1), ?_⟩)
    simpa using goes_of_resolve label (resolve_machine s.id []).2.2
  have row := h.hasRow built.isSplit.isSimple built.wellFormed (target_mem hs) (built.capacity_mem hm)
    (goes_of_resolve label (resolve_machine s.id []).2.1) (built.roomTerms_declared hm) read
  rw [kept] at row
  exact ⟨constant, read, row⟩

/-- The overtime of a machine is coupled with the constraint about the shifts only. -/
theorem overtime_coupling : s.coupling.pairsOf (s.model.preimageOf ⟨"overtime", [s.id]⟩) =
    [(r.master.preimageOf ⟨"overtime_budget", []⟩, 1.0)] := by
  have hm := built.id_mem h hs
  refine h.pairsOf_eq built.isSplit.isSimple built.wellFormed hs (built.overtime_mem hm)
    (goes_of_resolve (built.proper.machine _ hm) (resolve_machine s.id []).2.2) built.budget_mem rfl
    built.budgetTerms_declared ?_ built.readBudget ?_ ?_
  · simpa [budgetTerms, Function.comp_def] using built.budgetKeys_nodup
  · exact List.mem_append_left _ (List.mem_map.mpr ⟨_, List.mem_map.mpr ⟨s.id, hm, rfl⟩, rfl⟩)
  · intro other ho different
    obtain ⟨hk, goes⟩ := List.mem_filter.mp ho
    rcases built.mem_constraintKeys.mp hk with ⟨job, hj, rfl⟩ | ⟨machine, -, rfl⟩ | rfl
    · refine ⟨_, _, _, built.readCovering hj, List.forall_mem_map.mpr fun key listed => ⟨?_, ?_⟩⟩
      · exact built.variableKeys ▸ columns_subset (coveringKeys_subset hj listed)
      · rintro rfl
        simp [coveringKeys] at listed
    · cases goes
    · exact absurd rfl different

end Trace

end BuiltMixed

end GeneralizedAssignment

end BlockAngular
