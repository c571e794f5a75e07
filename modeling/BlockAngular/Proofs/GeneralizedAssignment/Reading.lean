import BlockAngular.Proofs.GeneralizedAssignment.Declared

/-! # Reading the model of an instance

The keys of the model of a proper instance, the forms of its constraints and of its objective, and
the limits, read by key. Where there are no weights all are one, and zeros are no terms.
-/

namespace BlockAngular

open Decomposition
open Collected (realTerms plainZero)

namespace GeneralizedAssignment

/-- The costs and the penalties of an instance. -/
def goalTerms (i : Instance) (extras : Extras) : List (Key × Numeric) :=
  costTerms i ++ match extras.penalties with
    | some penalties => penaltyTerms i penalties
    | none => []

/-- The coefficients of the load of a machine. -/
def loads (i : Instance) (extras : Extras) (machine : Value) : List (Key × Float) :=
  (i.jobs.map fun job => (⟨"x", [machine, job]⟩, weight extras machine job)).filter
    fun term => !Binary64.isZero term.2

/-- The coefficients of the objective. -/
def costCoefficients (i : Instance) (extras : Extras) : List (Key × Float) :=
  ((pairs i).map (fun pair => (⟨"x", pair⟩, amount i.costs (.tuple pair))) ++
    match extras.penalties with
    | some penalties => i.jobs.map fun job => (⟨"penalty", [job]⟩, amount penalties job)
    | none => []).filter fun term => !Binary64.isZero term.2

theorem coveringKeys_nodup {i : Instance} (proper : i.IsProper) (penalized : Bool) (job : Value) :
    (coveringKeys i penalized job).Nodup := by
  have machines : (i.machines.map fun machine => Key.mk "x" [machine, job]).Nodup :=
    proper.machines_nodup.map fun _ _ same => (List.cons.inj (Key.mk.inj same).2).1
  refine List.nodup_append.mpr ⟨machines, by split <;> simp, ?_⟩
  rintro key hk other ho rfl
  obtain ⟨machine, -, rfl⟩ := List.mem_map.mp hk
  split at ho <;> simp at ho

theorem constraintRows_of_labels {items : List Value} (c : Value → Constraint)
    (labels : ∀ item ∈ items, item.IsLabel) (active : ∀ item ∈ items, (c item).active = true) :
    (Content.ofConstraints (items.map fun item => ([item], c item))).constraintRows =
      items.map fun item => [item] := by
  rw [Content.constraintRows_ofConstraints (List.forall_mem_map.mpr fun item hi =>
    (Value.IsLabelled.one (labels item hi)).isRow) (List.forall_mem_map.mpr active)]
  simp [Function.comp_def]

/-- The constraint of a label. -/
theorem constraintOf?_of_labels {m : Model} (wf : m.WellFormed) {name : String} {items : List Value}
    {c : Value → Constraint}
    (there : (name, .ofConstraints (items.map fun item => ([item], c item))) ∈ m.contents) {item : Value} (label : item.IsLabel) (hi : item ∈ items) :
    m.constraintOf? (m.preimageOf ⟨name, [item]⟩) = some (c item) :=
  Model.constraintOf?_of_contents wf there (Value.IsLabelled.one label).isRow
    (List.mem_map_of_mem (f := fun item => ([item], c item)) hi)

/-- A constraint over the variables of a job, of which there has to be one. -/
theorem readConstraint_coveringRow {i : Instance} {m : Model} {job : Value} (proper : i.IsProper)
    (wf : m.WellFormed) {penalized : Bool}
    (there : ("assignment", .ofConstraints (i.jobs.map fun job =>
      ([job], coveringRow m i penalized job))) ∈ m.contents) (hj : job ∈ i.jobs)
    (hk : ⟨"assignment", [job]⟩ ∈ m.constraintKeys)
    (declared : ∀ key ∈ coveringKeys i penalized job, key ∈ m.variableKeys) :
    m.readConstraint ⟨"assignment", [job]⟩ = .ok (m.formBy 0.0
      ((coveringKeys i penalized job).map fun key => (key, 1.0)), ⟨some 1.0, none, false⟩) := by
  have label := proper.job job hj
  refine Model.readConstraint_of wf hk (constraintOf?_of_labels wf there label hj)
    (Value.IsLabelled.one label).isWritable (fun context => ?_)
    (Limits.ofConstraint?_atLeast Numeric.real_one (by decide +kernel))
  rw [← realTerms_units]
  exact Model.formOf_weighted wf (by simpa [units] using coveringKeys_ne_nil proper _ job)
    (by rwa [units_keys]) (by rw [units_keys]; exact coveringKeys_nodup proper _ job) (units_real _)
    context

/-- A model that the declarations of a proper instance have made. -/
structure Built (i : Instance) (extras : Extras) (m : Model) : Prop where
  proper : i.IsProper
  fit : extras.Fit i
  declared : m.Declared
  contents : m.contents = contents m i extras

namespace Built

variable {i : Instance} {extras : Extras} {m : Model} {machine job : Value}
variable (built : Built i extras m)
include built

theorem regular : m.Regular :=
  built.declared.regular

theorem wellFormed : m.WellFormed :=
  built.regular.toWellFormed

theorem variableKeys : m.variableKeys = columns i extras.penalties.isSome := by
  rw [Model.variableKeys_contents, built.contents, GeneralizedAssignment.contents,
    List.flatMap_append, variableContents_keys built.proper]
  exact List.append_nil _

theorem constraintKeys : m.constraintKeys =
    i.jobs.map (fun job => ⟨"assignment", [job]⟩) ++
      i.machines.map fun machine => ⟨"capacity", [machine]⟩ := by
  have bare : (variableContents i extras.penalties.isSome).flatMap (fun c =>
      c.2.constraintRows.map fun row => Key.mk c.1 row) = [] := by
    cases extras.penalties.isSome <;> rfl
  have covering := constraintRows_of_labels (coveringRow m i extras.penalties.isSome)
    built.proper.job fun _ _ => rfl
  have load := constraintRows_of_labels (loadRow m i (weightsOf i extras.weights))
    built.proper.machine fun _ _ => rfl
  have goal : (Content.ofObjective (costs m i extras) extras.sense).constraintRows = [] := rfl
  rw [Model.constraintKeys_contents, built.contents, GeneralizedAssignment.contents,
    List.flatMap_append, bare]
  simp [covering, load, goal, Function.comp_def]

theorem mem_variableKeys {key : Key} : key ∈ m.variableKeys ↔
    (∃ machine ∈ i.machines, ∃ job ∈ i.jobs, key = ⟨"x", [machine, job]⟩) ∨
      extras.penalties.isSome = true ∧ ∃ job ∈ i.jobs, key = ⟨"penalty", [job]⟩ := by
  rw [built.variableKeys, columns, List.mem_append]
  refine or_congr ?_ ?_
  · simp only [List.mem_map, mem_pairs]
    constructor
    · rintro ⟨_, ⟨machine, hm, job, hj, rfl⟩, rfl⟩
      exact ⟨machine, hm, job, hj, rfl⟩
    · rintro ⟨machine, hm, job, hj, rfl⟩
      exact ⟨_, ⟨machine, hm, job, hj, rfl⟩, rfl⟩
  · cases extras.penalties.isSome with
    | false => simp
    | true =>
        simp only [if_true, List.mem_map, true_and]
        exact exists_congr fun job => and_congr_right fun _ => eq_comm

theorem mem_constraintKeys {key : Key} : key ∈ m.constraintKeys ↔
    (∃ job ∈ i.jobs, key = ⟨"assignment", [job]⟩) ∨
      ∃ machine ∈ i.machines, key = ⟨"capacity", [machine]⟩ := by
  rw [built.constraintKeys, List.mem_append, List.mem_map, List.mem_map]
  exact or_congr (exists_congr fun _ => and_congr_right fun _ => eq_comm)
    (exists_congr fun _ => and_congr_right fun _ => eq_comm)

theorem pair_mem (hm : machine ∈ i.machines) (hj : job ∈ i.jobs) :
    ⟨"x", [machine, job]⟩ ∈ m.variableKeys :=
  built.mem_variableKeys.mpr (.inl ⟨machine, hm, job, hj, rfl⟩)

theorem assignment_mem (hj : job ∈ i.jobs) : ⟨"assignment", [job]⟩ ∈ m.constraintKeys :=
  built.mem_constraintKeys.mpr (.inl ⟨job, hj, rfl⟩)

theorem capacity_mem (hm : machine ∈ i.machines) : ⟨"capacity", [machine]⟩ ∈ m.constraintKeys :=
  built.mem_constraintKeys.mpr (.inr ⟨machine, hm, rfl⟩)

/-- A job is covered by its variables, of which there has to be one. -/
theorem readCovering (hj : job ∈ i.jobs) : m.readConstraint ⟨"assignment", [job]⟩ =
    .ok (m.formBy 0.0 ((coveringKeys i extras.penalties.isSome job).map fun key => (key, 1.0)),
      ⟨some 1.0, none, false⟩) :=
  readConstraint_coveringRow built.proper built.wellFormed
    (by simp [built.contents, GeneralizedAssignment.contents]) hj (built.assignment_mem hj)
    fun _ hk => built.variableKeys ▸ coveringKeys_subset hj hk

/-- The load of a machine has a term for every weight that is no zero. -/
theorem readLoad (hm : machine ∈ i.machines) : m.readConstraint ⟨"capacity", [machine]⟩ =
    .ok (m.formBy 0.0 (loads i extras machine),
      ⟨none, some (amount i.capacities machine), false⟩) := by
  have wf := built.wellFormed
  have label := built.proper.machine machine hm
  have listed : ("capacity", .ofConstraints (i.machines.map fun machine =>
      ([machine], loadRow m i (weightsOf i extras.weights) machine))) ∈ m.contents := by
    simp [built.contents, GeneralizedAssignment.contents]
  obtain ⟨given, finite⟩ := built.proper.capacities machine hm
  obtain ⟨-, -, -, real⟩ := look_of_amount? given
  have weights : ∀ job ∈ i.jobs, amount? (weightsOf i extras.weights) (.tuple [machine, job]) =
      some (weight extras machine job) := fun job hj => built.proper.weights built.fit hm hj
  have there' : ∀ job ∈ i.jobs,
      (amount? (weightsOf i extras.weights) (.tuple [machine, job])).isSome = true := fun job hj => by
    simp [weights job hj]
  have terms : realTerms (loadTerms i (weightsOf i extras.weights) machine) =
      loads i extras machine := by
    rw [loadTerms, realTerms_numbers there', loads]
    refine congrArg (List.filter _) (List.map_congr_left fun job hj => ?_)
    simp [amount, weights job hj]
  refine Model.readConstraint_of wf (built.capacity_mem hm)
    (constraintOf?_of_labels wf listed label hm) (Value.IsLabelled.one label).isWritable
    (fun context => ?_) (Limits.ofConstraint?_atMost real finite)
  rw [← terms]
  refine Model.formOf_weighted wf (by simpa [loadTerms] using built.proper.jobs) ?_ ?_
    (numbers_real there' _) context
  · rw [built.variableKeys]
    exact loadTerms_subset hm _
  · simp only [List.map_map]
    exact built.proper.jobs_nodup.map fun _ _ same => by simpa using same

theorem objectiveInForce : m.objectiveInForce? =
    .ok (some (⟨m.id, "objective", 0⟩, ⟨costs m i extras, extras.sense, true⟩)) := by
  have bare : (variableContents i extras.penalties.isSome).flatMap (fun c => c.2.goals m.id c.1) =
      [] := by
    cases extras.penalties.isSome <;> rfl
  have goals : m.activeObjectives =
      [(⟨m.id, "objective", 0⟩, ⟨costs m i extras, extras.sense, true⟩)] := by
    rw [Model.activeObjectives_contents, built.contents, GeneralizedAssignment.contents,
      List.flatMap_append, bare]
    rfl
  rw [Model.objectiveInForce?, goals]

theorem goalTerms_ne_nil : goalTerms i extras ≠ [] := by
  simp [goalTerms, costTerms, built.proper.pairs_ne_nil]

theorem goalTerms_declared : ∀ key ∈ (goalTerms i extras).map (·.1), key ∈ m.variableKeys := by
  rw [built.variableKeys, goalTerms, List.map_append]
  refine List.forall_mem_append.mpr ⟨costTerms_subset, ?_⟩
  cases extras.penalties with
  | none => simp
  | some penalties => exact penaltyTerms_subset rfl penalties

theorem goalTerms_nodup : ((goalTerms i extras).map (·.1)).Nodup := by
  have costs : ((costTerms i).map (·.1)).Nodup := by
    simp only [costTerms, List.map_map]
    exact built.proper.pairs_nodup.map fun _ _ same => by simpa using same
  rw [goalTerms, List.map_append]
  cases extras.penalties with
  | none => simpa using costs
  | some penalties =>
      have jobs : ((penaltyTerms i penalties).map (·.1)).Nodup := by
        simp only [penaltyTerms, List.map_map]
        exact built.proper.jobs_nodup.map fun _ _ same => by simpa using same
      refine List.nodup_append.mpr ⟨costs, jobs, ?_⟩
      rintro key hk other ho rfl
      obtain ⟨_, listed, rfl⟩ := List.mem_map.mp hk
      obtain ⟨pair, -, rfl⟩ := List.mem_map.mp listed
      simp [penaltyTerms] at ho

theorem goalTerms_real : (∀ term ∈ goalTerms i extras, ∃ y, term.2.real = .ok y) ∧
    realTerms (goalTerms i extras) = costCoefficients i extras := by
  have there := built.proper.costs_given
  have costs := realTerms_numbers there (Key.mk "x")
  rw [goalTerms, costCoefficients, List.filter_append, ← costs]
  cases given : extras.penalties with
  | none =>
      refine ⟨?_, by simp [costTerms]⟩
      rw [List.append_nil]
      exact numbers_real there (Key.mk "x")
  | some penalties =>
      have penalized : ∀ job ∈ i.jobs, (amount? penalties job).isSome = true :=
        built.fit.penalties penalties given
      have penalties := realTerms_numbers penalized fun job => ⟨"penalty", [job]⟩
      refine ⟨List.forall_mem_append.mpr ⟨numbers_real there (Key.mk "x"),
        numbers_real penalized _⟩, ?_⟩
      rw [← penalties]
      simp [realTerms, costTerms, penaltyTerms]

/-- The costs and the penalties are added up before the constant. -/
theorem exists_costs_eq : ∃ e, costs m i extras = e.plus (.number extras.constant.number) ∧
    m.Collects (.int 1) none (coefficients (goalTerms i extras)) e := by
  have some : costTerms i ≠ [] := by simpa [costTerms] using built.proper.pairs_ne_nil
  have own := Model.weighted_collects (m := m) some
  cases given : extras.penalties with
  | none =>
      exact ⟨m.weighted (costTerms i), by simp [costs, given],
        by simpa [goalTerms, given] using own⟩
  | some penalties =>
      have others : penaltyTerms i penalties ≠ [] := by
        simpa [penaltyTerms] using built.proper.jobs
      have both := own.plus (Model.weighted_collects (m := m) others) (.inl rfl)
        (by simpa [coefficients] using some) (by simpa [coefficients] using others)
      refine ⟨(m.weighted (costTerms i)).plus (m.weighted (penaltyTerms i penalties)),
        by simp [costs, given], ?_⟩
      simpa [goalTerms, given, coefficients] using both

theorem costs_form (context : String) : m.formOf context (costs m i extras) = .ok (m.formBy
    (plainZero ((extras.constant.double?).getD 0.0)) (costCoefficients i extras)) := by
  obtain ⟨y, constant⟩ := Option.isSome_iff_exists.mp built.fit.constant
  obtain ⟨e, costs_eq, collects⟩ := built.exists_costs_eq
  obtain ⟨real, terms⟩ := built.goalTerms_real
  rw [costs_eq, constant, Option.getD_some, ← terms, ← realTerms_coefficients real]
  exact collects.formOf_plusNumber built.wellFormed
    (by simpa [coefficients] using built.goalTerms_ne_nil)
    (by rw [coefficients_keys]; exact built.goalTerms_declared)
    (by rw [coefficients_keys]; exact built.goalTerms_nodup) (coefficients_real real)
    (Value.literal?_of_double? constant).2 context

/-- The objective is the sum of the costs, the penalties and the constant. -/
theorem readObjective : m.readObjective = some ⟨"objective", extras.sense, m.formBy
    (plainZero ((extras.constant.double?).getD 0.0)) (costCoefficients i extras)⟩ := by
  rw [Model.readObjective, built.objectiveInForce]
  simp [built.costs_form, Except.toOption]

end Built

end GeneralizedAssignment

end BlockAngular
