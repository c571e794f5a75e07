import BlockAngular.Proofs.GeneralizedAssignment.ByMachine
import BlockAngular.Proofs.GeneralizedAssignment.Reading

/-! # The split of an instance by machines -/

namespace BlockAngular

open Decomposition
open Collected (plainZero)

namespace GeneralizedAssignment

theorem pair_mem_coveringKeys {i : Instance} {penalized : Bool} {machine job job' : Value} :
    ⟨"x", [machine, job']⟩ ∈ coveringKeys i penalized job ↔ machine ∈ i.machines ∧ job' = job := by
  have penalty : (⟨"x", [machine, job']⟩ : Key) ∉
      if penalized then [⟨"penalty", [job]⟩] else [] := by
    cases penalized <;> simp
  rw [coveringKeys, List.mem_append, or_iff_left penalty]
  simp [eq_comm]

theorem pair_mem_costCoefficients {i : Instance} {extras : Extras} {pair : List Value} {k : Float} :
    (⟨"x", pair⟩, k) ∈ costCoefficients i extras ↔
      pair ∈ pairs i ∧ k = amount i.costs (.tuple pair) ∧ Binary64.isZero k = false := by
  rw [costCoefficients, List.mem_filter, List.mem_append,
    or_iff_left (by cases extras.penalties <;> simp)]
  simp only [List.mem_map, Prod.mk.injEq, Key.mk.injEq, true_and]
  constructor
  · rintro ⟨⟨_, hp, rfl, rfl⟩, nonzero⟩
    exact ⟨hp, rfl, by simpa using nonzero⟩
  · rintro ⟨hp, rfl, nonzero⟩
    exact ⟨⟨_, hp, rfl, rfl⟩, by simpa using nonzero⟩

/-- The costs of a machine that are no zeros. -/
def machineCosts (i : Instance) (machine : Value) : List (Key × Float) :=
  (i.jobs.map fun job => (⟨"x", [machine, job]⟩, amount i.costs (.tuple [machine, job]))).filter
    fun term => !Binary64.isZero term.2

/-- The costs of leaving jobs out that are no zeros. -/
def penaltyCosts (i : Instance) (extras : Extras) : List (Key × Float) :=
  (match extras.penalties with
    | some penalties => i.jobs.map fun job => (Key.mk "penalty" [job], amount penalties job)
    | none => []).filter fun term => !Binary64.isZero term.2

/-- A machine's part of what is given for all pairs. -/
theorem pairs_kept {i : Instance} (proper : i.IsProper) (k : List Value → Float) {machine : Value}
    (hm : machine ∈ i.machines) :
    termsFor byMachine (.subproblem machine) ((pairs i).map fun pair => (Key.mk "x" pair, k pair)) =
      i.jobs.map fun job => (Key.mk "x" [machine, job], k [machine, job]) := by
  have label := proper.machine machine hm
  rw [pairs, List.map_flatMap, termsFor, List.filter_flatMap,
    flatMap_eq_of_only proper.machines_nodup hm fun other ho different => ?_]
  · rw [List.map_map]
    exact List.filter_eq_self.mpr (List.forall_mem_map.mpr fun job _ =>
      goes_of_resolve label (resolve_machine machine [job]).1)
  · refine List.filter_eq_nil_iff.mpr (List.forall_mem_map.mpr (List.forall_mem_map.mpr
      fun job _ goes => different ?_))
    exact (same_machine (proper.machine other ho) label (resolve_machine other [job]).1).mp goes

/-- The costs go to the machines, and the penalties to the master. -/
theorem costCoefficients_kept {i : Instance} (proper : i.IsProper) (extras : Extras) :
    termsFor byMachine .master (costCoefficients i extras) = penaltyCosts i extras ∧
      ∀ machine ∈ i.machines, termsFor byMachine (.subproblem machine) (costCoefficients i extras) =
        machineCosts i machine := by
  have apart (block : Block) (pairs penalties : List (Key × Float)) :
      termsFor byMachine block ((pairs ++ penalties).filter fun term => !Binary64.isZero term.2) =
        (termsFor byMachine block pairs ++ termsFor byMachine block penalties).filter
          fun term => !Binary64.isZero term.2 := by
    rw [termsFor, termsFor, termsFor, List.filter_comm, List.filter_append]
  rw [costCoefficients, apart, penaltyCosts]
  refine ⟨congrArg (List.filter _) ?_, fun machine hm => ?_⟩
  · have pairs : termsFor byMachine .master ((pairs i).map fun pair =>
        (Key.mk "x" pair, amount i.costs (.tuple pair))) = [] := by
      refine List.filter_eq_nil_iff.mpr (List.forall_mem_map.mpr fun pair hp => ?_)
      obtain ⟨machine, -, job, -, rfl⟩ := mem_pairs.mp hp
      exact Bool.false_ne_true
    rw [pairs, List.nil_append]
    cases extras.penalties with
    | none => rfl
    | some penalties => exact List.filter_eq_self.mpr (List.forall_mem_map.mpr fun job _ => rfl)
  · rw [apart, pairs_kept proper (fun pair => amount i.costs (.tuple pair)) hm, machineCosts]
    refine congrArg (List.filter _) ((congrArg (_ ++ ·) ?_).trans (List.append_nil _))
    cases extras.penalties with
    | none => rfl
    | some penalties =>
        exact List.filter_eq_nil_iff.mpr (List.forall_mem_map.mpr fun job _ => Bool.false_ne_true)

/-- Only the penalty of a job goes to the master. -/
theorem coveringKeys_kept {i : Instance} {penalized : Bool} {job : Value} :
    termsFor byMachine .master ((coveringKeys i penalized job).map fun key => (key, (1.0 : Float))) =
      if penalized then [(⟨"penalty", [job]⟩, 1.0)] else [] := by
  have pairs : termsFor byMachine .master (i.machines.map fun machine =>
      ((⟨"x", [machine, job]⟩ : Key), (1.0 : Float))) = [] :=
    List.filter_eq_nil_iff.mpr (List.forall_mem_map.mpr fun machine _ => Bool.false_ne_true)
  rw [termsFor, List.filter_map] at pairs
  rw [coveringKeys, List.map_append, List.map_map, termsFor, List.filter_append, List.filter_map]
  refine (congrArg (· ++ _) pairs).trans ?_
  cases penalized <;> rfl

namespace Built

variable {i : Instance} {extras : Extras} {m : Model} {machine job : Value}
variable (built : Built i extras m)
include built

/-- Every key belongs to its machine or to the master. -/
theorem key_cases {key : Key} (hk : key ∈ m.variableKeys ++ m.constraintKeys) :
    Value.IsLabelled key.index ∧ (byMachine.resolve key = .ok .master ∨
      ∃ machine ∈ i.machines, byMachine.resolve key = .ok (.subproblem machine)) := by
  simp only [List.mem_append, built.mem_variableKeys, built.mem_constraintKeys] at hk
  rcases hk with (⟨machine, hm, job, hj, rfl⟩ | ⟨-, job, hj, rfl⟩) |
    ⟨job, hj, rfl⟩ | ⟨machine, hm, rfl⟩
  · exact ⟨.two (built.proper.machine machine hm) (built.proper.job job hj),
      .inr ⟨machine, hm, (resolve_machine machine [job]).1⟩⟩
  · exact ⟨.one (built.proper.job job hj), .inl (resolve_master [job]).2.1⟩
  · exact ⟨.one (built.proper.job job hj), .inl (resolve_master [job]).1⟩
  · exact ⟨.one (built.proper.machine machine hm),
      .inr ⟨machine, hm, (resolve_machine machine []).2.1⟩⟩

theorem isSplit : IsSplit m i.machines where
  labels := built.proper.machine
  simple _ hk := (built.key_cases hk).1.allSimple
  resolved _ hk := (built.key_cases hk).2

/-- The bounds of the variables can be read. -/
theorem exists_attributes : ∀ key ∈ m.variableKeys, ∃ v a,
    m.variableAt (m.preimageOf key) = .ok v ∧ Attributes.ofVariable? v = .ok a := by
  have wf := built.wellFormed
  intro key hk
  obtain ⟨machine, hm, job, hj, rfl⟩ | ⟨given, job, hj, rfl⟩ := built.mem_variableKeys.mp hk
  · have listed : ("x", .ofVariables (some (pairs i)) (variableOf .binary .null .null .null)) ∈
        m.contents := by simp [built.contents, GeneralizedAssignment.contents, variableContents]
    exact ⟨_, _, Model.variableAt_of_contents wf listed
      (fun row hr => (built.proper.pairs_labelled row hr).isRow)
      (mem_pairs.mpr ⟨machine, hm, job, hj, rfl⟩), rfl⟩
  · have listed : ("penalty", .ofVariables (some (singles i.jobs))
        (variableOf .nonNegativeReals .null .null .null)) ∈ m.contents := by
      simp [built.contents, GeneralizedAssignment.contents, variableContents, given]
    exact ⟨_, _, Model.variableAt_of_contents wf listed
      (fun row hr => (built.proper.jobs_labelled row hr).isRow)
      (List.mem_map_of_mem (f := fun job => [job]) hj), rfl⟩

/-- A proper instance is decomposed. -/
theorem exists_decompose (first : Nat) : ∃ r, decompose first m byMachine .standard = .ok r := by
  obtain ⟨machine, hm⟩ := List.exists_mem_of_ne_nil _ built.proper.machines
  obtain ⟨job, hj⟩ := List.exists_mem_of_ne_nil _ built.proper.jobs
  refine built.isSplit.exists_decompose built.regular
    (List.ne_nil_of_mem (built.pair_mem hm hj)) (List.ne_nil_of_mem (built.assignment_mem hj))
    built.objectiveInForce ⟨_, built.costs_form "objective"⟩ built.exists_attributes ?_ ?_ first
  · intro key hk
    obtain ⟨job, hj, rfl⟩ | ⟨machine, hm, rfl⟩ := built.mem_constraintKeys.mp hk
    · exact ⟨_, built.readCovering hj, rfl⟩
    · exact ⟨_, built.readLoad hm, rfl⟩
  · have names : m.contents.map (·.1) =
        (if extras.penalties.isSome then ["x", "penalty"] else ["x"]) ++
          ["assignment", "capacity", "objective"] := by
      rw [built.contents, GeneralizedAssignment.contents, List.map_append, variableContents_names]
      rfl
    rw [Model.hasName_contents, Model.hasName_contents, names]
    split <;> decide

theorem covering_declared (hj : job ∈ i.jobs) :
    ∀ term ∈ (coveringKeys i extras.penalties.isSome job).map fun key => (key, (1.0 : Float)),
      term.1 ∈ m.variableKeys :=
  List.forall_mem_map.mpr fun _ hk => built.variableKeys ▸ coveringKeys_subset hj hk

/-- The terms of the objective are over the variables of the model. -/
theorem costCoefficients_declared : ∀ term ∈ costCoefficients i extras, term.1 ∈ m.variableKeys := by
  intro term ht
  rw [built.mem_variableKeys]
  rcases List.mem_append.mp (List.mem_of_mem_filter ht) with pair | penalty
  · obtain ⟨pair, hp, rfl⟩ := List.mem_map.mp pair
    obtain ⟨machine, hm, job, hj, rfl⟩ := mem_pairs.mp hp
    exact .inl ⟨machine, hm, job, hj, rfl⟩
  · cases given : extras.penalties with
    | none => simp [given] at penalty
    | some penalties =>
        rw [given] at penalty
        obtain ⟨job, hj, rfl⟩ := List.mem_map.mp penalty
        exact .inr ⟨rfl, job, hj, rfl⟩

section Trace

variable {first : Nat} {r : Reformulation} (h : r.Trace first m byMachine .standard)
include h

theorem ids_eq : r.ids = Value.sortIds i.machines :=
  built.isSplit.ids_eq h built.proper.machines_nodup fun _ hm => built.capacity_mem hm

variable {s : Subproblem} (hs : s ∈ r.subproblems)
include hs

theorem id_mem : s.id ∈ i.machines :=
  GeneralizedAssignment.id_mem (built.ids_eq h) hs

theorem pair_goes (job : Value) :
    (byMachine.blockOf ⟨"x", [s.id, job]⟩).same (.subproblem s.id) = true :=
  goes_of_resolve (built.proper.machine _ (built.id_mem h hs)) (resolve_machine s.id [job]).1

theorem capacity_goes : (byMachine.blockOf ⟨"capacity", [s.id]⟩).same (.subproblem s.id) = true :=
  goes_of_resolve (built.proper.machine _ (built.id_mem h hs)) (resolve_machine s.id []).2.1

/-- A subproblem has the variables of its machine. -/
theorem subproblem_columns :
    s.model.variableKeys.Perm (i.jobs.map fun job => ⟨"x", [s.id, job]⟩) := by
  have wf := built.wellFormed
  have hm := built.id_mem h hs
  have label := built.proper.machine _ hm
  refine (h.variableKeys_perm built.isSplit.isSimple wf (target_mem hs)).trans
    (keysFor_perm (wf.variableKeys_distinct).nodup
      (built.proper.jobs_nodup.map fun _ _ same => by simpa using same) fun key => ?_)
  constructor
  · intro hk
    obtain ⟨job, hj, rfl⟩ := List.mem_map.mp hk
    exact ⟨built.pair_mem hm hj, built.pair_goes h hs job⟩
  · rintro ⟨hk, goes⟩
    obtain ⟨machine, hm', job, hj, rfl⟩ | ⟨-, job, -, rfl⟩ := built.mem_variableKeys.mp hk
    · obtain rfl := (same_machine (built.proper.machine machine hm') label
        (resolve_machine machine [job]).1).mp goes
      exact List.mem_map_of_mem (f := fun job => Key.mk "x" [s.id, job]) hj
    · cases goes

/-- A subproblem has the constraint of its machine. -/
theorem subproblem_rows : s.model.allConstraints.map (·.1) = [⟨"capacity", [s.id]⟩] := by
  have wf := built.wellFormed
  have hm := built.id_mem h hs
  have label := built.proper.machine _ hm
  have all : ordinaryRows .standard (.subproblem s.id) s.model = s.model.allConstraints :=
    List.filter_eq_self.mpr fun _ _ => rfl
  rw [← all]
  refine List.perm_singleton.mp ((h.ordinaryKeys_perm built.isSplit.isSimple wf (target_mem hs)).trans
    (keysFor_perm (wf.constraintKeys_distinct).nodup (List.nodup_singleton _) fun key => ?_))
  constructor
  · intro hk
    obtain rfl := List.mem_singleton.mp hk
    exact ⟨built.capacity_mem hm, built.capacity_goes h hs⟩
  · rintro ⟨hk, goes⟩
    obtain ⟨job, -, rfl⟩ | ⟨machine, hm', rfl⟩ := built.mem_constraintKeys.mp hk
    · cases goes
    · obtain rfl := (same_machine (built.proper.machine machine hm') label
        (resolve_machine machine []).2.1).mp goes
      exact List.mem_singleton_self _

/-- The constraint of a machine keeps all its terms and its limit. -/
theorem subproblem_load : s.model.HasRow ⟨"capacity", [s.id]⟩ 0.0 (loads i extras s.id)
    ⟨none, some (amount i.capacities s.id), false⟩ := by
  have hm := built.id_mem h hs
  have kept : termsFor byMachine (.subproblem s.id) (loads i extras s.id) = loads i extras s.id := by
    refine List.filter_eq_self.mpr fun term ht => ?_
    obtain ⟨job, -, rfl⟩ := List.mem_map.mp (List.mem_of_mem_filter ht)
    exact built.pair_goes h hs job
  have row := h.hasRow built.isSplit.isSimple built.wellFormed (target_mem hs) (built.capacity_mem hm)
    (built.capacity_goes h hs) (fun term ht => ?_) (built.readLoad hm)
  · rwa [kept] at row
  · obtain ⟨job, hj, rfl⟩ := List.mem_map.mp (List.mem_of_mem_filter ht)
    exact built.pair_mem hm hj

/-- A variable of a machine is coupled with the constraint of its job only. -/
theorem pair_coupling (hj : job ∈ i.jobs) :
    s.coupling.pairsOf (s.model.preimageOf ⟨"x", [s.id, job]⟩) =
      [(r.master.preimageOf ⟨"assignment", [job]⟩, 1.0)] := by
  have hm := built.id_mem h hs
  refine h.pairsOf_eq built.isSplit.isSimple built.wellFormed hs (built.pair_mem hm hj)
    (built.pair_goes h hs job) (built.assignment_mem hj) rfl (covering_declared built hj) ?_
    (built.readCovering hj) (k := 1.0) ?_ ?_
  · simpa [Function.comp_def] using coveringKeys_nodup built.proper _ job
  · exact List.mem_map.mpr ⟨_, List.mem_append_left _ (List.mem_map.mpr ⟨s.id, hm, rfl⟩), rfl⟩
  · intro other ho different
    obtain ⟨hk, goes⟩ := List.mem_filter.mp ho
    obtain ⟨job', hj', rfl⟩ | ⟨machine, -, rfl⟩ := built.mem_constraintKeys.mp hk
    · refine ⟨_, _, _, built.readCovering hj', fun term ht =>
        ⟨covering_declared built hj' term ht, ?_⟩⟩
      obtain ⟨key, listed, rfl⟩ := List.mem_map.mp ht
      rintro rfl
      obtain ⟨-, rfl⟩ := pair_mem_coveringKeys.mp listed
      exact different rfl
    · cases goes

/-- The cost of a variable of a machine is its entry in the table. -/
theorem pair_cost (hj : job ∈ i.jobs) :
    s.costs.costOf 0.0 (s.model.preimageOf ⟨"x", [s.id, job]⟩) =
      plainZero (amount i.costs (.tuple [s.id, job])) := by
  have hm := built.id_mem h hs
  have cost := h.costOf_eq built.isSplit.isSimple built.wellFormed hs (built.pair_mem hm hj)
    (built.pair_goes h hs job) built.readObjective rfl built.costCoefficients_declared
  have only : ∀ k, (⟨"x", [s.id, job]⟩, k) ∈ costCoefficients i extras ↔
      k = amount i.costs (.tuple [s.id, job]) ∧ Binary64.isZero k = false := fun k => by
    rw [pair_mem_costCoefficients]
    simp [mem_pairs, hm, hj]
  rw [Collected.plainZero_eq]
  split
  · rename_i zero
    refine cost.2 fun there => ?_
    obtain ⟨⟨_, k⟩, listed, rfl⟩ := List.mem_map.mp there
    obtain ⟨rfl, other⟩ := (only k).mp listed
    simp [zero] at other
  · rename_i nonzero
    exact cost.1 _ ((only _).mpr ⟨rfl, by simpa using nonzero⟩)

/-- A subproblem has the costs of its machine, and no constant. -/
theorem subproblem_objective : ∃ handle : Handle, handle.component = "objective" ∧
    s.model.allObjectives = [(handle,
      ⟨(s.model.formBy 0.0 (machineCosts i s.id)).toExpression, extras.sense, true⟩)] := by
  rw [← (costCoefficients_kept built.proper extras).2 _ (built.id_mem h hs)]
  exact h.allObjectives_eq built.isSplit.isSimple built.wellFormed (target_mem hs)
    built.readObjective rfl rfl built.costCoefficients_declared

end Trace

section Master

variable {first : Nat} {r : Reformulation} (h : r.Trace first m byMachine .standard)
include h

/-- The master has the penalties, if there are any. -/
theorem master_columns : r.master.variableKeys.Perm
    (if extras.penalties.isSome then i.jobs.map fun job => ⟨"penalty", [job]⟩ else []) := by
  have wf := built.wellFormed
  refine (h.variableKeys_perm built.isSplit.isSimple wf (List.mem_cons_self ..)).trans
    (keysFor_perm (wf.variableKeys_distinct).nodup ?_ fun key => ?_)
  · split
    · exact built.proper.jobs_nodup.map fun _ _ same => by simpa using same
    · exact List.nodup_nil
  · rw [built.mem_variableKeys]
    constructor
    · intro hk
      split at hk
      · rename_i given
        obtain ⟨job, hj, rfl⟩ := List.mem_map.mp hk
        exact ⟨.inr ⟨given, job, hj, rfl⟩, rfl⟩
      · cases hk
    · rintro ⟨⟨machine, -, job, -, rfl⟩ | ⟨given, job, hj, rfl⟩, goes⟩
      · cases goes
      · rw [if_pos given]
        exact List.mem_map_of_mem (f := fun job => Key.mk "penalty" [job]) hj

/-- The master has the constraints of the jobs. -/
theorem master_rows : ((ordinaryRows .standard .master r.master).map (·.1)).Perm
    (i.jobs.map fun job => ⟨"assignment", [job]⟩) := by
  have wf := built.wellFormed
  refine (h.ordinaryKeys_perm built.isSplit.isSimple wf (List.mem_cons_self ..)).trans
    (keysFor_perm (wf.constraintKeys_distinct).nodup
      (built.proper.jobs_nodup.map fun _ _ same => by simpa using same) fun key => ?_)
  rw [built.mem_constraintKeys]
  constructor
  · intro hk
    obtain ⟨job, hj, rfl⟩ := List.mem_map.mp hk
    exact ⟨.inl ⟨job, hj, rfl⟩, rfl⟩
  · rintro ⟨⟨job, hj, rfl⟩ | ⟨machine, -, rfl⟩, goes⟩
    · exact List.mem_map_of_mem (f := fun job => Key.mk "assignment" [job]) hj
    · cases goes

/-- The constraint of a job keeps the penalty, and has to come up to one. -/
theorem master_covering (hj : job ∈ i.jobs) : r.master.HasRow ⟨"assignment", [job]⟩ 0.0
    (if extras.penalties.isSome then [(⟨"penalty", [job]⟩, 1.0)] else []) ⟨some 1.0, none, false⟩ := by
  have row := h.hasRow built.isSplit.isSimple built.wellFormed (List.mem_cons_self ..)
    (built.assignment_mem hj) rfl (covering_declared built hj) (built.readCovering hj)
  rw [coveringKeys_kept] at row
  exact row

/-- The master has the costs of leaving jobs out, and the constant. -/
theorem master_objective : ∃ handle : Handle, handle.component = "objective" ∧
    r.master.allObjectives = [(handle,
      ⟨(r.master.formBy (plainZero ((extras.constant.double?).getD 0.0))
        (penaltyCosts i extras)).toExpression, extras.sense, true⟩)] := by
  rw [← (costCoefficients_kept built.proper extras).1]
  exact h.allObjectives_eq built.isSplit.isSimple built.wellFormed (List.mem_cons_self ..)
    built.readObjective rfl rfl built.costCoefficients_declared

end Master

end Built

end GeneralizedAssignment

end BlockAngular
