import BlockAngular.Proofs.GeneralizedAssignment.OvertimeSplit
import BlockAngular.Proofs.Verdict

/-! # One subproblem for every machine

Instances of any size fall into one subproblem for every machine. It has the variables and the
constraint of its machine with all the terms. The master has the constraints of the jobs with the
penalties, if there are any, and the constant of the objective.
-/

namespace BlockAngular

open Decomposition
open Collected (plainZero)

namespace GeneralizedAssignment

/-- The master of an instance has the penalties, the constraints of the jobs, of which only the
penalties stay, and the constant of the objective. -/
structure IsMaster (i : Instance) (extras : Extras) (master : Model) : Prop where
  columns : master.variableKeys.Perm
    (if extras.penalties.isSome then i.jobs.map fun job => ⟨"penalty", [job]⟩ else [])
  rows : ((ordinaryRows .standard .master master).map (·.1)).Perm
    (i.jobs.map fun job => ⟨"assignment", [job]⟩)
  covering : ∀ job ∈ i.jobs, master.HasRow ⟨"assignment", [job]⟩ 0.0
    (if extras.penalties.isSome then [(⟨"penalty", [job]⟩, 1.0)] else []) ⟨some 1.0, none, false⟩
  objective : ∃ handle : Handle, handle.component = "objective" ∧ master.allObjectives = [(handle,
    ⟨(master.formBy (plainZero ((extras.constant.double?).getD 0.0))
      (penaltyCosts i extras)).toExpression, extras.sense, true⟩)]

/-- A constraint of a model that a subproblem has with all its terms. -/
def KeepsRow (m target : Model) (key : Key) (constant : Float) (terms : List (Key × Float))
    (limits : Limits Float) : Prop :=
  m.readConstraint key = .ok (m.formBy constant terms, limits) ∧
    target.HasRow key constant terms limits

/-- The subproblem of a machine has its variables and its constraint with all the terms. Each
variable is coupled with the constraint of its job and has its cost, and there is no constant. -/
structure IsMachine (i : Instance) (extras : Extras) (m master : Model) (s : Subproblem) :
    Prop where
  columns : s.model.variableKeys.Perm (i.jobs.map fun job => ⟨"x", [s.id, job]⟩)
  rows : s.model.allConstraints.map (·.1) = [⟨"capacity", [s.id]⟩]
  load : KeepsRow m s.model ⟨"capacity", [s.id]⟩ 0.0 (loads i extras s.id)
    ⟨none, some (amount i.capacities s.id), false⟩
  coupling : ∀ job ∈ i.jobs, s.coupling.pairsOf (s.model.preimageOf ⟨"x", [s.id, job]⟩) =
    [(master.preimageOf ⟨"assignment", [job]⟩, 1.0)]
  cost : ∀ job ∈ i.jobs, s.costs.costOf 0.0 (s.model.preimageOf ⟨"x", [s.id, job]⟩) =
    plainZero (amount i.costs (.tuple [s.id, job]))
  objective : ∃ handle : Handle, handle.component = "objective" ∧ s.model.allObjectives = [(handle,
    ⟨(s.model.formBy 0.0 (machineCosts i s.id)).toExpression, extras.sense, true⟩)]

/-- With overtime too the constraint of a machine has all the terms that it had in the model, and
its overtime is coupled with the constraint about the shifts only. -/
structure IsMixedMachine (i : Instance) (m master : Model) (s : Subproblem) : Prop where
  load : ∃ constant, KeepsRow m s.model ⟨"capacity", [s.id]⟩ constant (roomTerms i s.id)
    ⟨none, some 0.0, false⟩
  coupling : s.coupling.pairsOf (s.model.preimageOf ⟨"overtime", [s.id]⟩) =
    [(master.preimageOf ⟨"overtime_budget", []⟩, 1.0)]

/-- Every proper instance is decomposed, with or without overtime, and falls into the master and
one subproblem for each of its machines, in their sorted order. -/
theorem splits_by_machine {i : Instance} (proper : i.IsProper) (id first : Nat) :
    (∀ extras : Extras, extras.Fit i → ∃ m r, model id i extras = .ok m ∧
      decompose first m byMachine .standard = .ok r ∧ r.ids = Value.sortIds i.machines ∧
        IsMaster i extras r.master ∧ ∀ s ∈ r.subproblems, IsMachine i extras m r.master s) ∧
    ∀ overtime : Overtime, overtime.IsProper → ∃ m r, mixedModel id i overtime = .ok m ∧
      decompose first m byMachine .standard = .ok r ∧ r.ids = Value.sortIds i.machines ∧
        ∀ s ∈ r.subproblems, IsMixedMachine i m r.master s := by
  constructor
  · intro extras fit
    obtain ⟨m, made, declared, contents⟩ := model_ok proper fit id
    have built : Built i extras m := ⟨proper, fit, declared, contents⟩
    obtain ⟨r, split⟩ := built.exists_decompose first
    have h := decompose_trace built.wellFormed split
    refine ⟨m, r, made, split, built.ids_eq h, ?_, fun s hs => ?_⟩
    · exact ⟨built.master_columns h, built.master_rows h, fun _ hj => built.master_covering h hj,
        built.master_objective h⟩
    · exact ⟨built.subproblem_columns h hs, built.subproblem_rows h hs,
        ⟨built.readLoad (built.id_mem h hs), built.subproblem_load h hs⟩,
        fun _ hj => built.pair_coupling h hs hj, fun _ hj => built.pair_cost h hs hj,
        built.subproblem_objective h hs⟩
  · intro overtime numbers
    obtain ⟨m, made, declared, contents⟩ := mixedModel_ok proper numbers id
    have built : BuiltMixed i overtime m := ⟨proper, numbers, declared, contents⟩
    obtain ⟨r, split⟩ := built.exists_decompose first
    have h := decompose_trace built.wellFormed split
    exact ⟨m, r, made, split, built.ids_eq h, fun s hs =>
      ⟨built.exists_room h hs, built.overtime_coupling h hs⟩⟩

/-- Two machines for one job. -/
def oneJob : Instance where
  machines := [.int 1, .int 2]
  jobs := [.int 1]
  costs := [(.tuple [.int 1, .int 1], .int 2), (.tuple [.int 2, .int 1], .int 5)]
  capacities := [(.int 1, .int 3), (.int 2, .int 4)]

/-- Weights and a penalty for these, and a constant. -/
def withPenalty : Extras where
  weights := [(.tuple [.int 1, .int 1], .float 1.5), (.tuple [.int 2, .int 1], .int 2)]
  penalties := some [(.int 1, .int 10)]
  constant := .float 2.5
  sense := .minimize

/-- The numbers of the mixed variant that hold if none are given. -/
def usualOvertime : Overtime :=
  ⟨.float 2.0, .float 1.0, .float 5.0⟩

theorem oneJob_isProper : oneJob.IsProper := by
  have labels : (Value.int 1).IsLabel ∧ (Value.int 2).IsLabel :=
    ⟨⟨by decide +kernel, .inl ⟨1, rfl⟩⟩, ⟨by decide +kernel, .inl ⟨2, rfl⟩⟩⟩
  refine ⟨nofun, by simp [oneJob], by simp [oneJob, labels], nofun, by simp [oneJob],
    by simp [oneJob, labels], by decide +kernel, by decide +kernel⟩

theorem withPenalty_fit : withPenalty.Fit oneJob :=
  ⟨.inr (by decide +kernel), by decide +kernel, by decide +kernel⟩

theorem usualOvertime_isProper : usualOvertime.IsProper := by
  have one : Binary64.exact 1.0 = .finite 1 := by decide +kernel
  exact ⟨by decide +kernel, by decide +kernel, .inr ⟨_, rfl, .inr ⟨1, one⟩⟩⟩

/-- One job on two machines, with a penalty and with overtime. -/
theorem oneJob_splits : oneJob.IsProper ∧
    (∃ m r, model 0 oneJob withPenalty = .ok m ∧
      decompose 1 m byMachine .standard = .ok r ∧ r.ids = Value.sortIds [.int 1, .int 2] ∧
        IsMaster oneJob withPenalty r.master ∧
          ∀ s ∈ r.subproblems, IsMachine oneJob withPenalty m r.master s) ∧
    ∃ m r, mixedModel 0 oneJob usualOvertime = .ok m ∧
      decompose 1 m byMachine .standard = .ok r ∧ r.ids = Value.sortIds [.int 1, .int 2] ∧
        ∀ s ∈ r.subproblems, IsMixedMachine oneJob m r.master s :=
  have both := splits_by_machine oneJob_isProper 0 1
  ⟨oneJob_isProper, both.1 _ withPenalty_fit, both.2 _ usualOvertime_isProper⟩

/-- One machine for one job. -/
def oneMachine (machine : Value) : Instance where
  machines := [machine]
  jobs := [.int 1]
  costs := [(.tuple [machine, .int 1], .int 2)]
  capacities := [(machine, .int 3)]

theorem exists_refused {i : Instance} {extras : Extras} {cause : Fault}
    (made : (model 0 i extras).toOption.isSome = true)
    (refused : (Verdict.of (do
      let m ← model 0 i extras
      decompose 1 m byMachine .standard)).fault? = some cause) :
    ∃ m, model 0 i extras = .ok m ∧ decompose 1 m byMachine .standard = .error (.fault cause) := by
  obtain ⟨m, built⟩ := exists_of_toOption_isSome made
  have error := Verdict.eq_error_of_fault? refused
  rw [built] at error
  exact ⟨m, built, error⟩

/-- A constant that no double can hold is refused, and so is a machine with a number that cannot be
written, although there are models. -/
theorem oversized_refused : (oneMachine (.int 1)).IsProper ∧
    (∃ m, model 0 (oneMachine (.int 1)) ⟨[], none, .int (10 ^ 400), .minimize⟩ = .ok m ∧
      decompose 1 m byMachine .standard = .error (.fault .tooLarge)) ∧
    ∃ m, model 0 (oneMachine (.int (10 ^ 5000))) ⟨[], none, .int 0, .minimize⟩ = .ok m ∧
      decompose 1 m byMachine .standard = .error (.fault .badValue) := by
  have label : (Value.int 1).IsLabel := ⟨by decide +kernel, .inl ⟨1, rfl⟩⟩
  refine ⟨⟨nofun, by simp [oneMachine], by simp [oneMachine, label], nofun, by simp [oneMachine],
    by simp [oneMachine, label], by decide +kernel, by decide +kernel⟩, ?_, ?_⟩
  · exact exists_refused (by decide +kernel) (by decide +kernel)
  · exact exists_refused (by decide +kernel) (by decide +kernel)

end GeneralizedAssignment

end BlockAngular
