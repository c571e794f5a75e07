import BlockAngular.Proofs.GeneralizedAssignment.Sums

/-! # The model of an instance

What the declarations of a proper instance leave behind: the variables for all pairs, a penalty
for every job if there are any, the constraints of the jobs and of the machines, and the costs.
-/

namespace BlockAngular

namespace GeneralizedAssignment

open Model (Extends)

/-- The variables that cover a job. -/
def coveringKeys (i : Instance) (penalized : Bool) (job : Value) : List Key :=
  i.machines.map (fun machine => ⟨"x", [machine, job]⟩) ++
    if penalized then [⟨"penalty", [job]⟩] else []

/-- The weights on a machine. -/
def loadTerms (i : Instance) (weights : Table) (machine : Value) : List (Key × Numeric) :=
  i.jobs.map fun job => (⟨"x", [machine, job]⟩, number weights (.tuple [machine, job]))

/-- The costs of all pairs. -/
def costTerms (i : Instance) : List (Key × Numeric) :=
  (pairs i).map fun pair => (⟨"x", pair⟩, number i.costs (.tuple pair))

/-- The costs of leaving jobs out. -/
def penaltyTerms (i : Instance) (penalties : Table) : List (Key × Numeric) :=
  i.jobs.map fun job => (⟨"penalty", [job]⟩, number penalties job)

/-- A job has to be taken at least once, or left out. -/
def coveringRow (m : Model) (i : Instance) (penalized : Bool) (job : Value) : Constraint :=
  ⟨m.weighted (units (coveringKeys i penalized job)), some (.number (.int 1)), none, false, true⟩

/-- A machine has to bear its load. -/
def loadRow (m : Model) (i : Instance) (weights : Table) (machine : Value) : Constraint :=
  ⟨m.weighted (loadTerms i weights machine), none, some (.number (number i.capacities machine)),
    false, true⟩

theorem coveringRow_plain (m : Model) (i : Instance) (penalized : Bool) (job : Value) :
    (coveringRow m i penalized job).HasPlainSides :=
  ⟨by simp [coveringRow, Expression.hasVariables], by simp [coveringRow]⟩

theorem loadRow_plain (m : Model) (i : Instance) (weights : Table) (machine : Value) :
    (loadRow m i weights machine).HasPlainSides :=
  ⟨by simp [loadRow], by simp [loadRow, Expression.hasVariables]⟩

/-- The costs of an instance. -/
def costs (m : Model) (i : Instance) (extras : Extras) : Expression :=
  (match extras.penalties with
    | some penalties => (m.weighted (costTerms i)).plus (m.weighted (penaltyTerms i penalties))
    | none => m.weighted (costTerms i)).plus (.number extras.constant.number)

/-- The components of variables of an instance. -/
def variableContents (i : Instance) (penalized : Bool) : List (String × Content) :=
  ("x", .ofVariables (some (pairs i)) (variableOf .binary .null .null .null)) ::
    if penalized then
      [("penalty", .ofVariables (some (singles i.jobs))
        (variableOf .nonNegativeReals .null .null .null))]
    else []

/-- The components of the model of an instance. -/
def contents (m : Model) (i : Instance) (extras : Extras) : List (String × Content) :=
  variableContents i extras.penalties.isSome ++
    [("assignment", .ofConstraints (i.jobs.map fun job =>
        ([job], coveringRow m i extras.penalties.isSome job))),
      ("capacity", .ofConstraints (i.machines.map fun machine =>
        ([machine], loadRow m i (weightsOf i extras.weights) machine))),
      ("objective", .ofObjective (costs m i extras) extras.sense)]

/-- The keys of the variables of an instance. -/
def columns (i : Instance) (penalized : Bool) : List Key :=
  (pairs i).map (fun pair => ⟨"x", pair⟩) ++
    if penalized then i.jobs.map fun job => ⟨"penalty", [job]⟩ else []

theorem pair_mem_columns {i : Instance} {penalized : Bool} {pair : List Value} (hp : pair ∈ pairs i) :
    ⟨"x", pair⟩ ∈ columns i penalized :=
  List.mem_append_left _ (List.mem_map_of_mem (f := Key.mk "x") hp)

theorem penalty_mem_columns {i : Instance} {penalized : Bool} (given : penalized = true) {job : Value}
    (hj : job ∈ i.jobs) : ⟨"penalty", [job]⟩ ∈ columns i penalized := by
  subst given
  exact List.mem_append_right _ (List.mem_map_of_mem (f := fun job => Key.mk "penalty" [job]) hj)

section Rows

variable {i : Instance} {m : Model} {machine job : Value}

theorem coveringKeys_ne_nil (proper : i.IsProper) (penalized : Bool) (job : Value) :
    coveringKeys i penalized job ≠ [] := by
  simp [coveringKeys, proper.machines]

theorem covering_ok (proper : i.IsProper) (wf : m.WellFormed) {penalized : Bool}
    (declared : ∀ key ∈ coveringKeys i penalized job, key ∈ m.variableKeys) :
    covering m i penalized job = .ok (.atMost (.number (.int 1))
      (m.weighted (units (coveringKeys i penalized job)))) := by
  have some : (i.machines.map fun machine => [machine, job]) ≠ [] := by simpa using proper.machines
  have pairs := total_ok wf "x" some (List.forall_mem_map.mpr fun machine hm =>
    declared _ (List.mem_append_left _
      (List.mem_map_of_mem (f := fun machine => Key.mk "x" [machine, job]) hm)))
  cases penalized with
  | false =>
      rw [covering, pairs]
      simp [coveringKeys, Operand.atMost, Operand.toExpression?, Value.literal?, bind, Except.bind,
        pure, Except.pure, Function.comp_def]
  | true =>
      have own : ⟨"penalty", [job]⟩ ∈ m.variableKeys :=
        declared _ (List.mem_append_right _ (by simp))
      have penalty := variableAt_ok wf own
      have terms : units (i.machines.map fun machine => ⟨"x", [machine, job]⟩) ≠ [] := by
        simpa [units] using proper.machines
      have sum := Model.weighted_concat (m := m) terms ⟨"penalty", [job]⟩
      have keys : units (coveringKeys i true job) = units (i.machines.map fun machine =>
          ⟨"x", [machine, job]⟩) ++ units [⟨"penalty", [job]⟩] := by
        simp [coveringKeys, units]
      rw [covering, pairs, keys, sum]
      simp [penalty, Operand.add, Operand.combine, Operand.atMost, Operand.toExpression?,
        Value.literal?, bind, Except.bind, Except.map, Function.comp_def]

theorem load_ok (proper : i.IsProper) (wf : m.WellFormed) {weights : Table}
    (there : ∀ job ∈ i.jobs, (amount? weights (.tuple [machine, job])).isSome = true)
    (capacity : (amount? i.capacities machine).isSome = true)
    (declared : ∀ job ∈ i.jobs, ⟨"x", [machine, job]⟩ ∈ m.variableKeys) :
    (do
      let load ← i.jobs.mapM fun job =>
        product m weights (.tuple [machine, job]) "x" [machine, job]
      (← Operand.sum load).atMost (.plain (← look i.capacities machine))) =
      .ok (.atMost (m.weighted (loadTerms i weights machine))
        (.number (number i.capacities machine))) := by
  obtain ⟨load, each, sum⟩ := products_ok wf (fun job => .tuple [machine, job]) "x"
    (fun job => [machine, job]) proper.jobs there declared
  obtain ⟨v, found, literal, -⟩ := look_of_amount? capacity
  simp [each, sum, found, literal, loadTerms, Operand.atMost, Operand.toExpression?, bind,
    Except.bind]

theorem assignmentCost_ok (proper : i.IsProper) (wf : m.WellFormed)
    (declared : ∀ pair ∈ pairs i, ⟨"x", pair⟩ ∈ m.variableKeys) :
    assignmentCost m i = .ok (.expr (m.weighted (costTerms i))) := by
  obtain ⟨terms, each, sum⟩ := products_ok wf Value.tuple "x" (fun pair => pair)
    proper.pairs_ne_nil proper.costs_given declared
  simp [assignmentCost, each, sum, costTerms, bind, Except.bind]

theorem costs_ok {extras : Extras} (proper : i.IsProper) (fit : extras.Fit i) (wf : m.WellFormed)
    (declared : ∀ key ∈ columns i extras.penalties.isSome, key ∈ m.variableKeys) : (do
      let cost ← assignmentCost m i
      let cost ← match extras.penalties with
        | some penalties => do
          let terms ← i.jobs.mapM fun job => product m penalties job "penalty" [job]
          cost.add (← Operand.sum terms)
        | none => pure cost
      cost.add (.plain extras.constant)) = .ok (.expr (costs m i extras)) := by
  obtain ⟨y, constant⟩ := Option.isSome_iff_exists.mp fit.constant
  have literal := (Value.literal?_of_double? constant).1
  rw [assignmentCost_ok proper wf fun pair hp => declared _ (pair_mem_columns hp)]
  cases given : extras.penalties with
  | none =>
      simp [costs, given, literal, Operand.add, Operand.combine, Operand.toExpression?, bind,
        Except.bind, pure, Except.pure, Except.map]
  | some penalties =>
      obtain ⟨terms, each, sum⟩ := products_ok wf (fun job => job) "penalty" (fun job => [job])
        proper.jobs (fit.penalties penalties given)
        fun job hj => declared _ (penalty_mem_columns (by simp [given]) hj)
      simp [each, sum, costs, given, penaltyTerms, literal, Operand.add, Operand.combine,
        Operand.toExpression?, bind, Except.bind, Except.map]

end Rows

section Columns

variable {i : Instance} {extras : Extras} {penalized : Bool} {job : Value}

theorem coveringKeys_subset (hj : job ∈ i.jobs) :
    coveringKeys i penalized job ⊆ columns i penalized := by
  intro key hk
  rcases List.mem_append.mp hk with there | there
  · obtain ⟨machine, hm, rfl⟩ := List.mem_map.mp there
    exact pair_mem_columns (mem_pairs.mpr ⟨machine, hm, job, hj, rfl⟩)
  · cases penalized with
    | false => simp at there
    | true =>
        obtain rfl := List.mem_singleton.mp there
        exact penalty_mem_columns rfl hj

theorem loadTerms_subset {machine : Value} (hm : machine ∈ i.machines) (weights : Table) :
    (loadTerms i weights machine).map (·.1) ⊆ columns i penalized := by
  intro key hk
  obtain ⟨_, there, rfl⟩ := List.mem_map.mp hk
  obtain ⟨job, hj, rfl⟩ := List.mem_map.mp there
  exact pair_mem_columns (mem_pairs.mpr ⟨machine, hm, job, hj, rfl⟩)

theorem costTerms_subset : (costTerms i).map (·.1) ⊆ columns i penalized := by
  intro key hk
  obtain ⟨_, there, rfl⟩ := List.mem_map.mp hk
  obtain ⟨pair, hp, rfl⟩ := List.mem_map.mp there
  exact pair_mem_columns hp

theorem penaltyTerms_subset (given : penalized = true) (penalties : Table) :
    (penaltyTerms i penalties).map (·.1) ⊆ columns i penalized := by
  intro key hk
  obtain ⟨_, there, rfl⟩ := List.mem_map.mp hk
  obtain ⟨job, hj, rfl⟩ := List.mem_map.mp there
  exact penalty_mem_columns given hj

/-- The constraints and the costs are over the variables of the instance. -/
theorem contents_congr {m m' : Model}
    (same : ∀ key ∈ columns i extras.penalties.isSome, m'.preimageOf key = m.preimageOf key) :
    contents m' i extras = contents m i extras := by
  have covering : (i.jobs.map fun job => ([job], coveringRow m' i extras.penalties.isSome job)) =
      i.jobs.map fun job => ([job], coveringRow m i extras.penalties.isSome job) := by
    refine List.map_congr_left fun job hj => ?_
    rw [coveringRow, coveringRow, Model.weighted_congr fun key hk =>
      same key (coveringKeys_subset hj (by simpa using hk))]
  have load : (i.machines.map fun machine =>
        ([machine], loadRow m' i (weightsOf i extras.weights) machine)) =
      i.machines.map fun machine => ([machine], loadRow m i (weightsOf i extras.weights) machine) := by
    refine List.map_congr_left fun machine hm => ?_
    rw [loadRow, loadRow, Model.weighted_congr fun key hk => same key (loadTerms_subset hm _ hk)]
  have cost : costs m' i extras = costs m i extras := by
    have own : m'.weighted (costTerms i) = m.weighted (costTerms i) :=
      Model.weighted_congr fun key hk => same key (costTerms_subset hk)
    cases given : extras.penalties with
    | none => simp only [costs, given, own]
    | some penalties =>
        have penalty : m'.weighted (penaltyTerms i penalties) =
            m.weighted (penaltyTerms i penalties) :=
          Model.weighted_congr fun key hk =>
            same key (penaltyTerms_subset (by simp [given]) penalties hk)
        simp only [costs, given, own, penalty]
  rw [contents, contents, covering, load, cost]

end Columns

theorem variableContents_keys {i : Instance} (proper : i.IsProper) (penalized : Bool) :
    (variableContents i penalized).flatMap (fun c => c.2.variableRows.map fun row => ⟨c.1, row⟩) =
      columns i penalized := by
  have pairs := Content.variableRows_ofVariables (variableOf .binary .null .null .null)
    fun row hr => (proper.pairs_labelled row hr).isRow
  have jobs := Content.variableRows_ofVariables (variableOf .nonNegativeReals .null .null .null)
    fun row hr => (proper.jobs_labelled row hr).isRow
  rw [variableContents, columns]
  cases penalized with
  | false => simp [pairs]
  | true =>
      simp only [if_true, List.flatMap_cons, List.flatMap_nil, pairs, jobs]
      simp [singles]

/-- The declarations of the variables of an instance. -/
def declareVariables (i : Instance) (penalized : Bool) : Stage Model Unit := do
  Model.addVariables "x" (some (pairs i)) (variableOf .binary .null .null .null)
  if penalized then
    Model.addVariables "penalty" (some (singles i.jobs))
      (variableOf .nonNegativeReals .null .null .null)

/-- The declarations of the constraints and the costs of an instance, over the variables. -/
def declareRows (i : Instance) (extras : Extras) : Stage Model Unit := do
  let m ← get
  Model.addConstraints "assignment" (rowsFor i.jobs (covering m i extras.penalties.isSome))
  Model.addConstraints "capacity" (rowsFor i.machines fun machine => do
    let load ← i.jobs.mapM fun job =>
      product m (weightsOf i extras.weights) (.tuple [machine, job]) "x" [machine, job]
    (← Operand.sum load).atMost (.plain (← look i.capacities machine)))
  let cost ← Stage.ofFault do
    let cost ← assignmentCost m i
    let cost ← match extras.penalties with
      | some penalties => do
        let terms ← i.jobs.mapM fun job => product m penalties job "penalty" [job]
        cost.add (← Operand.sum terms)
      | none => pure cost
    cost.add (.plain extras.constant)
  Model.addObjectiveOf "objective" cost extras.sense

theorem declare_eq (i : Instance) (extras : Extras) : declare i extras =
    declareVariables i extras.penalties.isSome >>= fun _ => declareRows i extras := by
  unfold declare declareVariables declareRows
  cases extras.penalties <;> simp [bind_assoc]

/-- There is a variable for every pair of a machine and a job. -/
theorem pairVariables_ok {m : Model} {i : Instance} (proper : i.IsProper) (declared : m.Declared)
    (bare : m.contents = []) : ∃ m',
      Model.addVariables "x" (some (pairs i)) (variableOf .binary .null .null .null) m = .ok () m' ∧
        m.Extends m' [("x", .ofVariables (some (pairs i)) (variableOf .binary .null .null .null))] := by
  refine Model.addVariables_extends "x" _ (n := 2) proper.pairs_labelled proper.pairs_nodup
    (fun pair hp => ?_) rfl rfl declared (by simp [← Model.contents_names, bare])
  obtain ⟨machine, -, job, -, rfl⟩ := mem_pairs.mp hp
  rfl

/-- The variables of a proper instance can be declared. -/
theorem variables_ok {m : Model} {i : Instance} (proper : i.IsProper) (declared : m.Declared)
    (bare : m.contents = []) (penalized : Bool) : ∃ m', declareVariables i penalized m = .ok () m' ∧
      m.Extends m' (variableContents i penalized) := by
  obtain ⟨s, xDone, xExtends⟩ := pairVariables_ok proper declared bare
  rw [declareVariables, Stage.bind_of_ok xDone]
  cases penalized with
  | false => exact ⟨s, rfl, xExtends⟩
  | true =>
      obtain ⟨t, penaltyDone, penaltyExtends⟩ := Model.addVariables_extends "penalty"
        (variableOf .nonNegativeReals .null .null .null) (n := 1) proper.jobs_labelled
        (proper.jobs_nodup.map fun _ _ same => (List.cons.inj same).1)
        (List.forall_mem_map.mpr fun _ _ => rfl) rfl rfl xExtends.declared
        (by simp [← Model.contents_names, xExtends.contents, bare])
      exact ⟨t, penaltyDone, xExtends.trans penaltyExtends⟩

theorem variableContents_names (i : Instance) (penalized : Bool) :
    (variableContents i penalized).map (·.1) = if penalized then ["x", "penalty"] else ["x"] := by
  cases penalized <;> rfl

/-- Every job of a proper instance has a covering constraint. -/
theorem coveringRows_eq {m : Model} {i : Instance} (proper : i.IsProper) (wf : m.WellFormed)
    {penalized : Bool} (known : ∀ key ∈ columns i penalized, key ∈ m.variableKeys) :
    rowsFor i.jobs (covering m i penalized) =
      (i.jobs.map fun job => ([job], coveringRow m i penalized job)).map fun row =>
        (row.1, .constraint (.ok row.2)) := by
  refine rowsFor_eq proper.job fun job hj => ?_
  have terms : units (coveringKeys i penalized job) ≠ [] := by
    simpa [units] using coveringKeys_ne_nil proper _ job
  have some := Model.weighted_hasVariables (m := m) terms
  exact ⟨_, covering_ok proper wf fun key hk => known key (coveringKeys_subset hj hk),
    (Constraint.atMost_number some _).2⟩

/-- Every machine of a proper instance has a capacity constraint. -/
theorem loadRows_eq {m : Model} {i : Instance} {extras : Extras} (proper : i.IsProper)
    (fit : extras.Fit i) (wf : m.WellFormed)
    (known : ∀ key ∈ columns i extras.penalties.isSome, key ∈ m.variableKeys) :
    (rowsFor i.machines fun machine => do
        let load ← i.jobs.mapM fun job =>
          product m (weightsOf i extras.weights) (.tuple [machine, job]) "x" [machine, job]
        (← Operand.sum load).atMost (.plain (← look i.capacities machine))) =
      (i.machines.map fun machine =>
          ([machine], loadRow m i (weightsOf i extras.weights) machine)).map fun row =>
        (row.1, .constraint (.ok row.2)) := by
  refine rowsFor_eq proper.machine fun machine hm => ?_
  have terms : loadTerms i (weightsOf i extras.weights) machine ≠ [] := by
    simpa [loadTerms] using proper.jobs
  have some := Model.weighted_hasVariables (m := m) terms
  refine ⟨_, load_ok proper wf (fun job hj => ?_) (proper.capacities machine hm).1 fun job hj => ?_,
    (Constraint.atMost_number some _).1⟩
  · rw [proper.weights fit hm hj]
    rfl
  · exact known _ (pair_mem_columns (mem_pairs.mpr ⟨machine, hm, job, hj, rfl⟩))

/-- The constraints and the costs of a proper instance can be declared over its variables. -/
theorem rows_ok {m : Model} {i : Instance} {extras : Extras} (proper : i.IsProper)
    (fit : extras.Fit i) (declared : m.Declared)
    (variables_ : m.contents = variableContents i extras.penalties.isSome) :
    ∃ m', declareRows i extras m = .ok () m' ∧ m'.Declared ∧ m'.contents = contents m' i extras := by
  have wf := declared.regular.toWellFormed
  have keys : m.variableKeys = columns i extras.penalties.isSome := by
    rw [Model.variableKeys_contents, variables_, variableContents_keys proper]
  have known : ∀ key ∈ columns i extras.penalties.isSome, key ∈ m.variableKeys :=
    fun key hk => keys ▸ hk
  have cost := costs_ok proper fit wf known
  have names : m.names = if extras.penalties.isSome then ["x", "penalty"] else ["x"] := by
    rw [← Model.contents_names, variables_, variableContents_names]
  obtain ⟨s, coveringDone, coveringExtends⟩ := Model.addConstraints_extends "assignment"
    (coveringRow m i extras.penalties.isSome) proper.job proper.jobs_nodup
    (fun _ _ => coveringRow_plain ..) rfl declared
    (by rw [names]; split <;> simp)
  obtain ⟨t, loadDone, loadExtends⟩ := Model.addConstraints_extends "capacity"
    (loadRow m i (weightsOf i extras.weights)) proper.machine proper.machines_nodup
    (fun _ _ => loadRow_plain ..) rfl coveringExtends.declared (by
      rw [← Model.contents_names, coveringExtends.contents, List.map_append, Model.contents_names,
        names]
      split <;> simp)
  obtain ⟨m', costDone, costExtends⟩ := Model.addObjectiveOf_extends "objective"
    (costs m i extras) extras.sense rfl loadExtends.declared (by
      rw [← Model.contents_names, loadExtends.contents, coveringExtends.contents, List.map_append,
        List.map_append, Model.contents_names, names]
      split <;> simp)
  have whole := (coveringExtends.trans loadExtends).trans costExtends
  refine ⟨m', ?_, whole.declared, ?_⟩
  · rw [declareRows, Stage.bind_of_ok (Stage.get_ok.mpr ⟨rfl, rfl⟩), coveringRows_eq proper wf known,
      Stage.bind_of_ok coveringDone, loadRows_eq proper fit wf known, Stage.bind_of_ok loadDone,
      Stage.bind_of_ok (Stage.ofFault_ok.mpr ⟨cost, rfl⟩), costDone]
  · rw [whole.contents, variables_, contents_congr fun key hk => whole.preimages key (known key hk)]
    simp [contents]

/-- The declarations of a proper instance come to their end. -/
theorem model_ok {i : Instance} {extras : Extras} (proper : i.IsProper) (fit : extras.Fit i)
    (id : Nat) : ∃ m, model id i extras = .ok m ∧ m.Declared ∧ m.contents = contents m i extras := by
  obtain ⟨s, variablesDone, variablesExtend⟩ := variables_ok proper (Model.Declared.empty id "gap") rfl
    extras.penalties.isSome
  obtain ⟨m, rowsDone, declared, built⟩ := rows_ok proper fit variablesExtend.declared
    variablesExtend.contents
  refine ⟨m, ?_, declared, built⟩
  have done : declare i extras (Model.empty id "gap") = .ok () m := by
    rw [declare_eq, Stage.bind_of_ok variablesDone, rowsDone]
  rw [model, Stage.finish_ok.mpr done]
  rfl

end GeneralizedAssignment

end BlockAngular
