import BlockAngular.Proofs.GeneralizedAssignment.Declared

/-! # The model with overtime

In the mixed variant the load of a machine is held against its capacity and its overtime, and the
overtime of all machines against the shifts. Both constraints have variables on either side, so
that they are about a difference.
-/

namespace BlockAngular

namespace GeneralizedAssignment

open Model (Extends)

/-- The variables of a machine for all jobs. -/
def loadKeys (i : Instance) (machine : Value) : List Key :=
  i.jobs.map fun job => ⟨"x", [machine, job]⟩

/-- The overtime of all machines. -/
def overtimeKeys (i : Instance) : List Key :=
  i.machines.map fun machine => ⟨"overtime", [machine]⟩

/-- A machine has to bear its load with its capacity and its overtime. -/
def roomRow (m : Model) (i : Instance) (machine : Value) : Constraint :=
  ⟨.sub (m.weighted (units (loadKeys i machine)))
      (Expression.plus (.number (number i.capacities machine))
        (.variable (m.preimageOf ⟨"overtime", [machine]⟩))),
    none, some (.number (.int 0)), false, true⟩

/-- The shifts have to pay for the overtime. -/
def budgetRow (m : Model) (i : Instance) : Constraint :=
  ⟨.sub (m.weighted (units (overtimeKeys i))) (.variable (m.preimageOf ⟨"shifts", []⟩)),
    none, some (.number (.int 0)), false, true⟩

/-- The costs with those of overtime and shifts. -/
def mixedCosts (m : Model) (i : Instance) (overtime : Overtime) : Expression :=
  ((m.weighted (costTerms i)).plus
    ((Expression.number overtime.cost.number).times (m.weighted (units (overtimeKeys i))))).plus
      ((Expression.number overtime.machineCost.number).times
        (.variable (m.preimageOf ⟨"shifts", []⟩)))

/-- The components of variables of an instance with overtime. -/
def mixedVariables (i : Instance) (overtime : Overtime) : List (String × Content) :=
  [("x", .ofVariables (some (pairs i)) (variableOf .binary .null .null .null)),
    ("overtime", .ofVariables (some (singles i.machines))
      (variableOf .nonNegativeReals (.int 0) overtime.limit .null)),
    ("shifts", .ofVariables none
      (variableOf .nonNegativeIntegers (.int 0) (.int i.machines.length) (.int 0)))]

/-- The components of the model of an instance with overtime. -/
def mixedContents (m : Model) (i : Instance) (overtime : Overtime) : List (String × Content) :=
  mixedVariables i overtime ++
    [("assignment", .ofConstraints (i.jobs.map fun job => ([job], coveringRow m i false job))),
      ("capacity", .ofConstraints (i.machines.map fun machine => ([machine], roomRow m i machine))),
      ("overtime_budget", .ofConstraint (budgetRow m i)),
      ("objective", .ofObjective (mixedCosts m i overtime) .minimize)]

/-- The keys of the variables of an instance with overtime. -/
def mixedColumns (i : Instance) : List Key :=
  (pairs i).map (Key.mk "x") ++ (overtimeKeys i ++ [⟨"shifts", []⟩])

section Columns

variable {i : Instance} {machine job : Value}

theorem mem_mixedColumns {key : Key} : key ∈ mixedColumns i ↔
    (∃ machine ∈ i.machines, ∃ job ∈ i.jobs, key = ⟨"x", [machine, job]⟩) ∨
      (∃ machine ∈ i.machines, key = ⟨"overtime", [machine]⟩) ∨ key = ⟨"shifts", []⟩ := by
  simp only [mixedColumns, overtimeKeys, List.mem_append, List.mem_map, List.mem_singleton]
  refine or_congr ⟨?_, ?_⟩ (or_congr (exists_congr fun _ => and_congr_right fun _ => eq_comm) .rfl)
  · rintro ⟨pair, hp, rfl⟩
    obtain ⟨machine, hm, job, hj, rfl⟩ := mem_pairs.mp hp
    exact ⟨machine, hm, job, hj, rfl⟩
  · rintro ⟨machine, hm, job, hj, rfl⟩
    exact ⟨_, mem_pairs.mpr ⟨machine, hm, job, hj, rfl⟩, rfl⟩

theorem loadKeys_subset (hm : machine ∈ i.machines) : loadKeys i machine ⊆ mixedColumns i := by
  intro key hk
  obtain ⟨job, hj, rfl⟩ := List.mem_map.mp hk
  exact mem_mixedColumns.mpr (.inl ⟨machine, hm, job, hj, rfl⟩)

theorem overtimeKeys_subset : overtimeKeys i ⊆ mixedColumns i := by
  intro key hk
  obtain ⟨machine, hm, rfl⟩ := List.mem_map.mp hk
  exact mem_mixedColumns.mpr (.inr (.inl ⟨machine, hm, rfl⟩))

theorem shifts_mem : ⟨"shifts", []⟩ ∈ mixedColumns i :=
  mem_mixedColumns.mpr (.inr (.inr rfl))

/-- Without penalties the variables of the plain variant are among those of the mixed one. -/
theorem columns_subset : columns i false ⊆ mixedColumns i := by
  simp [columns, mixedColumns]

theorem loadKeys_ne_nil (proper : i.IsProper) (machine : Value) :
    units (loadKeys i machine) ≠ [] := by
  simpa [units, loadKeys] using proper.jobs

theorem overtimeKeys_ne_nil (proper : i.IsProper) : units (overtimeKeys i) ≠ [] := by
  simpa [units, overtimeKeys] using proper.machines

/-- The constraints and the costs are over the variables of the instance. -/
theorem mixedContents_congr {m m' : Model} {overtime : Overtime}
    (same : ∀ key ∈ mixedColumns i, m'.preimageOf key = m.preimageOf key) :
    mixedContents m' i overtime = mixedContents m i overtime := by
  have units_same {keys : List Key} (there : keys ⊆ mixedColumns i) :
      m'.weighted (units keys) = m.weighted (units keys) :=
    Model.weighted_congr fun key hk => same key (there (by simpa using hk))
  have covering : (i.jobs.map fun job => ([job], coveringRow m' i false job)) =
      i.jobs.map fun job => ([job], coveringRow m i false job) :=
    List.map_congr_left fun job hj => by
      rw [coveringRow, coveringRow,
        units_same fun key hk => columns_subset (coveringKeys_subset hj hk)]
  have room : (i.machines.map fun machine => ([machine], roomRow m' i machine)) =
      i.machines.map fun machine => ([machine], roomRow m i machine) :=
    List.map_congr_left fun machine hm => by
      rw [roomRow, roomRow, units_same (loadKeys_subset hm),
        same _ (mem_mixedColumns.mpr (.inr (.inl ⟨machine, hm, rfl⟩)))]
  have own : m'.weighted (costTerms i) = m.weighted (costTerms i) :=
    Model.weighted_congr fun key hk => same key (columns_subset (costTerms_subset hk))
  rw [mixedContents, mixedContents, covering, room, budgetRow, budgetRow, mixedCosts, mixedCosts, own,
    units_same overtimeKeys_subset, same _ shifts_mem]

end Columns

section Rows

variable {i : Instance} {m : Model} {machine : Value}
variable (proper : i.IsProper) (wf : m.WellFormed)
variable (declared : ∀ key ∈ mixedColumns i, key ∈ m.variableKeys)
include proper wf declared

theorem overtime_ok : total m "overtime" (singles i.machines) =
    .ok (.expr (m.weighted (units (overtimeKeys i)))) := by
  have some : singles i.machines ≠ [] := by simpa [singles] using proper.machines
  rw [total_ok wf "overtime" some (List.forall_mem_map.mpr fun machine hm =>
    declared _ (mem_mixedColumns.mpr (.inr (.inl ⟨machine, hm, rfl⟩))))]
  simp [singles, overtimeKeys, Function.comp_def]

theorem room_ok (hm : machine ∈ i.machines) : (do
      let load ← total m "x" (i.jobs.map fun job => [machine, job])
      let room ← (Operand.plain (← look i.capacities machine)).add
        (← variableAt m "overtime" [machine])
      load.atMost room) =
      .ok (.atMost (m.weighted (units (loadKeys i machine)))
        (Expression.plus (.number (number i.capacities machine))
          (.variable (m.preimageOf ⟨"overtime", [machine]⟩)))) := by
  have some : (i.jobs.map fun job => [machine, job]) ≠ [] := by simpa using proper.jobs
  have load := total_ok wf "x" some (List.forall_mem_map.mpr fun job hj =>
    declared _ (mem_mixedColumns.mpr (.inl ⟨machine, hm, job, hj, rfl⟩)))
  have overtime := variableAt_ok wf
    (declared _ (mem_mixedColumns.mpr (.inr (.inl ⟨machine, hm, rfl⟩))))
  obtain ⟨v, found, literal, -⟩ := look_of_amount? (proper.capacities machine hm).1
  simp [load, overtime, found, literal, loadKeys, Operand.add, Operand.combine, Operand.atMost,
    Operand.toExpression?, bind, Except.bind, Except.map, Function.comp_def]

theorem mixedCosts_ok {overtime : Overtime} (numbers : overtime.IsProper) : (do
      let cost ← assignmentCost m i
      let cost ← cost.add (← (Operand.plain overtime.cost).mul
        (.expr (m.weighted (units (overtimeKeys i)))))
      cost.add (← (Operand.plain overtime.machineCost).mul
        (.expr (.variable (m.preimageOf ⟨"shifts", []⟩))))) =
      .ok (.expr (mixedCosts m i overtime)) := by
  obtain ⟨_, cost⟩ := Option.isSome_iff_exists.mp numbers.cost
  obtain ⟨_, machineCost⟩ := Option.isSome_iff_exists.mp numbers.machineCost
  rw [assignmentCost_ok proper wf fun pair hp =>
    declared _ (columns_subset (List.mem_append_left _ (List.mem_map_of_mem hp)))]
  simp [mixedCosts, (Value.literal?_of_double? cost).1, (Value.literal?_of_double? machineCost).1,
    Operand.add, Operand.mul, Operand.combine, Operand.toExpression?, bind, Except.bind, Except.map]

end Rows

theorem roomRow_plain (m : Model) (i : Instance) (machine : Value) :
    (roomRow m i machine).HasPlainSides :=
  ⟨by simp [roomRow], by simp [roomRow, Expression.hasVariables]⟩

/-- There are variables on either side, so that the constraint is about the difference. -/
theorem roomRow_ok {m : Model} {i : Instance} (proper : i.IsProper) (machine : Value) :
    (Statement.atMost (m.weighted (units (loadKeys i machine)))
      (Expression.plus (.number (number i.capacities machine))
        (.variable (m.preimageOf ⟨"overtime", [machine]⟩)))).constraint =
      .ok (roomRow m i machine) := by
  refine Constraint.atMost_difference (Model.weighted_hasVariables (loadKeys_ne_nil proper machine)) ?_
  have own := Model.variable_collects (m := m) (n := .int 1) rfl ⟨"overtime", [machine]⟩
  have sum := own.numberPlus (by simp) (k := number i.capacities machine) rfl
  exact sum.withVariables (by simp)

theorem budgetRow_ok {m : Model} {i : Instance} (proper : i.IsProper) :
    (Statement.atMost (m.weighted (units (overtimeKeys i)))
      (.variable (m.preimageOf ⟨"shifts", []⟩))).constraint = .ok (budgetRow m i) :=
  Constraint.atMost_difference (Model.weighted_hasVariables (overtimeKeys_ne_nil proper)) rfl

/-- The declarations of the variables of an instance with overtime. -/
def declareMixedVariables (i : Instance) (overtime : Overtime) : Stage Model Unit := do
  Model.addVariables "x" (some (pairs i)) (variableOf .binary .null .null .null)
  Model.addVariables "overtime" (some (singles i.machines))
    (variableOf .nonNegativeReals (.int 0) overtime.limit .null)
  Model.addVariables "shifts" none
    (variableOf .nonNegativeIntegers (.int 0) (.int i.machines.length) (.int 0))

/-- The declarations of the constraints and the costs over these variables. -/
def declareMixedRows (i : Instance) (overtime : Overtime) : Stage Model Unit := do
  let m ← get
  Model.addConstraints "assignment" (rowsFor i.jobs (covering m i false))
  Model.addConstraints "capacity" (rowsFor i.machines fun machine => do
    let load ← total m "x" (i.jobs.map fun job => [machine, job])
    let room ← (Operand.plain (← look i.capacities machine)).add
      (← variableAt m "overtime" [machine])
    load.atMost room)
  let hours ← Stage.ofFault (total m "overtime" (singles i.machines))
  let shifts ← Stage.ofFault (variableAt m "shifts" [])
  Model.addStatement "overtime_budget" (some (← Stage.ofFault (hours.atMost shifts)))
  let cost ← Stage.ofFault do
    let cost ← assignmentCost m i
    let cost ← cost.add (← (Operand.plain overtime.cost).mul hours)
    cost.add (← (Operand.plain overtime.machineCost).mul shifts)
  Model.addObjectiveOf "objective" cost .minimize

theorem declareMixed_eq (i : Instance) (overtime : Overtime) : declareMixed i overtime =
    declareMixedVariables i overtime >>= fun _ => declareMixedRows i overtime := by
  unfold declareMixed declareMixedVariables declareMixedRows
  simp [bind_assoc]

theorem mixedVariables_keys {i : Instance} (proper : i.IsProper) (overtime : Overtime) :
    (mixedVariables i overtime).flatMap (fun c => c.2.variableRows.map fun row => ⟨c.1, row⟩) =
      mixedColumns i := by
  have pairs := Content.variableRows_ofVariables (variableOf .binary .null .null .null)
    fun row hr => (proper.pairs_labelled row hr).isRow
  have machines := Content.variableRows_ofVariables
    (variableOf .nonNegativeReals (.int 0) overtime.limit .null)
    fun row hr => (proper.machines_labelled row hr).isRow
  have shifts (v : Variable) : (Content.ofVariables none v).variableRows = [[]] := rfl
  have labels : (singles i.machines).map (Key.mk "overtime") = overtimeKeys i := by
    simp [singles, overtimeKeys, Function.comp_def]
  rw [mixedColumns, ← labels]
  simp only [mixedVariables, List.flatMap_cons, List.flatMap_nil, pairs, machines, shifts]
  rfl

/-- The variables of a proper instance with overtime can be declared. -/
theorem mixedVariables_ok {m : Model} {i : Instance} (proper : i.IsProper) (declared : m.Declared)
    (bare : m.contents = []) (overtime : Overtime) : ∃ m',
      declareMixedVariables i overtime m = .ok () m' ∧ m.Extends m' (mixedVariables i overtime) := by
  obtain ⟨s, xDone, xExtends⟩ := pairVariables_ok proper declared bare
  obtain ⟨t, overtimeDone, overtimeExtends⟩ := Model.addVariables_extends "overtime"
    (variableOf .nonNegativeReals (.int 0) overtime.limit .null) (n := 1) proper.machines_labelled
    (proper.machines_nodup.map fun _ _ same => (List.cons.inj same).1)
    (List.forall_mem_map.mpr fun _ _ => rfl) rfl rfl xExtends.declared
    (by simp [← Model.contents_names, xExtends.contents, bare])
  obtain ⟨m', shiftsDone, shiftsExtends⟩ := Model.addVariable_extends "shifts"
    (variableOf .nonNegativeIntegers (.int 0) (.int i.machines.length) (.int 0)) rfl rfl
    overtimeExtends.declared
    (by simp [← Model.contents_names, overtimeExtends.contents, xExtends.contents, bare])
  refine ⟨m', ?_, (xExtends.trans overtimeExtends).trans shiftsExtends⟩
  rw [declareMixedVariables, Stage.bind_of_ok xDone, Stage.bind_of_ok overtimeDone, shiftsDone]

/-- The constraints and the costs of a proper instance can be declared over its variables. -/
theorem mixedRows_ok {m : Model} {i : Instance} {overtime : Overtime} (proper : i.IsProper)
    (numbers : overtime.IsProper) (declared : m.Declared)
    (variables_ : m.contents = mixedVariables i overtime) : ∃ m',
      declareMixedRows i overtime m = .ok () m' ∧ m'.Declared ∧
        m'.contents = mixedContents m' i overtime := by
  have wf := declared.regular.toWellFormed
  have keys : m.variableKeys = mixedColumns i := by
    rw [Model.variableKeys_contents, variables_, mixedVariables_keys proper]
  have known : ∀ key ∈ mixedColumns i, key ∈ m.variableKeys := fun key hk => keys ▸ hk
  have names : m.names = ["x", "overtime", "shifts"] := by
    rw [← Model.contents_names, variables_]
    rfl
  have knownPairs : ∀ key ∈ columns i false, key ∈ m.variableKeys :=
    fun key hk => known key (columns_subset hk)
  have room : (rowsFor i.machines fun machine => do
        let load ← total m "x" (i.jobs.map fun job => [machine, job])
        let room ← (Operand.plain (← look i.capacities machine)).add
          (← variableAt m "overtime" [machine])
        load.atMost room) =
      (i.machines.map fun machine => ([machine], roomRow m i machine)).map fun row =>
        (row.1, .constraint (.ok row.2)) :=
    rowsFor_eq proper.machine fun machine hm =>
      ⟨_, room_ok proper wf known hm, roomRow_ok proper machine⟩
  have shifts := variableAt_ok wf (known _ shifts_mem)
  have budget : (Operand.expr (m.weighted (units (overtimeKeys i)))).atMost
      (.expr (.variable (m.preimageOf ⟨"shifts", []⟩))) = .ok (.atMost
        (m.weighted (units (overtimeKeys i))) (.variable (m.preimageOf ⟨"shifts", []⟩))) := rfl
  obtain ⟨s, coveringDone, coveringExtends⟩ := Model.addConstraints_extends "assignment"
    (coveringRow m i false) proper.job proper.jobs_nodup (fun _ _ => coveringRow_plain ..) rfl
    declared (by simp [names])
  obtain ⟨t, roomDone, roomExtends⟩ := Model.addConstraints_extends "capacity" (roomRow m i)
    proper.machine proper.machines_nodup (fun _ _ => roomRow_plain ..) rfl coveringExtends.declared
    (by simp [← Model.contents_names, coveringExtends.contents, variables_, mixedVariables])
  obtain ⟨u, budgetDone, budgetExtends⟩ := Model.addStatement_extends "overtime_budget"
    (budgetRow_ok (m := m) proper) rfl roomExtends.declared
    (by simp [← Model.contents_names, roomExtends.contents, coveringExtends.contents, variables_,
      mixedVariables])
  obtain ⟨m', costDone, costExtends⟩ := Model.addObjectiveOf_extends "objective"
    (mixedCosts m i overtime) .minimize rfl budgetExtends.declared
    (by simp [← Model.contents_names, budgetExtends.contents, roomExtends.contents,
      coveringExtends.contents, variables_, mixedVariables])
  have whole := ((coveringExtends.trans roomExtends).trans budgetExtends).trans costExtends
  refine ⟨m', ?_, whole.declared, ?_⟩
  · rw [declareMixedRows, Stage.bind_of_ok (Stage.get_ok.mpr ⟨rfl, rfl⟩),
      coveringRows_eq proper wf knownPairs, Stage.bind_of_ok coveringDone, room, Stage.bind_of_ok roomDone,
      Stage.bind_of_ok (Stage.ofFault_ok.mpr ⟨overtime_ok proper wf known, rfl⟩),
      Stage.bind_of_ok (Stage.ofFault_ok.mpr ⟨shifts, rfl⟩),
      Stage.bind_of_ok (Stage.ofFault_ok.mpr ⟨budget, rfl⟩), Stage.bind_of_ok budgetDone,
      Stage.bind_of_ok (Stage.ofFault_ok.mpr ⟨mixedCosts_ok proper wf known numbers, rfl⟩), costDone]
  · rw [whole.contents, variables_,
      mixedContents_congr fun key hk => whole.preimages key (known key hk)]
    simp [mixedContents]

/-- The declarations of a proper instance with overtime come to their end. -/
theorem mixedModel_ok {i : Instance} {overtime : Overtime} (proper : i.IsProper)
    (numbers : overtime.IsProper) (id : Nat) : ∃ m, mixedModel id i overtime = .ok m ∧ m.Declared ∧
      m.contents = mixedContents m i overtime := by
  obtain ⟨s, variablesDone, variablesExtend⟩ := mixedVariables_ok proper
    (Model.Declared.empty id "mixed_gap") rfl overtime
  obtain ⟨m, rowsDone, declared, built⟩ := mixedRows_ok proper numbers variablesExtend.declared
    variablesExtend.contents
  refine ⟨m, ?_, declared, built⟩
  have done : declareMixed i overtime (Model.empty id "mixed_gap") = .ok () m := by
    rw [declareMixed_eq, Stage.bind_of_ok variablesDone, rowsDone]
  rw [mixedModel, Stage.finish_ok.mpr done]
  rfl

end GeneralizedAssignment

end BlockAngular
