import BlockAngular.Proofs.Decomposition.Requirements

/-! # When a model can be decomposed

A decomposition succeeds if and only if every demand is met, and otherwise fails for the first
one that is not. The demands on variables, constraints and ids are the same in whatever order
the blocks are built, and do not depend on the blocks that the keys go to.
-/

namespace BlockAngular

open Decomposition

namespace Verdict

variable {α : Type}

/-- A result for which demands are made in an order: it is there if and only if all of them
are met, and is refused for the first one that is not. -/
structure Settles (demands : List Verdict) (x : Except Error α) : Prop where
  success : (∃ a, x = .ok a) ↔ ∀ demand ∈ demands, demand = .ok ()
  failure : ∀ e, x = .error e ↔ ∃ met rest, demands = met ++ .error e :: rest ∧
    ∀ demand ∈ met, demand = .ok ()

theorem settles {demands : List Verdict} {x : Except Error α} (h : of x = all demands) :
    Settles demands x where
  success := by rw [← of_eq_ok, h, all_eq_ok]
  failure e := by rw [← of_eq_error, h, all_eq_error]

end Verdict

theorem Value.allWritable_iff {vs : List Value} :
    allWritable vs = true ↔ ∀ v ∈ vs, v.isWritable = true := by
  induction vs with
  | nil => simp [allWritable]
  | cons v vs ih => simp [allWritable, ih]

namespace Partition

variable {a : Assignment} {key : Key}

/-- Every key is in the slice of some block. -/
theorem exists_variablesOf (sound : a.Sound) (hk : key ∈ a.vars.map (·.1)) :
    ∃ block ∈ blocks (ofAssignment a).subproblemIds,
      key ∈ ((ofAssignment a).variablesOf block).keys := by
  obtain ⟨⟨key, own⟩, he, rfl⟩ := List.mem_map.mp hk
  obtain ⟨block, hblock, same⟩ := exists_block sound (.inl he)
  have back := Block.same_symm (blocks_isKey (subproblemIds_distinct sound) hblock) same
  refine ⟨block, hblock, ?_⟩
  rw [variablesOf_ofAssignment sound]
  exact sound.vars.mem_sliceOf.mpr ⟨own, he, back⟩

theorem exists_constraintsOf (sound : a.Sound) (hk : key ∈ a.constraints.map (·.1)) :
    ∃ block ∈ blocks (ofAssignment a).subproblemIds,
      key ∈ ((ofAssignment a).constraintsOf block).keys := by
  obtain ⟨⟨key, own⟩, he, rfl⟩ := List.mem_map.mp hk
  obtain ⟨block, hblock, same⟩ := exists_block sound (.inr he)
  have back := Block.same_symm (blocks_isKey (subproblemIds_distinct sound) hblock) same
  refine ⟨block, hblock, ?_⟩
  rw [constraintsOf_ofAssignment sound]
  exact sound.constraints.mem_sliceOf.mpr ⟨own, he, back⟩

end Partition

namespace Decomposition

variable {m : Model} {classify : Classify} {config : Config} {a : Assignment}

/-- The demands on the variables are those on the declared ones. -/
theorem variableDemands_met (assigned : m.assignment classify = .ok a) (sound : a.Sound) :
    (∀ v ∈ variableDemands m (.ofAssignment a), v = .ok ()) ↔
      ∀ key ∈ m.variableKeys, m.boundsDemand key = .ok () := by
  constructor
  · intro met key hk
    rw [← (Model.assignment_keys assigned).1] at hk
    obtain ⟨block, hblock, listed⟩ := Partition.exists_variablesOf sound hk
    rw [← (Slice.places_keys_perm _).mem_iff] at listed
    obtain ⟨place, hp, rfl⟩ := List.mem_map.mp listed
    exact met _ (List.mem_flatMap.mpr ⟨block, hblock, List.mem_map_of_mem hp⟩)
  · intro met v hv
    obtain ⟨block, -, hv⟩ := List.mem_flatMap.mp hv
    obtain ⟨place, hp, rfl⟩ := List.mem_map.mp hv
    refine met _ (Partition.mem_variableKeys assigned sound block ?_)
    exact (Slice.places_keys_perm _).mem_iff.mp (List.mem_map_of_mem (f := (·.1)) hp)

/-- So are those on the constraints. -/
theorem constraintDemands_met (assigned : m.assignment classify = .ok a) (sound : a.Sound) :
    (∀ v ∈ constraintDemands m (.ofAssignment a), v = .ok ()) ↔
      ∀ key ∈ m.constraintKeys, Verdict.of (m.readConstraint key) = .ok () ∧
        m.limitsDemand key = .ok () := by
  constructor
  · intro met key hk
    rw [← (Model.assignment_keys assigned).2] at hk
    obtain ⟨block, hblock, listed⟩ := Partition.exists_constraintsOf sound hk
    obtain ⟨⟨name, indices⟩, he, there⟩ := List.mem_flatMap.mp listed
    obtain ⟨row, hr, rfl⟩ := List.mem_map.mp there
    have sorted := (Value.sortIndices_perm indices).mem_iff.mpr hr
    have here : ∀ v ∈ m.constraintDemands name indices, v = .ok () := fun v hv =>
      met v (List.mem_flatMap.mpr ⟨block, hblock, List.mem_flatMap.mpr ⟨_, he, hv⟩⟩)
    obtain ⟨reads, limits⟩ := List.forall_mem_append.mp here
    exact ⟨reads _ (List.mem_map_of_mem sorted), limits _ (List.mem_map_of_mem sorted)⟩
  · intro met v hv
    obtain ⟨block, -, hv⟩ := List.mem_flatMap.mp hv
    obtain ⟨⟨name, indices⟩, he, hv⟩ := List.mem_flatMap.mp hv
    have declared : ∀ row ∈ Value.sortIndices indices, (⟨name, row⟩ : Key) ∈ m.constraintKeys :=
      fun row hr => Partition.mem_constraintKeys assigned sound (Slice.mem_keys_of_mem_sorted he hr)
    rcases List.mem_append.mp hv with hv | hv
    · obtain ⟨row, hr, rfl⟩ := List.mem_map.mp hv
      exact (met _ (declared row hr)).1
    · obtain ⟨row, hr, rfl⟩ := List.mem_map.mp hv
      exact (met _ (declared row hr)).2

variable {own : Option (Handle × Objective)}

/-- The demands on the model, its annotated keys and the configuration are met, whatever the ids
are. -/
structure MeetsDemands (m : Model) (config : Config) (own : Option (Handle × Objective)) : Prop where
  clash : ∀ v ∈ clashDemands m config own, v = .ok ()
  verbosity : config.verbosity.real?.isSome = true
  bounds : ∀ key ∈ m.variableKeys, m.boundsDemand key = .ok ()
  rows : ∀ key ∈ m.constraintKeys, Verdict.of (m.readConstraint key) = .ok () ∧
    m.limitsDemand key = .ok ()
  objective : ∀ v ∈ objectiveDemands m own, v = .ok ()
  objectiveName : ∀ v ∈ (own.map fun _ => nameDemand (newName config own)).toList, v = .ok ()
  convexityNames : nameDemand config.lowerName = .ok () ∧ nameDemand config.upperName = .ok ()

/-- The demands that are left are those, and three things of the ids. -/
theorem remainingDemands_met (assigned : m.assignment classify = .ok a) (sound : a.Sound) :
    (∀ v ∈ remainingDemands m config (.ofAssignment a) own, v = .ok ()) ↔
      MeetsDemands m config own ∧ ∀ id ∈ (Partition.ofAssignment a).subproblemIds,
        id.isWritable = true ∧ ∀ v ∈ Convexity.rowDemands config id, v = .ok () := by
  simp only [remainingDemands, List.forall_mem_append, List.forall_mem_cons,
    Verdict.require_eq_ok, variableDemands_met assigned sound,
    constraintDemands_met assigned sound, Value.allWritable_iff, List.mem_flatMap,
    forall_exists_index, and_imp]
  constructor
  · rintro ⟨clash, writable, verbose, bounds, rows, objective, named, lower, upper, convexity⟩
    exact ⟨⟨clash, verbose, bounds, rows, objective, named, lower, upper⟩,
      fun id hid => ⟨writable id hid, fun v => convexity v id hid⟩⟩
  · rintro ⟨⟨clash, verbose, bounds, rows, objective, named, lower, upper⟩, ofIds⟩
    exact ⟨clash, fun id hid => (ofIds id hid).1, verbose, bounds, rows, objective, named, lower,
      upper, fun v id hid => (ofIds id hid).2 v⟩

/-- A decomposition succeeds if and only if there are blocks for all keys, a variable, a
constraint and at most one objective, and the demands that are left are met. -/
theorem exists_decompose_iff {first : Nat} (regular : m.Regular) :
    (∃ r, decompose first m classify config = .ok r) ↔
      ∃ a own, m.assignment classify = .ok a ∧ m.objectiveInForce? = .ok own ∧
        m.vars.isEmpty = false ∧ m.constraints.isEmpty = false ∧
          Value.allHashable a.ids = true ∧
            ∀ v ∈ remainingDemands m config (.ofAssignment a) own, v = .ok () := by
  rw [← Verdict.of_eq_ok, decompose_verdict regular, requirements, Verdict.all_append,
    ← Model.assignment_verdict]
  cases assigned : m.assignment classify with
  | error e => simp [bind, Except.bind]
  | ok a =>
    simp only [Verdict.of_ok, Verdict.ok_bind, Verdict.all_eq_ok, Except.toOption, Option.map_some,
      Option.getD_some, assignedDemands, List.forall_mem_cons, Verdict.require_eq_ok]
    cases inForce : m.objectiveInForce? with
    | error e => simp
    | ok own => simp [Assignment.ids]

/-- Where there is an id, the sides are fit for the rows of the ids. -/
theorem sides_of_decompose {first : Nat} (regular : m.Regular)
    (h : ∃ r, decompose first m classify config = .ok r) (assigned : m.assignment classify = .ok a)
    (used : a.ids ≠ []) :
    config.lowerRhs.literal?.isSome = true ∧ config.upperRhs.literal?.isSome = true := by
  obtain ⟨a, own, assigned', -, -, -, hashable, rest⟩ := (exists_decompose_iff regular).mp h
  obtain rfl := Except.ok.inj (assigned'.symm.trans assigned)
  have sound := Model.assignment_sound regular.toWellFormed assigned hashable
  obtain ⟨id, hid⟩ := List.exists_mem_of_ne_nil _ used
  obtain ⟨spelled, listed, -⟩ :=
    Partition.exists_same_subproblemIds sound (List.mem_append.mp hid)
  have ofIds := ((remainingDemands_met assigned sound).mp rest).2 spelled listed
  exact (Convexity.rowDemands_met.mp ofIds.2).2

/-- A decomposition that succeeds also does so with other blocks, if their ids can be indices and
can be written. -/
theorem decompose_reassigned {first : Nat} {classify' : Classify} {a' : Assignment}
    (regular : m.Regular) (h : ∃ r, decompose first m classify config = .ok r)
    (assigned : m.assignment classify' = .ok a')
    (fit : ∀ id ∈ a'.ids, id.hashable = true ∧ id ≠ .dots ∧ id.isWritable = true)
    (sides : a'.ids ≠ [] →
      config.lowerRhs.literal?.isSome = true ∧ config.upperRhs.literal?.isSome = true) :
    ∃ r', decompose first m classify' config = .ok r' := by
  have hashable : Value.allHashable a'.ids = true :=
    Value.allHashable_iff.mpr fun id hid => (fit id hid).1
  have sound := Model.assignment_sound regular.toWellFormed assigned hashable
  rw [exists_decompose_iff regular] at h ⊢
  obtain ⟨a, own, assigned₀, inForce, vars, constraints, hashable₀, rest⟩ := h
  have sound₀ := Model.assignment_sound regular.toWellFormed assigned₀ hashable₀
  refine ⟨a', own, assigned, inForce, vars, constraints, hashable, ?_⟩
  rw [remainingDemands_met assigned₀ sound₀] at rest
  rw [remainingDemands_met assigned sound]
  refine ⟨rest.1, fun id hid => ?_⟩
  have listed : id ∈ a'.ids := List.mem_append.mpr (Partition.mem_of_mem_subproblemIds hid)
  obtain ⟨hashable, ordinary, writable⟩ := fit id listed
  exact ⟨writable, Convexity.rowDemands_met.mpr
    ⟨⟨hashable, ordinary⟩, sides (List.ne_nil_of_mem listed)⟩⟩

/-- An input as it should be: ids that can be indices, numbers for the right-hand sides, names
that are not reserved, and bounds that can be read. -/
structure IsUsual (m : Model) (classify : Classify) (config : Config) : Prop where
  ids : ∀ key ∈ m.variableKeys ++ m.constraintKeys, ∀ id,
    classify.resolve key = .ok (.subproblem id) → id.hashable = true ∧ id ≠ .dots
  sides : config.lowerRhs.literal?.isSome = true ∧ config.upperRhs.literal?.isSome = true
  convexityNames : nameDemand config.lowerName = .ok () ∧ nameDemand config.upperName = .ok ()
  objectiveName : ∀ o ∈ m.activeObjectives,
    nameDemand (config.objectiveNameFor o.1.component) = .ok ()
  verbosity : config.verbosity.real?.isSome = true
  bounds : ∀ key ∈ m.variableKeys, m.boundsDemand key = .ok ()

/-- What a decomposition of a usual input asks for once the blocks and the objective in force
are known. -/
def usualDemands (m : Model) (config : Config) (p : Partition) (own : Option (Handle × Objective)) :
    List Verdict :=
  clashDemands m config own ++
    .require (Value.allWritable p.subproblemIds = true) (.fault .badValue) ::
    (constraintDemands m p ++ objectiveDemands m own)

/-- What a decomposition of a usual input asks for, in the order in which it does: a block for
every declared key, a variable and a constraint, at most one objective, names that do not
clash, ids that can be written, constraints that are affine and whose limits do not cross, and
an affine objective. -/
def usualRequirements (m : Model) (classify : Classify) (config : Config) : List Verdict :=
  m.answers classify ++
    .require (m.vars.isEmpty = false) (.empty .vars) ::
    .require (m.constraints.isEmpty = false) (.empty .constraints) ::
    .of m.objectiveInForce? ::
    ((m.assignment classify).toOption.bind fun a => m.objectiveInForce?.toOption.map
      (usualDemands m config (Partition.ofAssignment a))).getD []

namespace IsUsual

variable {m : Model} {classify : Classify} {config : Config} {a : Assignment}

theorem id_usual (usual : IsUsual m classify config) (assigned : m.assignment classify = .ok a)
    {id : Value} (hid : id ∈ KeyTable.ids a.vars ∨ id ∈ KeyTable.ids a.constraints) :
    id.hashable = true ∧ id ≠ .dots := by
  obtain ⟨⟨_, vars⟩, _, constraints⟩ := Model.assignment_ok assigned
  have named : ∀ {mark keys table}, classify.table mark keys = .ok table →
      keys ⊆ m.variableKeys ++ m.constraintKeys → id ∈ KeyTable.ids table →
        id.hashable = true ∧ id ≠ .dots := by
    intro mark keys table tabled within listed
    obtain ⟨key, he⟩ := KeyTable.mem_ids.mp listed
    obtain ⟨keys_eq, blocks⟩ := Classify.table_ok tabled
    obtain ⟨own, mark', resolved, equal⟩ := blocks key _ he
    cases own with
    | master => cases equal
    | subproblem id' =>
        obtain rfl := Block.subproblem.inj equal
        have hk : key ∈ keys := keys_eq ▸ List.mem_map_of_mem (f := (·.1)) he
        obtain ⟨hashable, plain⟩ := usual.ids key (within hk) id' resolved
        refine ⟨by simpa using hashable, fun dots => plain ?_⟩
        cases id' <;> simp only [Value.marked, reduceCtorEq] at dots ⊢
        split at dots <;> cases dots
  exact hid.elim (named vars (List.subset_append_left _ _))
    (named constraints (List.subset_append_right _ _))

/-- The other demands are met. -/
theorem remaining_met (usual : IsUsual m classify config)
    (assigned : m.assignment classify = .ok a) (sound : a.Sound)
    {own : Option (Handle × Objective)} (inForce : m.objectiveInForce? = .ok own) :
    Verdict.all (remainingDemands m config (.ofAssignment a) own) =
      .all (usualDemands m config (.ofAssignment a) own) := by
  have verbose : Verdict.require (config.verbosity.real?.isSome = true) (.fault .wrongKind) = .ok () :=
    Verdict.require_eq_ok.mpr usual.verbosity
  have bounded : Verdict.all (variableDemands m (.ofAssignment a)) = .ok () :=
    Verdict.all_eq_ok.mpr ((variableDemands_met assigned sound).mpr usual.bounds)
  have named : Verdict.all (own.map fun _ => nameDemand (newName config own)).toList = .ok () := by
    cases own with
    | none => rfl
    | some own =>
        refine Verdict.all_eq_ok.mpr fun v hv => ?_
        obtain rfl := List.mem_singleton.mp hv
        exact usual.objectiveName own (Model.mem_activeObjectives_of_inForce inForce)
  have rows : Verdict.all ((Partition.ofAssignment a).subproblemIds.flatMap
      (Convexity.rowDemands config)) = .ok () := by
    refine Verdict.all_eq_ok.mpr fun v hv => ?_
    obtain ⟨id, hid, hv⟩ := List.mem_flatMap.mp hv
    have plain := usual.id_usual assigned (Partition.mem_of_mem_subproblemIds hid)
    exact Convexity.rowDemands_met.mpr ⟨plain, usual.sides⟩ v hv
  simp only [remainingDemands, usualDemands, Verdict.all_append, Verdict.all_cons, verbose, bounded,
    named, usual.convexityNames, rows, Verdict.ok_bind, Verdict.bind_ok]

theorem requirements_met (usual : IsUsual m classify config) (wf : m.WellFormed) :
    Verdict.all (requirements m classify config) =
      .all (usualRequirements m classify config) := by
  simp only [requirements, usualRequirements, Verdict.all_append, Verdict.all_cons]
  cases assigned : m.assignment classify with
  | error e =>
      have refused := m.assignment_verdict classify
      rw [assigned] at refused
      rw [← refused]
      rfl
  | ok a =>
      have hashable : Value.allHashable (KeyTable.ids a.vars ++ KeyTable.ids a.constraints) = true :=
        Value.allHashable_iff.mpr fun id hid =>
          (usual.id_usual assigned (List.mem_append.mp hid)).1
      have sound := Model.assignment_sound wf assigned hashable
      have keyed : Verdict.require (Value.allHashable (KeyTable.ids a.vars ++
          KeyTable.ids a.constraints) = true) (.fault .wrongKind) = .ok () :=
        Verdict.require_eq_ok.mpr hashable
      cases inForce : m.objectiveInForce? with
      | error e =>
          simp only [Except.toOption, Option.map_some, Option.getD_some, assignedDemands, inForce,
            Verdict.all_cons, keyed, Verdict.ok_bind]
          rfl
      | ok own =>
          simp only [Except.toOption, Option.map_some, Option.getD_some, assignedDemands, inForce,
            Verdict.all_cons, keyed, Verdict.ok_bind, Option.bind_some,
            usual.remaining_met assigned sound inForce]

end IsUsual

/-- A decomposition of a usual input succeeds if and only if all that it asks for is there, and
otherwise fails for the first thing that is not. -/
theorem decompose_settled {first : Nat} {m : Model} {classify : Classify} {config : Config}
    (regular : m.Regular) (usual : IsUsual m classify config) :
    Verdict.Settles (usualRequirements m classify config) (decompose first m classify config) :=
  Verdict.settles ((decompose_verdict regular).trans (usual.requirements_met regular.toWellFormed))

end Decomposition

theorem twoColumns_regular : twoColumns.Regular where
  toWellFormed := twoColumns_wellFormed
  unreserved := by decide +kernel
  uniform := by
    simp [twoColumns, Family.Uniform, Content.entries, Family.scalar, Family.arity]

theorem firstApart_resolve {key : Key} {id : Value}
    (h : firstApart.resolve key = .ok (.subproblem id)) : id = .int 1 := by
  have answer : firstApart key = .ok (.block (.subproblem (.int 1))) ∨
      firstApart key = .ok (.block .master) := by
    unfold firstApart
    split <;> simp
  rcases answer with there | there <;> simp only [Classify.resolve, there] at h <;> cases h
  rfl

theorem Verdict.all_ok_of_isOk {α : Type} {f : α → Verdict} {as : List α}
    (h : (as.all fun a => (f a).isOk) = true) : ∀ a ∈ as, f a = .ok () := by
  intro a ha
  have ok := List.all_eq_true.mp h a ha
  cases there : f a with
  | ok => rfl
  | error e => simp [there, Except.isOk, Except.toBool] at ok

theorem twoColumns_isUsual : Decomposition.IsUsual twoColumns firstApart .standard where
  ids key _ id answered := by
    obtain rfl := firstApart_resolve answered
    exact ⟨rfl, by simp⟩
  sides := by decide +kernel
  convexityNames := ⟨rfl, rfl⟩
  objectiveName := Verdict.all_ok_of_isOk (by decide +kernel)
  verbosity := rfl
  bounds := Verdict.all_ok_of_isOk (by decide +kernel)

theorem twoColumns_settled : twoColumns.Regular ∧
    Decomposition.IsUsual twoColumns firstApart .standard ∧
      Verdict.Settles (Decomposition.usualRequirements twoColumns firstApart .standard)
        (Decomposition.decompose 1 twoColumns firstApart .standard) :=
  ⟨twoColumns_regular, twoColumns_isUsual,
    Decomposition.decompose_settled twoColumns_regular twoColumns_isUsual⟩

/-- A variable between a parameter and a number that is smaller. -/
def crossed : Model where
  id := 0
  name := "crossed"
  components := [
    ⟨"x", .vars (.scalar .free), []⟩,
    ⟨"p", .parameter (.int 5), []⟩,
    ⟨"c", .constraints true (.scalar ⟨.variable ⟨0, "x", 0⟩, some (.parameter ⟨0, "p", 0⟩),
      some (.number (.int 3)), false, true⟩), []⟩]

/-- Everything goes to a subproblem whose id is too long to be written. -/
def unwritable : Classify :=
  fun _ => .ok (.block (.subproblem (.int (Int.ofNat (10 ^ 5000)))))

theorem crossed_isUsual : Decomposition.IsUsual crossed .allMaster .standard where
  ids _ _ _ answered := by cases answered
  sides := by decide +kernel
  convexityNames := ⟨rfl, rfl⟩
  objectiveName := Verdict.all_ok_of_isOk (by decide +kernel)
  verbosity := rfl
  bounds := Verdict.all_ok_of_isOk (by decide +kernel)

theorem unwritable_isUsual : Decomposition.IsUsual twoColumns unwritable .standard where
  ids _ _ _ answered := by
    cases answered
    exact ⟨rfl, nofun⟩
  sides := by decide +kernel
  convexityNames := ⟨rfl, rfl⟩
  objectiveName := Verdict.all_ok_of_isOk (by decide +kernel)
  verbosity := rfl
  bounds := Verdict.all_ok_of_isOk (by decide +kernel)

/-- Blocks, names and limits are as they should be, the bodies are affine, and yet the
decomposition fails: for limits that cross, or for an id that is too long to be written. -/
theorem crossed_refused :
    (Decomposition.IsUsual crossed .allMaster .standard ∧
      ((crossed.readConstraint ⟨"c", []⟩).toOption.map fun read =>
        read.2.lower.isSome && read.2.upper.isSome) = some true ∧
      Decomposition.decompose 1 crossed .allMaster .standard = .error (.fault .emptyRelation)) ∧
    (Decomposition.IsUsual twoColumns unwritable .standard ∧
      Decomposition.decompose 1 twoColumns unwritable .standard = .error (.fault .badValue)) :=
  ⟨⟨crossed_isUsual, by decide +kernel, Verdict.eq_error_of_fault? (by decide +kernel)⟩,
    unwritable_isUsual, Verdict.eq_error_of_fault? (by decide +kernel)⟩

end BlockAngular
