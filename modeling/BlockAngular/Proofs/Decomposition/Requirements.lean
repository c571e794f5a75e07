import BlockAngular.Proofs.Decomposition.Demands
import BlockAngular.Proofs.Decomposition.VariableMapping

/-! # What a decomposition asks for

All that a decomposition asks for can be asked of the model, the annotation function and the
configuration beforehand. The verdict on a decomposition is that on these demands in their order.
-/

namespace BlockAngular

open Decomposition

namespace Verdict

variable {α β : Type}

/-- The demands of a first step come before those of the second. -/
theorem of_bind_eq {x : Except Error α} {f : α → Except Error β} {v rest : Verdict}
    (first : of x = v) (second : ∀ a, x = .ok a → of (f a) = rest) :
    of (x >>= f) = (do v; rest) := by
  rw [← first]
  exact of_bind _ second

end Verdict

/-- The keys are asked about one by one. -/
theorem Classify.table_verdict (classify : Classify) (mark : Nat) (keys : List Key) :
    Verdict.of (classify.table mark keys) =
      .all (keys.map fun key => .of (classify.resolve key)) := by
  induction keys generalizing mark with
  | nil => rfl
  | cons key rest ih =>
      rw [Classify.table, List.map_cons, Verdict.all_cons]
      refine Verdict.of_bind _ fun block _ => ?_
      rw [← ih (mark + 2)]
      cases classify.table (mark + 2) rest <;> rfl

namespace Model

variable {m : Model} {classify : Classify}

/-- The demands on the annotation function: a block for every declared key. -/
def answers (m : Model) (classify : Classify) : List Verdict :=
  (m.variableKeys ++ m.constraintKeys).map fun key => .of (classify.resolve key)

theorem assignment_verdict (m : Model) (classify : Classify) :
    Verdict.of (m.assignment classify) = .all (m.answers classify) := by
  rw [assignment, answers, List.map_append, Verdict.all_append]
  refine Verdict.of_bind_eq (classify.table_verdict ..) fun vars _ => ?_
  rw [← classify.table_verdict (2 * vars.length + 1)]
  cases classify.table (2 * vars.length + 1) m.constraintKeys <;> rfl

/-- Whether a name is in use. -/
def uses (m : Model) : Value → Bool
  | .str name => m.hasName name
  | _ => false

theorem mem_activeObjectives_of_inForce {o : Handle × Objective}
    (inForce : m.objectiveInForce? = .ok (some o)) : o ∈ m.activeObjectives := by
  unfold objectiveInForce? at inForce
  split at inForce
  · cases inForce
  · rename_i one alone
    rw [alone, ← Option.some.inj (Except.ok.inj inForce)]
    exact List.mem_singleton_self _
  · split at inForce <;> cases inForce

end Model

namespace Decomposition

/-- The name of the objective in force, if there is one. -/
def ownName (own : Option (Handle × Objective)) : Value :=
  (own.map fun (h, _) => Value.str h.component).getD .null

/-- The name that the objectives get. -/
def newName (config : Config) (own : Option (Handle × Objective)) : Value :=
  (own.map fun (h, _) => config.objectiveNameFor h.component).getD .null

/-- The demands on names: that of the objectives is the old one or free, and those of the
convexity constraints differ and are free. -/
def clashDemands (m : Model) (config : Config) (own : Option (Handle × Objective)) :
    List Verdict :=
  [.require ((newName config own).same (ownName own) = true ∨ m.uses (newName config own) = false)
      (.nameClash (.objective (newName config own))),
    .require (config.lowerName.same config.upperName = false)
      (.nameClash (.sameConvexityNames config.lowerName)),
    .require (m.uses config.lowerName = false ∧ config.lowerName.same (newName config own) = false)
      (.nameClash (.convexity config.lowerName)),
    .require (m.uses config.upperName = false ∧ config.upperName.same (newName config own) = false)
      (.nameClash (.convexity config.upperName))]

theorem checkNames_verdict (m : Model) (config : Config) (own : Option (Handle × Objective)) :
    Verdict.of (checkNames m config (newName config own) (ownName own)) =
      .all (clashDemands m config own) := by
  have unfolded : checkNames m config (newName config own) (ownName own) =
      if !(newName config own).same (ownName own) && m.uses (newName config own) then
        .error (.nameClash (.objective (newName config own)))
      else if config.lowerName.same config.upperName then
        .error (.nameClash (.sameConvexityNames config.lowerName))
      else if m.uses config.lowerName || config.lowerName.same (newName config own) then
        .error (.nameClash (.convexity config.lowerName))
      else if m.uses config.upperName || config.upperName.same (newName config own) then
        .error (.nameClash (.convexity config.upperName))
      else .ok () := rfl
  rw [unfolded]
  simp only [clashDemands, Verdict.all_cons, Verdict.all_nil, Verdict.require]
  cases (newName config own).same (ownName own) <;> cases m.uses (newName config own) <;>
    cases config.lowerName.same config.upperName <;> cases m.uses config.lowerName <;>
    cases config.lowerName.same (newName config own) <;> cases m.uses config.upperName <;>
    cases config.upperName.same (newName config own) <;> rfl

theorem of_checkNames {m : Model} {config : Config} {own : Option (Handle × Objective)} {u : Unit}
    (passed : checkNames m config (newName config own) (ownName own) = .ok u) :
    ((newName config own).same (ownName own) = true ∨ m.uses (newName config own) = false) ∧
      config.lowerName.same config.upperName = false ∧
      (m.uses config.lowerName = false ∧ config.lowerName.same (newName config own) = false) ∧
      m.uses config.upperName = false ∧ config.upperName.same (newName config own) = false := by
  have met := Verdict.all_eq_ok.mp
    ((checkNames_verdict m config own).symm.trans (by rw [passed]; rfl))
  simpa [clashDemands] using met

/-- The demands that are left once the objective in force is known. -/
def remainingDemands (m : Model) (config : Config) (p : Partition)
    (own : Option (Handle × Objective)) : List Verdict :=
  clashDemands m config own ++
    .require (Value.allWritable p.subproblemIds = true) (.fault .badValue) ::
    .require (config.verbosity.real?.isSome = true) (.fault .wrongKind) ::
    (variableDemands m p ++ (constraintDemands m p ++ (objectiveDemands m own ++
      ((own.map fun _ => nameDemand (newName config own)).toList ++
        nameDemand config.lowerName :: nameDemand config.upperName ::
          p.subproblemIds.flatMap (Convexity.rowDemands config)))))

/-- The demands that are left once the blocks are known. -/
def assignedDemands (m : Model) (config : Config) (a : Assignment) : List Verdict :=
  .require (m.vars.isEmpty = false) (.empty .vars) ::
    .require (m.constraints.isEmpty = false) (.empty .constraints) ::
    .require (Value.allHashable (KeyTable.ids a.vars ++ KeyTable.ids a.constraints) = true)
      (.fault .wrongKind) ::
    .of m.objectiveInForce? ::
    (m.objectiveInForce?.toOption.map
      (remainingDemands m config (Partition.ofAssignment a))).getD []

/-- What a decomposition asks for, in the order in which it does. -/
def requirements (m : Model) (classify : Classify) (config : Config) : List Verdict :=
  m.answers classify ++
    ((m.assignment classify).toOption.map (assignedDemands m config)).getD []

theorem hasImages_of_covers {first : Nat} {m : Model} (wf : m.WellFormed) {classify : Classify}
    {a : Assignment} (assigned : m.assignment classify = .ok a) {vars : Registry} {ids : List Value}
    (covers : vars.Covers first m ids a.vars) : vars.HasImages m where
  faithful := covers.faithful
  known h := by
    rw [Model.vars_handles wf assigned]
    exact (covers.isBijection.total h).symm

section Fresh

variable {m : Model} {classify : Classify} {config : Config} {a : Assignment}
variable {own : Option (Handle × Objective)}

/-- The name of an objective in force is that of a component with objectives. -/
theorem content_of_objective {h : Handle} {o : Objective}
    (inForce : m.objectiveInForce? = .ok (some (h, o))) :
    ∃ c ∈ m.components, c.name = h.component ∧ ∃ active family, c.content = .objectives active family := by
  obtain ⟨c, hc, there⟩ := List.mem_flatMap.mp (Model.mem_activeObjectives_of_inForce inForce)
  split at there
  · rename_i family content
    obtain ⟨⟨index, position, o'⟩, -, equal⟩ := List.mem_map.mp there
    cases equal
    exact ⟨c, hc, rfl, true, family, content⟩
  · simp at there

/-- No name of a slice is one that the decomposition adds. -/
theorem added_names_fresh (wf : m.WellFormed) (assigned : m.assignment classify = .ok a)
    (sound : a.Sound) (inForce : m.objectiveInForce? = .ok own)
    (unclashed : (newName config own).same (ownName own) = true ∨
      m.uses (newName config own) = false) (block : Block) {name : String}
    (hn : name ∈ ((Partition.ofAssignment a).variablesOf block).map (·.1) ++
      ((Partition.ofAssignment a).constraintsOf block).map (·.1)) :
    newName config own ≠ .str name ∧ m.uses (.str name) = true := by
  have component : ∃ c ∈ m.components, c.name = name ∧
      ∀ active family, c.content ≠ .objectives active family := by
    rcases List.mem_append.mp hn with hv | hc
    · obtain ⟨c, hc, named, family, content⟩ := Partition.content_of_variables assigned sound hv
      exact ⟨c, hc, named, by simp [content]⟩
    · obtain ⟨c, hc, named, active, family, content⟩ :=
        Partition.content_of_constraints assigned sound hc
      exact ⟨c, hc, named, by simp [content]⟩
  obtain ⟨c, hc, rfl, other⟩ := component
  have used : m.uses (.str c.name) = true := by
    simp [Model.uses, Model.hasName, Model.component?_of_mem wf.names_nodup hc]
  refine ⟨fun equal => ?_, used⟩
  rw [equal, used] at unclashed
  cases own with
  | none => simp [newName] at equal
  | some own =>
      obtain ⟨h, o⟩ := own
      obtain ⟨c', hc', named, active, family, content⟩ := content_of_objective inForce
      have same : c.name = h.component := by simpa [ownName, Value.same] using unclashed
      obtain rfl := Model.component_unique wf.names_nodup hc hc' (same.trans named.symm)
      exact other active family content

end Fresh

/-- Where an image lives is one of the blocks. -/
theorem owner_listed {first : Nat} {m : Model} {ids : List Value} {table : KeyTable}
    {vars : Registry} (covers : vars.Covers first m ids table) {image : Handle}
    (owned : ∃ owner, vars.imageOwner? image = some owner) :
    ∃ block ∈ blocks ids, vars.imageOwner? image = some block := by
  obtain ⟨owner, owned⟩ := owned
  obtain ⟨b, hb, rfl, -⟩ := covers.image_of_owner owned
  exact ⟨b.1, block_mem hb, owned⟩

/-- The terms of an expression over images live in blocks. -/
theorem mapped_owned {m : Model} {vars : Registry} (images : vars.HasImages m) {e : Expression}
    {context : String} {form : AffineForm}
    (mapped : e.mapped (imageReading m vars) vars.image? context = .ok form) :
    ∀ term ∈ form.terms, ∃ owner, vars.imageOwner? term.1 = some owner := by
  rw [Model.mapped_eq_formOf images] at mapped
  obtain ⟨plain, formed, rfl⟩ := Success.map_ok.mp mapped
  exact AffineForm.owned_rename images (Model.formOf_vars formed).2

/-- So do the terms of what became of the constraints. -/
theorem transfers_owned {m : Model} {vars : Registry} (images : vars.HasImages m) {block : Block}
    {id : Nat} {places : List (Key × Nat)} {transfers : List Transfer}
    (h : List.Forall₂ (TransferOf (imageReading m vars) vars block m id) places transfers) :
    ∀ t ∈ transfers, ∀ term ∈ t.form.terms, ∃ owner, vars.imageOwner? term.1 = some owner := by
  intro t ht
  obtain ⟨place, -, transit, arrived, rfl⟩ := (exists_of_forall₂ h).2 t ht
  obtain ⟨-, c, -, mapped, -⟩ := transitOf_ok arrived
  exact mapped_owned images mapped

theorem mapObjective_owned {m : Model} {vars : Registry} (images : vars.HasImages m)
    {own : Option (Handle × Objective)} {mapped : Option MappedObjective}
    (h : mapObjective m vars own = .ok mapped) : ∀ o ∈ mapped, ∀ term ∈ o.form.terms,
      ∃ owner, vars.imageOwner? term.1 = some owner := by
  rintro o rfl
  cases own with
  | none => cases h
  | some own =>
      simp only [mapObjective, Success.bind_ok, Success.pure_ok] at h
      obtain ⟨form, read, equal⟩ := h
      cases equal
      exact mapped_owned images read

/-- The tables can be made of whatever was registered. -/
theorem tables_exist {first : Nat} {m : Model} {ids : List Value} {table : KeyTable}
    {vars : Registry} (covers : vars.Covers first m ids table)
    {transfers : List (Block × List Transfer)} {objective : Option MappedObjective}
    (transfersOwned : ∀ e ∈ transfers, ∀ t ∈ e.2, ∀ term ∈ t.form.terms,
      ∃ owner, vars.imageOwner? term.1 = some owner)
    (objectiveOwned : ∀ o ∈ objective, ∀ term ∈ o.form.terms,
      ∃ owner, vars.imageOwner? term.1 = some owner) :
    (∃ couplings, couplingTables (masterTransfers transfers) vars ids = .ok couplings) ∧
      ∃ costs, costTables (objective.map (·.form)) vars ids = .ok costs := by
  refine ⟨exists_couplingTables covers.ids_distinct fun t ht term hterm => ?_,
    exists_costTables covers.ids_distinct fun form hform term hterm => ?_⟩
  · obtain ⟨⟨block, ts⟩, he, there⟩ := List.mem_flatMap.mp ht
    cases block with
    | master => exact owner_listed covers (transfersOwned _ he t there term hterm)
    | subproblem => simp at there
  · obtain ⟨o, ho, rfl⟩ := Option.map_eq_some_iff.mp hform
    exact owner_listed covers (objectiveOwned o ho term hterm)

/-- The part of an objective is under the name that the objectives get. -/
theorem newName_of_objectiveContents {m : Model} {vars : Registry} {config : Config}
    {own : Option (Handle × Objective)} {mapped : Option MappedObjective}
    (h : mapObjective m vars own = .ok mapped) {block : Block} {name : String}
    (hn : name ∈ (objectiveContents mapped vars config block).map (·.1)) :
    newName config own = .str name := by
  rw [newName, mapObjective_name config h]
  unfold objectiveContents at hn
  split at hn
  · simp at hn
  · split at hn
    · rename_i text
      simp only [List.map_cons, List.map_nil, List.mem_singleton] at hn
      simp [text, hn]
    · simp at hn

theorem checkIds_verdict (ids : List Value) : Verdict.of ((checkIds ids).mapError .fault) =
    .require (Value.allWritable ids = true) (.fault .badValue) := by
  unfold checkIds Verdict.require
  split <;> rfl

theorem checkVerbosity_verdict (config : Config) :
    Verdict.of ((checkVerbosity config).mapError .fault) =
      .require (config.verbosity.real?.isSome = true) (.fault .wrongKind) := by
  unfold checkVerbosity
  cases config.verbosity.real? <;> rfl

/-- The tables of keys are as long as the lists of what is declared. -/
theorem isEmpty_of_assigned {m : Model} {classify : Classify} {a : Assignment}
    (assigned : m.assignment classify = .ok a) :
    m.vars.isEmpty = a.vars.isEmpty ∧ m.constraints.isEmpty = a.constraints.isEmpty := by
  obtain ⟨vars, constraints⟩ := Model.assignment_keys assigned
  constructor
  · rw [← List.isEmpty_map, ← List.isEmpty_map (l := a.vars), vars]
    rfl
  · rw [← List.isEmpty_map, ← List.isEmpty_map (l := a.constraints), constraints]
    rfl

/-- The objectives are refused for their name only. -/
theorem objectives_verdict {m : Model} {vars : Registry} (images : vars.HasImages m)
    {config : Config} {own : Option (Handle × Objective)} {mapped : Option MappedObjective}
    (mappedOk : mapObjective m vars own = .ok mapped) {targets : List (Block × Model)}
    (nonempty : targets ≠ [])
    (fresh : ∀ t ∈ targets, ∀ name ∈ t.2.names, newName config own ≠ .str name) :
    Verdict.of (addObjectives vars mapped (newName config own) targets) =
      .all (own.map fun _ => nameDemand (newName config own)).toList := by
  have alike := mapObjective_name config mappedOk
  cases mapped with
  | none =>
      cases own with
      | none => rfl
      | some own => cases alike
  | some o =>
      cases own with
      | none => cases alike
      | some own =>
          rw [addObjectives_verdict nonempty (mapObjective_owned images mappedOk o rfl)
            fun label text t ht there => fresh t ht label there text]
          exact (Verdict.bind_ok _).symm

/-- A master whose names are those of the model or of the objective takes the convexity
constraints, but for their names and what their rows ask for. -/
theorem convexity_verdict {m target : Model} {config : Config}
    {own : Option (Handle × Objective)} {u : Unit}
    (names : checkNames m config (newName config own) (ownName own) = .ok u) {ids : List Value}
    (used : ∀ name ∈ target.names, newName config own = .str name ∨ m.uses (.str name) = true) :
    (Convexity.add config ids).verdict target =
      .all (nameDemand config.lowerName :: nameDemand config.upperName ::
        ids.flatMap (Convexity.rowDemands config)) := by
  obtain ⟨-, differ, lowerFree, upperFree⟩ := of_checkNames names
  have fresh : ∀ added : Value, m.uses added = false → added.same (newName config own) = false →
      ∀ label, added = .str label → label ∉ target.names := by
    rintro _ unused other label rfl there
    rcases used label there with equal | used
    · simp [equal, Value.same] at other
    · simp [used] at unused
  exact Convexity.add_verdict (fresh _ lowerFree.1 lowerFree.2) (fresh _ upperFree.1 upperFree.2)
    differ

theorem decompose_verdict {first : Nat} {m : Model} {classify : Classify} {config : Config}
    (regular : m.Regular) :
    Verdict.of (decompose first m classify config) = .all (requirements m classify config) := by
  have wf := regular.toWellFormed
  rw [decompose, requirements, Verdict.all_append]
  refine Verdict.of_bind_eq (m.assignment_verdict classify) fun a assigned => ?_
  obtain ⟨vars_empty, constraints_empty⟩ := isEmpty_of_assigned assigned
  simp only [assigned, Except.toOption, Option.map_some, Option.getD_some, assignedDemands,
    vars_empty, constraints_empty]
  cases a.vars.isEmpty with
  | true => rfl
  | false =>
  cases a.constraints.isEmpty with
  | true => rfl
  | false =>
  cases hashable : Value.allHashable (KeyTable.ids a.vars ++ KeyTable.ids a.constraints) with
  | false =>
    simp only [Partition.ofAssignment?, hashable]
    rfl
  | true =>
    have sound := Model.assignment_sound wf assigned hashable
    have partitioned : Partition.ofAssignment? a = .ok (.ofAssignment a) := by
      simp only [Partition.ofAssignment?, hashable, if_true]
    simp only [partitioned, Bool.false_eq_true, if_false]
    show Verdict.of (m.objectiveInForce? >>= _) = (do Verdict.of m.objectiveInForce?; _)
    refine Verdict.of_bind _ fun own inForce => ?_
    simp only [inForce, Option.map_some, Option.getD_some, remainingDemands, Verdict.all_append,
      Verdict.all_cons]
    refine Verdict.of_bind_eq (checkNames_verdict m config own) fun _ names => ?_
    refine Verdict.of_bind_eq (checkIds_verdict _) fun _ _ => ?_
    refine Verdict.of_bind_eq (checkVerbosity_verdict _) fun _ _ => ?_
    refine Verdict.of_bind_eq (variables_verdict regular assigned sound)
      fun made declaredVars => ?_
    obtain ⟨withVariables, vars⟩ := made
    obtain ⟨builtVars, registered⟩ := variables_built wf
      (Partition.variablesOf_sound assigned sound) declaredVars
    have covers := Partition.vars_cover sound registered
    have images := hasImages_of_covers wf assigned covers
    have modelsVars := models_built (variableContents (.ofAssignment a) m) builtVars
    have listedVars : (models withVariables).map (·.1) =
        blocks (Partition.ofAssignment a).subproblemIds := by
      rw [forall₂_map_fst modelsVars, numbered, List.zipIdx_map_fst]
    have namedVars : ∀ t ∈ models withVariables,
        t.2.names = ((Partition.ofAssignment a).variablesOf t.1).map (·.1) := by
      intro t ht
      rw [built_names _ modelsVars t ht, variableContents, List.map_map]
      rfl
    refine Verdict.of_bind_eq (constraints_verdict regular assigned sound images listedVars namedVars)
      fun made declaredConstraints => ?_
    obtain ⟨withConstraints, constraints⟩ := made
    obtain ⟨builtConstraints, -⟩ := constraints_built wf
      (Partition.constraintsOf_sound assigned sound) modelsVars declaredConstraints
    let contents := fun block => variableContents (.ofAssignment a) m block ++
      constraintContents (.ofAssignment a) vars m block
    have modelsConstraints := models_built contents builtConstraints
    have sliceNames : ∀ block, ∀ name ∈ (contents block).map (·.1),
        newName config own ≠ .str name ∧ m.uses (.str name) = true := by
      intro block name hn
      refine added_names_fresh wf assigned sound inForce (of_checkNames names).1 block ?_
      simpa [contents, variableContents, constraintContents, Function.comp_def] using hn
    refine Verdict.of_bind_eq (mapObjective_verdict images own) fun mapped mappedOk => ?_
    have nonempty : models withConstraints ≠ [] := by
      intro empty
      have listed := forall₂_map_fst modelsConstraints
      simp [empty, numbered, blocks] at listed
    refine Verdict.of_bind_eq (objectives_verdict images mappedOk nonempty fun t ht name hn =>
      (sliceNames t.1 name (built_names contents modelsConstraints t ht ▸ hn)).1)
      fun withObjectives declaredObjectives => ?_
    rw [mapObjective_name config mappedOk] at declaredObjectives
    have builtObjectives := objectives_built contents modelsConstraints declaredObjectives
    have namedObjectives : ∀ t ∈ withObjectives, ∀ name ∈ t.2.names,
        newName config own = .str name ∨ m.uses (.str name) = true := by
      intro t ht name hn
      rw [built_names (fun block => contents block ++ objectiveContents mapped vars config block)
        builtObjectives t ht, List.map_append, List.mem_append] at hn
      rcases hn with slice | objective
      · exact .inr (sliceNames t.1 name slice).2
      · exact .inl (newName_of_objectiveContents mappedOk objective)
    have transfersOwned : ∀ e ∈ withConstraints.map fun t => (t.1, t.2.2), ∀ t ∈ e.2,
        ∀ term ∈ t.form.terms, ∃ owner, vars.imageOwner? term.1 = some owner := by
      intro e he
      obtain ⟨t, ht, rfl⟩ := List.mem_map.mp he
      obtain ⟨b, -, built⟩ := (exists_of_forall₂ builtConstraints).2 t ht
      exact transfers_owned images built.2.2.1
    obtain ⟨⟨couplings, coupled⟩, costs, costed⟩ :=
      tables_exist covers transfersOwned (mapObjective_owned images mappedOk)
    refine (Verdict.of_bind (.ok ()) fun rows _ => ?_).trans ?_
    · simp only [coupled, costed]
      rfl
    · rw [Verdict.bind_ok]
      refine convexity_verdict names fun name there => ?_
      cases withObjectives with
      | nil => simp [Model.empty, Model.names] at there
      | cons t rest =>
          simp only [List.map_cons, List.head?_cons, Option.getD_some, fixImages_names] at there
          exact namedObjectives t List.mem_cons_self name there

end Decomposition

end BlockAngular
