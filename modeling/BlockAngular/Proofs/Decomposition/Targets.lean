import BlockAngular.Proofs.Assignment
import BlockAngular.Proofs.Decomposition.Convexity
import BlockAngular.Proofs.Decomposition.Images
import BlockAngular.Proofs.Decomposition.Objectives
import BlockAngular.Proofs.Model.Outline

/-! # The targets of a decomposition

A decomposition that succeeds leaves a trace in its result: the model of every block has
the images of its variables, then those of its constraints, then its part of the objective,
and in the master the convexity constraints, and the registries list the places of the
images, block by block.
-/

namespace BlockAngular

namespace Decomposition

/-- The blocks with the numbers of their models, counted from zero. -/
def numbered (ids : List Value) : List (Block × Nat) :=
  (blocks ids).zipIdx

theorem forBlocks_ok {α : Type} {compact : Model} {stage : Block → Stage Staging α}
    {numbers : List (Block × Nat)} (Before : Block → Nat → Model → Prop)
    (After : Block → Nat → Model → α → Prop) (entries : Block → Nat → List Registration)
    (step : ∀ block number target registry a s, (block, number) ∈ numbers →
      Before block number target → stage block ⟨compact, target, registry⟩ = .ok a s →
        After block number s.target a ∧ registry.Extends (entries block number) s.registry)
    {targets : List (Block × Model)}
    (before : List.Forall₂ (fun b t => t.1 = b.1 ∧ Before b.1 b.2 t.2) numbers targets)
    {registry registry' : Registry} {out : List (Block × Model × α)}
    (h : forBlocks compact stage targets registry = .ok (out, registry')) :
    List.Forall₂ (fun b t => t.1 = b.1 ∧ After b.1 b.2 t.2.1 t.2.2) numbers out ∧
      registry.Extends (numbers.flatMap fun b => entries b.1 b.2) registry' := by
  induction before generalizing registry out with
  | nil =>
      cases h
      exact ⟨.nil, .refl _⟩
  | @cons b t numbers targets first _ ih =>
      obtain ⟨block, target⟩ := t
      obtain ⟨rfl, ready⟩ := first
      simp only [forBlocks, Success.bind_ok, Stage.finish_ok, Success.pure_ok, Prod.mk.injEq,
        Prod.exists] at h
      obtain ⟨a, s, ran, others, _, rest, rfl, rfl⟩ := h
      obtain ⟨done, extended⟩ := step b.1 b.2 target registry a s (by simp) ready ran
      obtain ⟨doneRest, extendedRest⟩ := ih
        (fun block number target registry a s hb =>
          step block number target registry a s (List.mem_cons_of_mem _ hb)) rest
      exact ⟨.cons ⟨rfl, done⟩ doneRest, extended.trans extendedRest⟩

/-- The model of a numbered block under construction: its number, its name, the names of its
components, which differ, and what it contains. -/
structure Built (first : Nat) (b : Block × Nat) (contents : List (String × Content)) (m : Model) :
    Prop where
  id : m.id = first + b.2
  name : m.name = modelName b.1
  names_nodup : m.names.Nodup
  contents : m.contents = contents

/-- The names in models that were built are those of their contents. -/
theorem built_names {first : Nat} (contents : Block → List (String × Content))
    {numbers : List (Block × Nat)} {targets : List (Block × Model)}
    (built : List.Forall₂ (fun b t => t.1 = b.1 ∧ Built first b (contents b.1) t.2) numbers targets) :
    ∀ t ∈ targets, t.2.names = (contents t.1).map (·.1) := by
  induction built with
  | nil => simp
  | cons first _ ih =>
      obtain ⟨same, built⟩ := first
      refine List.forall_mem_cons.mpr ⟨?_, ih⟩
      rw [← Model.contents_names, built.contents, same]

theorem emptyModels_built (first : Nat) (ids : List Value) :
    List.Forall₂ (fun b t => t.1 = b.1 ∧ Built first b [] t.2) (numbered ids)
      (emptyModels first (blocks ids)) := by
  unfold emptyModels numbered
  rw [List.forall₂_map_right_iff]
  refine List.forall₂_same.mpr fun b _ => ⟨rfl, ?_⟩
  exact ⟨rfl, rfl, .nil, rfl⟩

/-- The images of the variables of a block. -/
def variableContents (p : Partition) (m : Model) (block : Block) : List (String × Content) :=
  (p.variablesOf block).map fun (name, indices) => (name, m.variableContent name indices)

/-- The images of the constraints of a block. -/
def constraintContents (p : Partition) (vars : Registry) (m : Model) (block : Block) :
    List (String × Content) :=
  (p.constraintsOf block).map fun (name, indices) =>
    (name, constraintContent (imageReading m vars) vars block m name indices)

/-- The part of the objective that a block has. -/
def objectiveContents (objective : Option MappedObjective) (vars : Registry) (config : Config)
    (block : Block) : List (String × Content) :=
  match objective with
  | none => []
  | some o =>
    match config.objectiveNameFor o.name with
    | .str label => [(label, .objectives true (Family.optional
        (some ⟨(o.form.objectivePart vars block).toExpression, o.sense, true⟩)))]
    | _ => []

/-- The images of a block that have to be fixed, with their values. -/
def pendingOf (p : Partition) (m : Model) (first : Nat) (block : Block) (number : Nat) :
    List (Handle × Value) :=
  (p.variablesOf block).places.flatMap fun (key, position) =>
    m.fixing ⟨first + number, key.name, position⟩ key

variable {first : Nat} {m : Model} {p : Partition} {ids : List Value}

theorem variables_built (wf : m.WellFormed) (sound : ∀ block, (p.variablesOf block).Sound m)
    {out : List (Block × Model × List (Handle × Value))} {vars : Registry}
    (h : forBlocks m (fun block => registerVariables block (p.variablesOf block))
      (emptyModels first (blocks ids)) .empty = .ok (out, vars)) :
    List.Forall₂ (fun b t => t.1 = b.1 ∧ Built first b (variableContents p m b.1) t.2.1 ∧
        t.2.2 = pendingOf p m first b.1 b.2 ∧
        ∀ key ∈ (p.variablesOf b.1).keys, m.attributesOf key ≠ none) (numbered ids) out ∧
      Registry.Extends ((numbered ids).flatMap fun b =>
        m.registrations (first + b.2) b.1 (p.variablesOf b.1).places) .empty vars := by
  refine forBlocks_ok (fun block number => Built first (block, number) [])
    (fun block number target pending => Built first (block, number) (variableContents p m block) target ∧
      pending = pendingOf p m first block number ∧
      ∀ key ∈ (p.variablesOf block).keys, m.attributesOf key ≠ none)
    (fun block number => m.registrations (first + number) block (p.variablesOf block).places)
    (fun block number target registry pending s _ built ran => ?_) (emptyModels_built first ids) h
  obtain ⟨staged, rfl, taken⟩ := registerVariables_ok wf (sound block) rfl ran
  have id : target.id = first + number := built.id
  refine ⟨⟨⟨staged.target_id.trans id, staged.target_name.trans built.name,
    staged.names_nodup built.names_nodup, ?_⟩, ?_, taken⟩, ?_⟩
  · rw [staged.contents, built.contents]
    rfl
  · simp [pendingOf, Model.handle, id]
  · simpa [id] using staged.registry

theorem constraints_built (wf : m.WellFormed) (sound : ∀ block, (p.constraintsOf block).Sound m)
    {vars constraints : Registry} {targets : List (Block × Model)}
    (before : List.Forall₂ (fun b t => t.1 = b.1 ∧ Built first b (variableContents p m b.1) t.2)
      (numbered ids) targets) {out : List (Block × Model × List Transfer)}
    (h : forBlocks m (fun block => registerConstraints (imageReading m vars) vars block
      (p.constraintsOf block)) targets .empty = .ok (out, constraints)) :
    List.Forall₂ (fun b t => t.1 = b.1 ∧ Built first b
          (variableContents p m b.1 ++ constraintContents p vars m b.1) t.2.1 ∧
        List.Forall₂ (TransferOf (imageReading m vars) vars b.1 m (first + b.2))
          (p.constraintsOf b.1).places t.2.2 ∧
        ∀ key ∈ (p.constraintsOf b.1).keys,
          imageConstraint (imageReading m vars) vars b.1 m key ≠ none) (numbered ids) out ∧
      Registry.Extends ((numbered ids).flatMap fun b =>
        m.registrations (first + b.2) b.1 (p.constraintsOf b.1).places) .empty constraints := by
  refine forBlocks_ok (fun block number => Built first (block, number) (variableContents p m block))
    (fun block number target transfers => Built first (block, number)
        (variableContents p m block ++ constraintContents p vars m block) target ∧
      List.Forall₂ (TransferOf (imageReading m vars) vars block m (first + number))
        (p.constraintsOf block).places transfers ∧
      ∀ key ∈ (p.constraintsOf block).keys,
        imageConstraint (imageReading m vars) vars block m key ≠ none)
    (fun block number => m.registrations (first + number) block (p.constraintsOf block).places)
    (fun block number target registry transfers s _ built ran => ?_) before h
  obtain ⟨staged, transferred, there⟩ := registerConstraints_ok wf (sound block) rfl ran
  have id : target.id = first + number := built.id
  refine ⟨⟨⟨staged.target_id.trans id, staged.target_name.trans built.name,
    staged.names_nodup built.names_nodup, ?_⟩, ?_, there⟩, ?_⟩
  · rw [staged.contents, built.contents]
    rfl
  · simpa [id] using transferred
  · simpa [id] using staged.registry

theorem objectives_built {vars : Registry} {objective : Option MappedObjective} {config : Config}
    (contents : Block → List (String × Content)) {targets out : List (Block × Model)}
    (before : List.Forall₂ (fun b t => t.1 = b.1 ∧ Built first b (contents b.1) t.2)
      (numbered ids) targets)
    (h : addObjectives vars objective
      ((objective.map fun o => config.objectiveNameFor o.name).getD .null) targets = .ok out) :
    List.Forall₂ (fun b t => t.1 = b.1 ∧ Built first b
      (contents b.1 ++ objectiveContents objective vars config b.1) t.2) (numbered ids) out := by
  cases objective with
  | none =>
      obtain rfl := Except.ok.inj h
      simpa [objectiveContents] using before
  | some o =>
      simp only [addObjectives, Success.mapM_ok] at h
      generalize numbered ids = numbers at before ⊢
      induction before generalizing out with
      | nil =>
          cases h
          exact .nil
      | @cons b t numbers targets first_built _ ih =>
          obtain ⟨block, target⟩ := t
          obtain ⟨rfl, built⟩ := first_built
          cases h with
          | @cons _ t' _ out step rest =>
              refine .cons ?_ (ih rest)
              simp only [Success.bind_ok, Stage.finish_ok, Success.pure_ok, Prod.exists] at step
              obtain ⟨part, target', registered, rfl⟩ := step
              obtain ⟨rfl, -, label, named, fresh, rfl⟩ := registerObjective_ok registered
              refine ⟨rfl, built.id, built.name, Model.append_names_nodup fresh built.names_nodup, ?_⟩
              simp only [Option.map_some, Option.getD_some] at named
              simp [objectiveContents, named, built.contents]

/-- The objectives that are declared have a name. -/
theorem objective_named {vars : Registry} {o : MappedObjective} {name : Value}
    {t : Block × Model} {targets out : List (Block × Model)}
    (h : addObjectives vars (some o) name (t :: targets) = .ok out) :
    ∃ label, name = .str label := by
  simp only [addObjectives, Success.mapM_ok] at h
  cases h with
  | cons step _ =>
      simp only [Success.bind_ok, Stage.finish_ok, Prod.exists] at step
      obtain ⟨_, _, registered, -⟩ := step
      obtain ⟨-, -, label, named, -⟩ := registerObjective_ok registered
      exact ⟨label, named⟩

end Decomposition

namespace Reformulation

/-- The blocks with their models, the master first. -/
def targets (r : Reformulation) : List (Block × Model) :=
  (.master, r.master) :: r.subproblems.map fun s => (.subproblem s.id, s.model)

/-- All images that have to be fixed, with their values. -/
def pending (r : Reformulation) (m : Model) (first : Nat) : List (Handle × Value) :=
  (Decomposition.numbered r.ids).flatMap fun b =>
    Decomposition.pendingOf r.partition m first b.1 b.2

/-- What the target of a block contains but for the convexity constraints, before anything
is fixed. -/
def contentsOf (r : Reformulation) (m : Model) (config : Config) (block : Block) :
    List (String × Content) :=
  Decomposition.variableContents r.partition m block ++
    Decomposition.constraintContents r.partition r.vars m block ++
      Decomposition.objectiveContents r.objective r.vars config block

/-- How the model of a block comes out of one that has everything but the convexity
constraints, and no fixed variables. -/
def Finished (config : Config) (ids : List Value) (pending : List (Handle × Value))
    (block : Block) (base target : Model) : Prop :=
  match block with
  | .subproblem _ => target = fixImages pending base
  | .master => ∃ lowerName upperName, config.lowerName = .str lowerName ∧
      config.upperName = .str upperName ∧ upperName ≠ lowerName ∧
      lowerName ∉ (fixImages pending base).names ∧ upperName ∉ (fixImages pending base).names ∧
      target = Convexity.extended config lowerName upperName ids (fixImages pending base)

/-- What is known of the result of a decomposition. -/
structure Trace (first : Nat) (m : Model) (classify : Classify) (config : Config)
    (r : Reformulation) : Prop where
  assigned : m.assignment classify = .ok r.assignment
  sound : r.assignment.Sound
  partition_eq : r.partition = Partition.ofAssignment r.assignment
  ids_eq : r.ids = r.partition.subproblemIds
  vars : Registry.Extends ((Decomposition.numbered r.ids).flatMap fun b =>
    m.registrations (first + b.2) b.1 (r.partition.variablesOf b.1).places) .empty r.vars
  constraints : Registry.Extends ((Decomposition.numbered r.ids).flatMap fun b =>
    m.registrations (first + b.2) b.1 (r.partition.constraintsOf b.1).places) .empty r.constraints
  attributes : ∀ b ∈ Decomposition.numbered r.ids,
    ∀ key ∈ (r.partition.variablesOf b.1).keys, m.attributesOf key ≠ none
  images : ∀ b ∈ Decomposition.numbered r.ids, ∀ key ∈ (r.partition.constraintsOf b.1).keys,
    imageConstraint (Decomposition.imageReading m r.vars) r.vars b.1 m key ≠ none
  targets : List.Forall₂ (fun b t => t.1 = b.1 ∧ ∃ base,
      Decomposition.Built first b (r.contentsOf m config b.1) base ∧
        Finished config r.ids (r.pending m first) b.1 base t.2)
    (Decomposition.numbered r.ids) r.targets
  transfers : List.Forall₂ (fun b t => t.1 = b.1 ∧ List.Forall₂
    (TransferOf (Decomposition.imageReading m r.vars) r.vars b.1 m (first + b.2))
      (r.partition.constraintsOf b.1).places t.2) (Decomposition.numbered r.ids) r.transfers
  objective : ∃ own, m.objectiveInForce? = .ok own ∧
    Decomposition.mapObjective m r.vars own = .ok r.objective
  named : ∀ o ∈ r.objective, ∃ label, config.objectiveNameFor o.name = .str label
  rows : ∃ lowerName upperName, config.lowerName = .str lowerName ∧ config.upperName = .str upperName ∧
    r.convexityLower = Convexity.rowsFor first lowerName r.ids ∧
      r.convexityUpper = Convexity.rowsFor first upperName r.ids
  couplings : ∃ tables,
    couplingTables (Decomposition.masterTransfers r.transfers) r.vars r.ids = .ok tables ∧
      ∀ s ∈ r.subproblems, s.coupling = (Value.lookup? s.id tables).getD []
  costs : ∃ tables, costTables (r.objective.map (·.form)) r.vars r.ids = .ok tables ∧
      ∀ s ∈ r.subproblems, s.costs = (Value.lookup? s.id tables).getD []

end Reformulation

namespace Decomposition

/-- The mapped objective goes by the name of the objective in force. -/
theorem mapObjective_name {m : Model} {vars : Registry} {own : Option (Handle × Objective)}
    {mapped : Option MappedObjective} (config : Config) (h : mapObjective m vars own = .ok mapped) :
    own.map (fun (h, _) => config.objectiveNameFor h.component) =
      mapped.map fun o => config.objectiveNameFor o.name := by
  cases own with
  | none =>
      obtain rfl := Except.ok.inj h
      rfl
  | some o =>
      simp only [mapObjective, Success.bind_ok, Success.pure_ok] at h
      obtain ⟨form, -, rfl⟩ := h
      rfl

theorem models_built {α : Type} {first : Nat} {numbers : List (Block × Nat)}
    (contents : Block → List (String × Content)) {Also : Block × Nat → Block × Model × α → Prop}
    {out : List (Block × Model × α)}
    (h : List.Forall₂ (fun b t => t.1 = b.1 ∧ Built first b (contents b.1) t.2.1 ∧ Also b t)
      numbers out) :
    List.Forall₂ (fun b t => t.1 = b.1 ∧ Built first b (contents b.1) t.2) numbers
      (models out) :=
  List.forall₂_map_right_iff.mpr (h.imp fun _ _ b => ⟨b.1, b.2.1⟩)

theorem subproblems_of_blocks {targets : List (Block × Model)} {ids : List Value}
    (couplings : List (Value × CouplingTable Float)) (costs : List (Value × CostTable Float))
    (blocks : targets.map (·.1) = ids.map .subproblem) :
    (subproblems targets couplings costs).map (fun s => (Block.subproblem s.id, s.model)) =
        targets ∧ (subproblems targets couplings costs).map (·.id) = ids := by
  induction targets generalizing ids with
  | nil =>
      cases ids with
      | nil => exact ⟨rfl, rfl⟩
      | cons => cases blocks
  | cons t targets ih =>
      cases ids with
      | nil => cases blocks
      | cons id ids =>
          obtain ⟨block, target⟩ := t
          obtain ⟨rfl, rest⟩ := List.cons.inj blocks
          obtain ⟨models, names⟩ := ih rest
          simp only [subproblems] at models names ⊢
          exact ⟨by simp [models], by simp [names]⟩

theorem tables_of_mem_subproblems {targets : List (Block × Model)}
    {couplings : List (Value × CouplingTable Float)} {costs : List (Value × CostTable Float)}
    {s : Subproblem} (h : s ∈ subproblems targets couplings costs) :
    s.coupling = (Value.lookup? s.id couplings).getD [] ∧
      s.costs = (Value.lookup? s.id costs).getD [] := by
  simp only [subproblems, List.mem_filterMap] at h
  obtain ⟨⟨block, target⟩, -, made⟩ := h
  cases block with
  | master => cases made
  | subproblem id =>
      cases made
      exact ⟨rfl, rfl⟩

theorem forall₂_map_fst {α β γ : Type} {numbers : List (α × β)} {out : List (α × γ)}
    {P : α × β → α × γ → Prop} (h : List.Forall₂ (fun b t => t.1 = b.1 ∧ P b t) numbers out) :
    out.map (·.1) = numbers.map (·.1) := by
  induction h with
  | nil => rfl
  | cons first _ ih => simp [first.1, ih]

theorem flatMap_of_forall₂ {α β γ : Type} {f : α → List γ} {g : β → List γ} {as : List α}
    {bs : List β} (h : List.Forall₂ (fun a b => g b = f a) as bs) :
    bs.flatMap g = as.flatMap f := by
  induction h with
  | nil => rfl
  | cons first _ ih => simp [first, ih]

theorem partition_of_ok {a : Assignment} {p : Partition} (h : Partition.ofAssignment? a = .ok p) :
    Value.allHashable (KeyTable.ids a.vars ++ KeyTable.ids a.constraints) = true ∧
      p = .ofAssignment a := by
  unfold Partition.ofAssignment? at h
  split at h
  · exact ⟨‹_›, (Except.ok.inj h).symm⟩
  · cases h

theorem decompose_trace {first : Nat} {m : Model} {classify : Classify} {config : Config}
    {r : Reformulation} (wf : m.WellFormed) (h : decompose first m classify config = .ok r) :
    r.Trace first m classify config := by
  simp only [decompose, Success.bind_ok] at h
  obtain ⟨assignment, assigned, h⟩ := h
  split at h
  · simp at h
  split at h
  · simp at h
  simp only [Success.bind_ok, Success.mapError_ok, Stage.finish_ok, Success.pure_ok,
    Prod.exists] at h
  obtain ⟨p, partitioned, own, inForce, _, -, _, -, _, -, withVariables, vars, declaredVars,
    withConstraints, constraints, declaredConstraints, mapped, mappedOk, withObjectives,
    declaredObjectives, lower, upper, master, convexity, couplings, coupled, costs, costed,
    made⟩ := h
  obtain ⟨hashable, rfl⟩ := partition_of_ok partitioned
  have sound := Model.assignment_sound wf assigned hashable
  have distinct := Partition.subproblemIds_distinct sound
  generalize ids_eq : (Partition.ofAssignment assignment).subproblemIds = ids at *
  obtain ⟨builtVars, registeredVars⟩ := variables_built wf
    (Partition.variablesOf_sound assigned sound) declaredVars
  obtain ⟨builtConstraints, registeredConstraints⟩ := constraints_built wf
    (Partition.constraintsOf_sound assigned sound) (models_built _ builtVars) declaredConstraints
  rw [mapObjective_name config mappedOk] at declaredObjectives
  have named : ∀ o ∈ mapped, ∃ label, config.objectiveNameFor o.name = .str label := by
    rintro o rfl
    cases builtConstraints with
    | cons => exact objective_named declaredObjectives
  let contents := fun block => variableContents (.ofAssignment assignment) m block ++
    constraintContents (.ofAssignment assignment) vars m block
  have builtObjectives := objectives_built contents (models_built contents builtConstraints)
    declaredObjectives
  have pendings : withVariables.flatMap (fun t => t.2.2) =
      (numbered ids).flatMap fun b => pendingOf (.ofAssignment assignment) m first b.1 b.2 :=
    flatMap_of_forall₂ (builtVars.imp fun _ _ b => b.2.2.1)
  rw [pendings] at convexity made
  generalize pending_eq : (numbered ids).flatMap (fun b =>
    pendingOf (.ofAssignment assignment) m first b.1 b.2) = pending at *
  have numbers : numbered ids = (.master, 0) :: (ids.map .subproblem).zipIdx 1 := rfl
  have ofAll := builtObjectives
  rw [numbers] at ofAll
  cases ofAll with
  | @cons _ t _ others ofMaster ofOthers =>
      obtain ⟨block, base⟩ := t
      obtain ⟨rfl, builtMaster⟩ := ofMaster
      simp only [List.map_cons, List.head?_cons, Option.getD_some] at convexity
      obtain ⟨lowerName, upperName, lowerNamed, upperNamed, lowerFresh, upperFresh, different,
        rfl, rows⟩ := Convexity.add_ok distinct convexity
      rw [fixImages_id, builtMaster.id] at rows
      obtain ⟨rfl, rfl⟩ := Prod.mk.inj rows
      have blocks_eq : (others.map fun t => (t.1, fixImages pending t.2)).map
          (·.1) = ids.map .subproblem := by
        rw [List.map_map]
        show others.map (·.1) = _
        rw [forall₂_map_fst ofOthers, List.zipIdx_map_fst]
      obtain ⟨models_eq, ids_listed⟩ := subproblems_of_blocks couplings costs blocks_eq
      have own_ids : r.ids = ids := by rw [← made]; exact ids_listed
      have own_vars : r.vars = vars := by rw [← made]
      have own_partition : r.partition = .ofAssignment assignment := by rw [← made]
      have own_objective : r.objective = mapped := by rw [← made]
      have own_transfers : r.transfers = withConstraints.map fun t => (t.1, t.2.2) := by rw [← made]
      have own_tables : ∀ s ∈ r.subproblems, s.coupling = (Value.lookup? s.id couplings).getD [] ∧
          s.costs = (Value.lookup? s.id costs).getD [] := by
        rw [← made]
        exact fun s => tables_of_mem_subproblems
      have own_targets : r.targets = (.master, Convexity.extended config lowerName upperName ids
          (fixImages pending base)) ::
            others.map fun t => (t.1, fixImages pending t.2) := by
        rw [← made]
        exact congrArg _ models_eq
      have own_pending : r.pending m first = pending := by
        rw [Reformulation.pending, own_ids, own_partition, pending_eq]
      have own_contents : ∀ block, r.contentsOf m config block = contents block ++
          objectiveContents mapped vars config block := by
        intro block
        rw [Reformulation.contentsOf, own_partition, own_vars, own_objective]
      refine {
        assigned := by rw [← made]; exact assigned
        sound := by rw [← made]; exact sound
        partition_eq := by rw [← made]
        ids_eq := by rw [own_ids, own_partition, ids_eq]
        vars := by rw [own_ids, own_partition, own_vars]; exact registeredVars
        constraints := by
          rw [own_ids, own_partition, ← made]
          exact registeredConstraints
        attributes := ?_
        images := ?_
        targets := ?_
        transfers := ?_
        objective := ⟨own, inForce, by rw [own_vars, own_objective]; exact mappedOk⟩
        named := by rw [own_objective]; exact named
        rows := ⟨lowerName, upperName, lowerNamed, upperNamed, by rw [own_ids, ← made]; rfl,
          by rw [own_ids, ← made]; rfl⟩
        couplings := ⟨couplings, by rw [own_transfers, own_vars, own_ids]; exact coupled,
          fun s hs => (own_tables s hs).1⟩
        costs := ⟨costs, by rw [own_objective, own_vars, own_ids]; exact costed,
          fun s hs => (own_tables s hs).2⟩ }
      · rw [own_ids, own_partition]
        exact ((List.forall₂_and_left _ _).mp (builtVars.imp fun _ _ b => ⟨b.2.2.2, b⟩)).1
      · rw [own_ids, own_partition, own_vars]
        exact ((List.forall₂_and_left _ _).mp (builtConstraints.imp fun _ _ b => ⟨b.2.2.2, b⟩)).1
      · simp only [own_ids, own_targets, own_pending, own_contents, numbers]
        refine .cons ⟨rfl, base, builtMaster, lowerName, upperName, lowerNamed, upperNamed, different,
          lowerFresh, upperFresh, rfl⟩ ?_
        rw [List.zipIdx_map, List.forall₂_map_left_iff] at ofOthers ⊢
        exact List.forall₂_map_right_iff.mpr
          (ofOthers.imp fun _ t b => ⟨b.1, t.2, b.2, rfl⟩)
      · rw [own_ids, own_vars, own_partition, own_transfers]
        exact List.forall₂_map_right_iff.mpr (builtConstraints.imp fun _ _ b => ⟨b.1, b.2.2.1⟩)

end Decomposition

end BlockAngular
