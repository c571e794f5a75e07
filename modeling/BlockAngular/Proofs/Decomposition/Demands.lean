import BlockAngular.Proofs.Decomposition.Placement
import BlockAngular.Proofs.Decomposition.Progress

/-! # What a decomposition asks for

The steps of a decomposition in terms of what they refuse. Images can be registered block by
block, since their names are new in every target and no element is met twice; the terms of
every form find the blocks of their images, and with them their tables.
-/

namespace BlockAngular

open Decomposition

section Tables

variable {α β : Type} {registry : Registry} {ids : List Value}

theorem exists_emptyTables (distinct : Value.Distinct ids) :
    ∃ tables : List (Value × List α), emptyTables ids = .ok tables := by
  have hashable : Value.allHashable ids = true :=
    Value.allHashable_iff.mpr fun id hid => (distinct.keys id hid).hashable
  simp only [emptyTables, hashable, if_true]
  exact ⟨_, rfl⟩

theorem exists_changeTable {id : Value} (f : α → α) {tables : List (Value × α)}
    (known : ∃ e ∈ tables, e.1.same id = true) :
    ∃ changed, changeTable id f tables = .ok changed := by
  induction tables with
  | nil => simp at known
  | cons e rest ih =>
      obtain ⟨k, a⟩ := e
      by_cases same : k.same id = true
      · exact ⟨(k, f a) :: rest, by simp [changeTable, same]⟩
      · obtain ⟨changed, done⟩ := ih (by simpa [same] using known)
        exact ⟨(k, a) :: changed, by simp [changeTable, same, done]⟩

/-- An image that lives in one of the blocks finds the table of its block. -/
theorem exists_changeOwned (distinct : Value.Distinct ids) {image : Handle} {block : Block}
    (listed : block ∈ blocks ids) (owned : registry.imageOwner? image = some block) (f : α → α)
    (table : Value → α) : ∃ changed,
      changeOwned registry image f (ids.map fun own => (own, table own)) = .ok changed := by
  rw [changeOwned, Registry.imageOwner_ok.mpr owned]
  cases block with
  | master => exact ⟨_, rfl⟩
  | subproblem id =>
      have hid : id ∈ ids := by simpa [blocks] using listed
      have known : ∃ e ∈ ids.map fun own => (own, table own), e.1.same id = true :=
        ⟨(id, table id), List.mem_map_of_mem hid, (distinct.keys id hid).same_self⟩
      obtain ⟨changed, done⟩ := exists_changeTable f known
      exact ⟨changed, by simp [bind, Except.bind, (distinct.keys id hid).hashable, done]⟩

theorem exists_foldlM_changeOwned (distinct : Value.Distinct ids) (entries : List β)
    (image : β → Handle) (f : β → α → α)
    (owned : ∀ e ∈ entries, ∃ block ∈ blocks ids, registry.imageOwner? (image e) = some block)
    (table : Value → α) : ∃ tables,
      entries.foldlM (fun tables e => changeOwned registry (image e) (f e) tables)
        (ids.map fun own => (own, table own)) = .ok tables := by
  induction entries generalizing table with
  | nil => exact ⟨_, rfl⟩
  | cons e entries ih =>
      obtain ⟨⟨block, listed, first⟩, others⟩ := List.forall_mem_cons.mp owned
      obtain ⟨changed, done⟩ := exists_changeOwned distinct listed first (f e) table
      obtain ⟨-, rfl⟩ := changeOwned_ok distinct done
      obtain ⟨tables, rest⟩ := ih others fun own =>
        if registry.livesIn (.subproblem own) (image e) then f e (table own) else table own
      exact ⟨tables, by rw [List.foldlM_cons, done]; exact rest⟩

/-- The costs of a form over images find their tables. -/
theorem exists_costTables (distinct : Value.Distinct ids) {objective : Option AffineForm}
    (owned : ∀ form ∈ objective, ∀ term ∈ form.terms,
      ∃ block ∈ blocks ids, registry.imageOwner? term.1 = some block) :
    ∃ tables, costTables objective registry ids = .ok tables := by
  obtain ⟨empty, started⟩ := exists_emptyTables (α := Handle × Float) distinct
  rw [costTables, started]
  obtain rfl := emptyTables_ok distinct started
  refine exists_foldlM_changeOwned distinct ((objective.map (·.terms)).getD [])
    (·.1) (fun term => Handle.put term.1 term.2) (fun term ht => ?_) fun _ => []
  cases objective with
  | none => simp at ht
  | some form => exact owned form rfl term ht

/-- The terms of the constraints of the master find their tables. -/
theorem exists_couplingTables (distinct : Value.Distinct ids) {transfers : List Transfer}
    (owned : ∀ t ∈ transfers, ∀ term ∈ t.form.terms,
      ∃ block ∈ blocks ids, registry.imageOwner? term.1 = some block) :
    ∃ tables, couplingTables transfers registry ids = .ok tables := by
  obtain ⟨empty, started⟩ :=
    exists_emptyTables (α := Handle × List (Handle × Float)) distinct
  rw [couplingTables, started]
  obtain rfl := emptyTables_ok distinct started
  refine exists_foldlM_changeOwned distinct (transfers.flatMap Transfer.entries) (·.2.1)
    (fun e table => CouplingTable.addPair table e.2.1 e.1 e.2.2) (fun e he => ?_) fun _ => []
  obtain ⟨t, ht, he⟩ := List.mem_flatMap.mp he
  obtain ⟨term, hterm, rfl⟩ := List.mem_map.mp he
  exact owned t ht term hterm

end Tables

namespace Decomposition

/-- The blocks take their turns, and the registry goes from one to the next. -/
theorem forBlocks_verdict {α : Type} {compact : Model} {stage : Block → Stage Staging α}
    (demand : Block → Verdict) (ready : List (Block × Model) → Registry → Prop)
    (step : ∀ block target rest registry, ready ((block, target) :: rest) registry →
      (stage block).verdict ⟨compact, target, registry⟩ = demand block ∧
        ∀ a s, stage block ⟨compact, target, registry⟩ = .ok a s → ready rest s.registry)
    {targets : List (Block × Model)} {registry : Registry} (start : ready targets registry) :
    Verdict.of (forBlocks compact stage targets registry) =
      .all (targets.map fun t => demand t.1) := by
  induction targets generalizing registry with
  | nil => rfl
  | cons t targets ih =>
      obtain ⟨block, target⟩ := t
      obtain ⟨first, next⟩ := step block target targets registry start
      rw [forBlocks, List.map_cons, Verdict.all_cons, ← first]
      refine Verdict.of_bind _ fun a done => ?_
      obtain ⟨a, s⟩ := a
      refine (Verdict.of_bind (.ok ()) fun _ _ => rfl).trans ?_
      rw [Verdict.bind_ok, ih (next a s (Stage.finish_ok.mp done))]

end Decomposition

namespace KeyTable.Sound

variable {table : KeyTable} {m : Model} {ids : List Value}

/-- No element is met twice when the blocks take their turns. -/
theorem preimages_nodup (sound : table.Sound) (wf : m.WellFormed) (distinct : Value.Distinct ids)
    (declared : ∀ key ∈ table.map (·.1), m.Declares key) :
    ((Decomposition.blocks ids).flatMap fun block =>
      (table.sliceOf block).places.map fun place => m.preimageOf place.1).Nodup := by
  have keys : ((Decomposition.blocks ids).flatMap fun block => (table.sliceOf block).places.map (·.1)).Nodup := by
    refine List.nodup_flatMap.mpr ⟨fun block _ => ?_, ?_⟩
    · refine ((Slice.places_keys_perm _).trans ?_).nodup_iff.mpr (sound.keysOf_distinct block).nodup
      exact Slice.keys_ofKeys_perm (sound.keysOf_distinct block)
    · refine (blocks_pairwise distinct).imp_of_mem fun {a b} ha hb apart => ?_
      simp only [Function.onFun, List.disjoint_left, (Slice.places_keys_perm _).mem_iff,
        sound.mem_sliceOf]
      rintro key ⟨own, he, same⟩ ⟨own', he', same'⟩
      obtain rfl := sound.block_unique he he'
      have back := Block.same_symm (sound.blocks _ he) same
      rw [Block.same_trans (blocks_isKey distinct ha) back same'] at apart
      cases apart
  have listed : ((Decomposition.blocks ids).flatMap fun block =>
      (table.sliceOf block).places.map fun place => m.preimageOf place.1) =
        ((Decomposition.blocks ids).flatMap fun block => (table.sliceOf block).places.map (·.1)).map
          m.preimageOf := by
    simp [List.map_flatMap, Function.comp_def]
  have known : ∀ key ∈ (Decomposition.blocks ids).flatMap (fun block => (table.sliceOf block).places.map (·.1)),
      m.Declares key := by
    intro key hk
    obtain ⟨block, -, hk⟩ := List.mem_flatMap.mp hk
    obtain ⟨own, he, -⟩ := sound.mem_sliceOf.mp ((Slice.places_keys_perm _).mem_iff.mp hk)
    exact declared key (List.mem_map_of_mem (f := (·.1)) he)
  rw [listed]
  exact List.Nodup.map_on
    (fun a ha b hb equal => (known a ha).key_unique wf (known b hb) equal) keys

end KeyTable.Sound

/-- Targets that slices can be registered in, one after the other. -/
structure Staging.Await (m : Model) (slices : Block → Slice) (targets : List (Block × Model))
    (registry : Registry) : Prop where
  names : ∀ t ∈ targets, (t.2.names ++ (slices t.1).map (·.1)).Nodup
  new : (registry.preimages ++ targets.flatMap fun t =>
    (slices t.1).places.map fun place => m.preimageOf place.1).Nodup

namespace Staging.Await

variable {m target : Model} {slices : Block → Slice} {block : Block} {rest : List (Block × Model)}
variable {registry : Registry}

theorem isReady (h : Await m slices ((block, target) :: rest) registry)
    (sound : (slices block).Sound m) : IsReady m (slices block) ⟨m, target, registry⟩ where
  sound := sound
  compact := rfl
  names := h.names _ List.mem_cons_self
  new := by
    have new := h.new
    rw [List.flatMap_cons, ← List.append_assoc] at new
    exact (List.nodup_append.mp new).1

theorem next (h : Await m slices ((block, target) :: rest) registry)
    {added : List (String × Content)} {s : Staging}
    (staged : Staged m block (slices block).places added ⟨m, target, registry⟩ s) :
    Await m slices rest s.registry where
  names t ht := h.names t (List.mem_cons_of_mem _ ht)
  new := by
    have new := h.new
    rw [List.flatMap_cons, ← List.append_assoc] at new
    rwa [staged.registry.preimages, Model.registrations_preimages]

/-- At the start all elements are new. -/
theorem start {table : KeyTable} {ids : List Value} {targets : List (Block × Model)}
    (sound : table.Sound) (wf : m.WellFormed) (distinct : Value.Distinct ids)
    (declared : ∀ key ∈ table.map (·.1), m.Declares key) (slices_eq : slices = table.sliceOf)
    (listed : targets.map (·.1) = blocks ids)
    (names : ∀ t ∈ targets, (t.2.names ++ (slices t.1).map (·.1)).Nodup) :
    Await m slices targets .empty where
  names := names
  new := by
    have nodup := sound.preimages_nodup wf distinct declared
    rw [← listed, List.flatMap_map] at nodup
    rw [slices_eq]
    simpa [Registry.preimages, Registry.empty] using nodup

/-- The demands of a stage that registers a slice come block by block. -/
theorem verdict {α : Type} {stage : Block → Stage Staging α} {demands : Block → List Verdict}
    (sounds : ∀ block, (slices block).Sound m)
    (step : ∀ block s, IsReady m (slices block) s → (stage block).verdict s = .all (demands block) ∧
      ∀ a t, stage block s = .ok a t → ∃ added, Staged m block (slices block).places added s t)
    {targets : List (Block × Model)} (h : Await m slices targets registry) :
    Verdict.of (forBlocks m stage targets registry) = .all ((targets.map (·.1)).flatMap demands) := by
  rw [forBlocks_verdict (fun block => .all (demands block)) (Await m slices) ?_ h,
    Verdict.all_flatMap, List.map_map]
  · rfl
  · intro block target rest registry awaits
    obtain ⟨first, done⟩ := step block _ (awaits.isReady (sounds block))
    refine ⟨first, fun a s ran => ?_⟩
    obtain ⟨added, staged⟩ := done a s ran
    exact awaits.next staged

end Staging.Await

namespace Decomposition

variable {first : Nat} {m : Model} {classify : Classify} {a : Assignment}

theorem emptyModels_blocks (first : Nat) (list : List Block) :
    (emptyModels first list).map (·.1) = list := by
  rw [emptyModels, List.map_map]
  exact List.zipIdx_map_fst 0 list

theorem emptyModels_names {t : Block × Model} {list : List Block}
    (h : t ∈ emptyModels first list) : t.2.names = [] := by
  obtain ⟨⟨block, i⟩, -, rfl⟩ := List.mem_map.mp h
  rfl

/-- The demands on the variables. -/
def variableDemands (m : Model) (p : Partition) : List Verdict :=
  (blocks p.subproblemIds).flatMap fun block =>
    (p.variablesOf block).places.map fun place => m.boundsDemand place.1

/-- The demands on the constraints. -/
def constraintDemands (m : Model) (p : Partition) : List Verdict :=
  (blocks p.subproblemIds).flatMap fun block =>
    (p.constraintsOf block).flatMap fun (name, indices) => m.constraintDemands name indices

theorem variables_verdict (regular : m.Regular) (assigned : m.assignment classify = .ok a)
    (sound : a.Sound) : Verdict.of (forBlocks m
      (fun block => registerVariables block ((Partition.ofAssignment a).variablesOf block))
      (emptyModels first (blocks (Partition.ofAssignment a).subproblemIds)) .empty) =
      .all (variableDemands m (.ofAssignment a)) := by
  have sounds := Partition.variablesOf_sound assigned sound
  have awaits : Staging.Await m (Partition.ofAssignment a).variablesOf
      (emptyModels first (blocks (Partition.ofAssignment a).subproblemIds)) .empty := by
    refine .start sound.vars regular.toWellFormed (Partition.subproblemIds_distinct sound) ?_
      (funext (Partition.variablesOf_ofAssignment sound)) (emptyModels_blocks _ _) fun t ht => ?_
    · rw [(Model.assignment_keys assigned).1]
      intro key hk
      obtain ⟨⟨_, handle⟩, hv, rfl⟩ := List.mem_map.mp hk
      exact Model.declares_of_mem_vars hv
    · rw [emptyModels_names ht]
      exact (sounds t.1).grouped.names_nodup
  rw [awaits.verdict sounds fun block s ready => ⟨registerVariables_verdict regular ready,
    fun pending t done => ⟨_, (registerVariables_ok regular.toWellFormed (sounds block)
      ready.compact done).1⟩⟩, emptyModels_blocks]
  rfl

theorem constraints_verdict (regular : m.Regular) (assigned : m.assignment classify = .ok a)
    (sound : a.Sound) {vars : Registry} (images : vars.HasImages m)
    {targets : List (Block × Model)}
    (listed : targets.map (·.1) = blocks (Partition.ofAssignment a).subproblemIds)
    (named : ∀ t ∈ targets, t.2.names = ((Partition.ofAssignment a).variablesOf t.1).map (·.1)) :
    Verdict.of (forBlocks m (fun block => registerConstraints (imageReading m vars) vars block
      ((Partition.ofAssignment a).constraintsOf block)) targets .empty) =
      .all (constraintDemands m (.ofAssignment a)) := by
  have sounds := Partition.constraintsOf_sound assigned sound
  have awaits : Staging.Await m (Partition.ofAssignment a).constraintsOf targets .empty := by
    refine .start sound.constraints regular.toWellFormed (Partition.subproblemIds_distinct sound) ?_
      (funext (Partition.constraintsOf_ofAssignment sound)) listed fun t ht => ?_
    · rw [(Model.assignment_keys assigned).2]
      intro key hk
      obtain ⟨⟨_, handle⟩, hc, rfl⟩ := List.mem_map.mp hk
      exact Model.declares_of_mem_constraints hc
    · rw [named t ht]
      exact Partition.names_apart regular.toWellFormed assigned sound t.1
  rw [awaits.verdict sounds fun block s ready => ⟨registerConstraints_verdict regular images ready,
    fun transfers t done => ⟨_, (registerConstraints_ok regular.toWellFormed (sounds block)
      ready.compact done).1⟩⟩, listed]
  rfl

/-- The demand on the name of a component that the decomposition adds: text that is not
reserved. -/
def nameDemand (name : Value) : Verdict := do
  let label ← (Config.asName name).mapError .fault
  Verdict.require (Reserved.inModel label = false) (.fault .badValue)

/-- The demands on the objective. -/
def objectiveDemands (m : Model) : Option (Handle × Objective) → List Verdict
  | none => []
  | some (_, o) => [.of (m.formOf "objective" o.body)]

theorem mapObjective_verdict {vars : Registry} (images : vars.HasImages m)
    (own : Option (Handle × Objective)) :
    Verdict.of (mapObjective m vars own) = .all (objectiveDemands m own) := by
  cases own with
  | none => rfl
  | some own =>
      obtain ⟨h, o⟩ := own
      simp only [mapObjective, Model.mapped_eq_formOf images, objectiveDemands, Verdict.all_cons,
        Verdict.all_nil, Verdict.bind_ok]
      cases m.formOf "objective" o.body <;> rfl

/-- The objectives of all blocks are refused for their name or not at all. -/
theorem addObjectives_verdict {vars : Registry} {o : MappedObjective} {name : Value}
    {targets : List (Block × Model)} (nonempty : targets ≠ [])
    (owned : ∀ term ∈ o.form.terms, ∃ owner, vars.imageOwner? term.1 = some owner)
    (fresh : ∀ label, name = .str label → ∀ t ∈ targets, label ∉ t.2.names) :
    Verdict.of (addObjectives vars (some o) name targets) = nameDemand name := by
  have each : ∀ t ∈ targets,
      (registerObjective vars t.1 name o.sense o.form t.1.isMaster).verdict t.2 =
        nameDemand name := by
    intro t ht
    rw [registerObjective, AffineForm.restrict_of_owned _ owned, nameDemand]
    simp only [Stage.verdict_ofExcept_bind, Stage.verdict_ofFault_bind, Stage.verdict_bind_pure]
    cases named : Config.asName name with
    | error e => rfl
    | ok label =>
        have text : name = .str label := by cases name <;> simp_all [Config.asName]
        exact Model.addObjectiveOf_verdict (fresh label text t ht)
  have steps : Verdict.of (addObjectives vars (some o) name targets) =
      .all (targets.map fun _ => nameDemand name) := by
    rw [addObjectives, Verdict.of_mapM]
    refine congrArg Verdict.all (List.map_congr_left fun t ht => ?_)
    exact ((Verdict.of_bind (.ok ()) fun _ _ => rfl).trans
      (Verdict.bind_ok _)).trans (each t ht)
  rw [steps]
  cases targets with
  | nil => contradiction
  | cons t targets =>
      cases demand : nameDemand name with
      | error e => rfl
      | ok => exact Verdict.all_eq_ok.mpr (by simp)

end Decomposition

namespace Convexity

variable {m : Model} {name : Value}

theorem declare_verdict (fresh : ∀ label, name = .str label → label ∉ m.names) :
    (declare name).verdict m = nameDemand name := by
  rw [declare, Stage.verdict_ofFault_bind, nameDemand]
  cases named : Config.asName name with
  | error e => rfl
  | ok label =>
      have text : name = .str label := by cases name <;> simp_all [Config.asName]
      exact (Stage.verdict_bind_pure (g := fun _ => label)).trans
        (Model.declare_verdict _ _ (fresh label text))

/-- A side is refused unless it is a number. -/
theorem emptyRow_verdict (side : Value) (isLower : Bool) :
    Verdict.of ((emptyRow side isLower).mapError .fault) =
      .require (side.literal?.isSome = true) (.fault .badValue) := by
  unfold emptyRow
  cases side.literal? with
  | none => rfl
  | some x => cases isLower <;> rfl

/-- The demands on the constraints of an id: it must be fit for an index, and the sides must
be numbers. -/
def rowDemands (config : Config) (id : Value) : List Verdict :=
  [.of ((indexable id).mapError .fault),
    .require (config.lowerRhs.literal?.isSome = true) (.fault .badValue),
    .require (config.upperRhs.literal?.isSome = true) (.fault .badValue)]

theorem indexable_iff {id : Value} :
    indexable id = .ok () ↔ id.hashable = true ∧ id ≠ .dots := by
  unfold indexable
  split
  · simp
  · rename_i other
    simpa using fun _ => other

theorem rowDemands_met {config : Config} {id : Value} :
    (∀ v ∈ rowDemands config id, v = .ok ()) ↔ (id.hashable = true ∧ id ≠ .dots) ∧
      config.lowerRhs.literal?.isSome = true ∧ config.upperRhs.literal?.isSome = true := by
  simp [rowDemands, indexable_iff]

theorem addRow_verdict {label : String} {side : Value} {isLower : Bool} {id : Value} :
    (addRow label side isLower id).verdict m = .all [.of ((indexable id).mapError .fault),
      .require (side.literal?.isSome = true) (.fault .badValue)] := by
  have row := emptyRow_verdict side isLower
  simp only [addRow, Stage.verdict_ofFault_bind, Stage.verdict_modify, Verdict.bind_const_ok, row,
    Verdict.all_cons, Verdict.all_nil]
  cases indexable id
  · rfl
  · exact (Verdict.bind_ok _).symm

theorem addRows_verdict {config : Config} {lower upper : String} {ids : List Value}
    (rows : Rows × Rows) : (addRows config lower upper ids rows).verdict m =
      .all (ids.flatMap (rowDemands config)) := by
  induction ids generalizing m rows with
  | nil => rfl
  | cons id ids ih =>
      obtain ⟨lowerRows, upperRows⟩ := rows
      have second : ∀ t : Model, (do
          addRow upper config.upperRhs false id
          let m ← get
          addRows config lower upper ids (Value.insertEntry id (rowOf lower id m) lowerRows,
            Value.insertEntry id (rowOf upper id m) upperRows) : Stage Model _).verdict t = (do
          Verdict.all [.of ((indexable id).mapError .fault),
            .require (config.upperRhs.literal?.isSome = true) (.fault .badValue)]
          Verdict.all (ids.flatMap (rowDemands config))) := fun t => by
        rw [Stage.verdict_bind _ fun _ _ _ => ?_, addRow_verdict]
        exact Stage.verdict_get_bind.trans (ih _)
      rw [addRows, Stage.verdict_bind _ fun _ t _ => second t, addRow_verdict, List.flatMap_cons,
        Verdict.all_append, rowDemands]
      cases indexable id with
      | error e => rfl
      | ok => cases config.lowerRhs.literal? <;> rfl

/-- The convexity constraints are refused for their names, and id by id. -/
theorem add_verdict {config : Config} {ids : List Value}
    (freshLower : ∀ label, config.lowerName = .str label → label ∉ m.names)
    (freshUpper : ∀ label, config.upperName = .str label → label ∉ m.names)
    (differ : config.lowerName.same config.upperName = false) :
    (add config ids).verdict m = .all (nameDemand config.lowerName :: nameDemand config.upperName ::
      ids.flatMap (rowDemands config)) := by
  rw [add, Stage.verdict_bind _ fun lower t declared => ?_, declare_verdict freshLower,
    Verdict.all_cons]
  obtain ⟨named, -, rfl⟩ := declare_ok declared
  rw [Stage.verdict_bind _ fun _ _ _ => addRows_verdict _, declare_verdict fun upper text => ?_,
    Verdict.all_cons]
  have other : lower ≠ upper := by
    rintro rfl
    simp [named, text, Value.same] at differ
  simpa [Model.names, Model.append, Ne.symm other] using freshUpper upper text

end Convexity

end BlockAngular
