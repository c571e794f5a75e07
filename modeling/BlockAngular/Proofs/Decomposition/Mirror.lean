import BlockAngular.Proofs.Decomposition.Fidelity
import BlockAngular.Proofs.Decomposition.Merging
import BlockAngular.Proofs.Decomposition.ReadBack
import BlockAngular.Proofs.Model.Regular

/-! # Masters that take everything

Where everything goes to the master, there are no subproblems, and the master has the images of
all declared variables and constraints under the same keys. Their bodies and the objective are the
forms that were read, over the images, so that the master is read as the model was.
-/

namespace BlockAngular

open Decomposition

namespace Classify

theorem table_allMaster (mark : Nat) (keys : List Key) :
    allMaster.table mark keys = .ok (keys.map fun key => (key, .master)) := by
  induction keys generalizing mark with
  | nil => rfl
  | cons key rest ih =>
      rw [table, ih]
      rfl

end Classify

namespace KeyTable

theorem ids_allMaster (keys : List Key) : ids (keys.map fun key => (key, Block.master)) = [] := by
  simp [ids, List.filterMap_map]

theorem sliceOf_allMaster (keys : List Key) :
    sliceOf (keys.map fun key => (key, Block.master)) .master = Slice.ofKeys keys := by
  have same : Block.same .master .master = true := rfl
  simp [sliceOf, keysOf, List.filter_map, Function.comp_def, same]

end KeyTable

theorem Model.assignment_allMaster (m : Model) : m.assignment .allMaster =
    .ok ⟨m.variableKeys.map fun key => (key, .master), m.constraintKeys.map fun key => (key, .master)⟩ := by
  simp [assignment, Classify.table_allMaster, bind, Except.bind, pure, Except.pure]

theorem Limits.constrain_active {limits : Limits Float} {body : Expression} {c : Constraint}
    (h : limits.constrain body = .ok c) : c.active = true := by
  unfold constrain Constraint.range Constraint.atMost Constraint.between at h
  split at h
  · split at h <;> cases h
    rfl
  · split at h
    · cases h
    · split_ifs at h <;> cases h <;> rfl
    · split_ifs at h <;> cases h <;> rfl
    · split_ifs at h
      split at h
      · split_ifs at h
        cases h
        rfl
      · cases h
        rfl

theorem imageConstraint_active {m : Model} (wf : m.WellFormed) {vars : Registry}
    (images : vars.HasImages m) {block : Block} {key : Key} {c : Constraint}
    (h : imageConstraint (imageReading m vars) vars block m key = some c) : c.active = true := by
  rw [imageConstraint_eq wf images] at h
  obtain ⟨read, -, limited⟩ := Option.bind_eq_some_iff.mp h
  exact Limits.constrain_active (Success.toOption_eq_some.mp limited)

theorem Family.tabulate_regular {α : Type} {rows : List (List Value)} (areRows : Value.AreRows rows)
    (uniform : Uniform (rows.map Value.ofIndex)) (element : List Value → Option α) :
    (tabulate rows element).Regular :=
  ⟨tabulate_wellFormed areRows element, by simpa [tabulate, Function.comp_def] using uniform⟩

theorem Decomposition.nameDemand_iff {name : Value} :
    nameDemand name = .ok () ↔ ∃ label, name = .str label ∧ Reserved.inModel label = false := by
  cases name with
  | str label =>
      simp [nameDemand, Config.asName, Except.mapError, bind, Except.bind]
  | _ => simp [nameDemand, Config.asName, Except.mapError, bind, Except.bind]

/-- The names that a decomposition adds to a model are text that is not reserved. -/
structure Config.AddsNames (config : Config) (objective : Option MappedObjective) : Prop where
  lower : nameDemand config.lowerName = .ok ()
  upper : nameDemand config.upperName = .ok ()
  objective : ∀ o ∈ objective, nameDemand (config.objectiveNameFor o.name) = .ok ()

/-- The objective in force is the only active one. -/
theorem Model.activeObjectives_of_inForce {m : Model} {own : Option (Handle × Objective)}
    (inForce : m.objectiveInForce? = .ok own) : m.activeObjectives = own.toList := by
  unfold objectiveInForce? at inForce
  split at inForce
  · rename_i none
    cases inForce
    exact none
  · rename_i one alone
    cases inForce
    exact alone
  · split at inForce <;> cases inForce

/-- The keys and handles of the active constraints of a component. -/
def Content.activeRows (id : Nat) (name : String) : Content → List (Key × Handle)
  | .constraints true family => (family.present.filter fun e => e.2.2.active).map
      fun e => (⟨name, e.1.toIndex⟩, ⟨id, name, e.2.1⟩)
  | _ => []

theorem Model.constraints_eq (m : Model) :
    m.constraints = m.contents.flatMap fun e => e.2.activeRows m.id e.1 := by
  rw [constraints, contents, List.flatMap_map]
  refine List.flatMap_congr fun c _ => ?_
  cases c.content <;> rfl

namespace Reformulation.Trace

variable {first : Nat} {m : Model} {config : Config} {r : Reformulation}

/-- What a target contains but for the convexity constraints, its columns first. -/
theorem ordinaryContents_eq (block : Block) : r.ordinaryContents m config block =
    (r.partition.variablesOf block).map (fun e => (e.1, m.boundedContent e.1 e.2)) ++
      constraintContents r.partition r.vars m block ++
        objectiveContents r.objective r.vars config block :=
  rfl

section AllMaster

variable (h : r.Trace first m .allMaster config)
include h

theorem allMaster_assignment : r.assignment = ⟨m.variableKeys.map fun key => (key, .master),
    m.constraintKeys.map fun key => (key, .master)⟩ :=
  Except.ok.inj (h.assigned.symm.trans m.assignment_allMaster)

theorem allMaster_ids : r.ids = [] := by
  rw [h.ids_eq, h.partition_eq]
  have perm := Partition.subproblemIds_perm r.assignment
  rw [h.allMaster_assignment, KeyTable.ids_allMaster, KeyTable.ids_allMaster] at perm
  rw [h.allMaster_assignment]
  exact perm.eq_nil

theorem allMaster_subproblems : r.subproblems = [] :=
  List.map_eq_nil_iff.mp h.allMaster_ids

theorem allMaster_variables : r.partition.variablesOf .master = Slice.ofKeys m.variableKeys := by
  rw [h.variablesOf_eq, h.allMaster_assignment]
  exact KeyTable.sliceOf_allMaster _

theorem allMaster_constraints : r.partition.constraintsOf .master = Slice.ofKeys m.constraintKeys := by
  rw [h.constraintsOf_eq, h.allMaster_assignment]
  exact KeyTable.sliceOf_allMaster _

/-- Every declared variable has its image in the master. -/
theorem allMaster_image (wf : m.WellFormed) {key : Key} (hk : key ∈ m.variableKeys) :
    ∃ image, (key, image) ∈ (Slice.ofKeys m.variableKeys).imagesIn first ∧
      r.vars.image? (m.preimageOf key) = some image ∧
        r.vars.sends .master (m.preimageOf key) = true := by
  have listed : key ∈ (Slice.ofKeys m.variableKeys).keys :=
    (Slice.keys_ofKeys_perm wf.variableKeys_distinct).mem_iff.mpr hk
  obtain ⟨image, placed⟩ := Slice.exists_image_of_mem_keys listed first
  have own : (key, image) ∈ (r.assignment.vars.sliceOf .master).imagesIn (first + 0) := by
    rwa [← h.variablesOf_eq, h.allMaster_variables]
  have master := master_numbered r.ids
  refine ⟨image, placed, h.vars_covers.image?_eq master own, ?_⟩
  rw [Registry.sends, h.vars_covers.owner?_eq master own]
  rfl

theorem allMaster_sends (wf : m.WellFormed) {v : Handle} (hv : v ∈ m.vars.map (·.2)) :
    r.vars.sends .master v = true := by
  obtain ⟨entry, he, rfl⟩ := List.mem_map.mp hv
  obtain ⟨image, -, -, sent⟩ := h.allMaster_image wf (List.mem_map_of_mem (f := (·.1)) he)
  rwa [Model.preimageOf_of_mem_vars wf he] at sent

theorem allMaster_vars (wf : m.WellFormed) :
    r.master.vars = (Slice.ofKeys m.variableKeys).imagesIn first := by
  rw [(h.master_view wf).vars, ← h.variablesOf_eq, h.allMaster_variables]
  rfl

/-- All terms of a form stay. -/
theorem allMaster_ownTerms (wf : m.WellFormed) {form : AffineForm}
    (known : ∀ v ∈ form.vars, v ∈ m.vars.map (·.2)) :
    form.ownTerms r.vars .master = form.terms :=
  List.filter_eq_self.mpr fun _ ht =>
    h.allMaster_sends wf (known _ (List.mem_map_of_mem (f := (·.1)) ht))

theorem allMaster_body (wf : m.WellFormed) (key : Key) {form : AffineForm}
    (known : ∀ v ∈ form.vars, v ∈ m.vars.map (·.2)) (limits : Limits Float) :
    (m.transitTo r.vars .master key (form, limits)).body =
      form.rename (Expression.nameOf r.vars.image?) := by
  rw [Model.transitTo, h.allMaster_ownTerms wf known]
  rfl

theorem allMaster_objectivePart (wf : m.WellFormed) {form : AffineForm}
    (known : ∀ v ∈ form.vars, v ∈ m.vars.map (·.2)) :
    (form.rename (Expression.nameOf r.vars.image?)).objectivePart r.vars .master =
      form.rename (Expression.nameOf r.vars.image?) := by
  rw [AffineForm.objectivePart, AffineForm.livesIn_rename (h.hasImages wf) known,
    h.allMaster_ownTerms wf known]
  rfl

/-- The images of the constraints are the only constraints of the master. -/
theorem allMaster_rows (wf : m.WellFormed) :
    r.master.allConstraints = (Slice.ofKeys m.constraintKeys).imagesIn first := by
  have built := h.master_built wf
  have sound := Partition.constraintsOf_sound h.assigned h.sound .master
  rw [← h.partition_eq] at sound
  have images := h.images (.master, 0) (master_numbered r.ids)
  have columns : ((r.partition.variablesOf .master).map fun e =>
      (e.1, m.boundedContent e.1 e.2)).flatMap (fun e => e.2.rows first e.1) = [] := by
    simp [List.flatMap_map, Content.rows, Model.boundedContent]
  have convexity : (convexityContents config r.ids .master).flatMap
      (fun e => e.2.rows first e.1) = [] := by
    rw [h.allMaster_ids, convexityContents]
    split <;> rfl
  rw [Model.allConstraints_eq, Model.outline, List.flatMap_map, built.contents, built.id,
    ordinaryContents_eq, ← h.allMaster_constraints,
    ← Slice.flatMap_present (fun entry he => sound.rows wf he) images]
  simp only [Content.outline_rows, List.flatMap_append, columns, (objectiveContents_rest _ _).2,
    convexity, Nat.add_zero, List.nil_append, List.append_nil, constraintContents, List.flatMap_map]
  rfl

/-- All of them are active. -/
theorem allMaster_active (wf : m.WellFormed) : r.master.constraints = r.master.allConstraints := by
  rw [Model.constraints_eq, Model.allConstraints_eq, Model.outline, List.flatMap_map]
  refine List.flatMap_congr fun e he => .trans ?_ (Content.outline_rows ..).symm
  rw [(h.master_built wf).contents, h.allMaster_ids, ordinaryContents, List.mem_append,
    List.mem_append, List.mem_append] at he
  obtain ((columns | rows) | objective) | convexity := he
  · obtain ⟨entry, -, rfl⟩ := List.mem_map.mp columns
    rfl
  · obtain ⟨⟨name, indices⟩, -, rfl⟩ := List.mem_map.mp rows
    refine congrArg (List.map _) (List.filter_eq_self.mpr fun e he => ?_)
    obtain ⟨index, position, c⟩ := e
    obtain ⟨row, -, made⟩ := List.mem_map.mp (List.mem_of_getElem? (Family.mem_present.mp he))
    exact imageConstraint_active wf (h.hasImages wf) (Prod.mk.inj made).2
  · unfold objectiveContents at objective
    split at objective
    · cases objective
    · split at objective
      · cases List.mem_singleton.mp objective
        rfl
      · cases objective
  · simp only [convexityContents] at convexity
    split at convexity
    · simp only [List.mem_cons, List.not_mem_nil, or_false] at convexity
      rcases convexity with rfl | rfl <;> rfl
    · cases convexity

/-- The components of the master are as declarations make them, under names that are not
reserved. -/
theorem allMaster_contents (regular : m.Regular) (names : config.AddsNames r.objective) :
    ∀ e ∈ r.master.contents, Reserved.inModel e.1 = false ∧ e.2.Regular := by
  have wf := regular.toWellFormed
  have columns := Partition.variablesOf_sound h.assigned h.sound .master
  have rows := Partition.constraintsOf_sound h.assigned h.sound .master
  rw [← h.partition_eq] at columns rows
  rw [(h.master_built wf).contents, h.allMaster_ids]
  simp only [ordinaryContents, List.forall_mem_append]
  refine ⟨⟨⟨fun e he => ?_, fun e he => ?_⟩, fun e he => ?_⟩, fun e he => ?_⟩
  · obtain ⟨⟨name, indices⟩, listed, rfl⟩ := List.mem_map.mp he
    exact ⟨columns.unreserved regular listed, Family.tabulate_regular (columns.rows wf listed)
      (columns.uniform regular listed) _⟩
  · obtain ⟨⟨name, indices⟩, listed, rfl⟩ := List.mem_map.mp he
    refine ⟨rows.unreserved regular listed, Family.tabulate_regular (rows.rows wf listed)
      (rows.uniform regular listed) _, fun element made c there => ?_⟩
    obtain ⟨row, -, rfl⟩ := List.mem_map.mp made
    obtain ⟨-, -, -, -, -, -, -, plain, -⟩ := imageConstraint_ok wf there
    exact plain
  · cases own : r.objective with
    | none => simp [objectiveContents, own] at he
    | some o =>
        obtain ⟨label, named, unreserved⟩ := nameDemand_iff.mp (names.objective o own)
        simp only [objectiveContents, own, named, List.mem_singleton] at he
        subst he
        exact ⟨unreserved, Family.optional_regular _⟩
  · obtain ⟨lower, lowerNamed, lowerFree⟩ := nameDemand_iff.mp names.lower
    obtain ⟨upper, upperNamed, upperFree⟩ := nameDemand_iff.mp names.upper
    have empty (side : Value) (isLower : Bool) :
        (Content.constraints true (Convexity.family side isLower [])).Regular :=
      ⟨⟨⟨by simp [Convexity.family], ⟨by simp [Convexity.family], by simp [Convexity.family]⟩,
        by simp [Convexity.family]⟩, by simp [Convexity.family, Family.Uniform]⟩,
        by simp [Convexity.family]⟩
    simp only [convexityContents, lowerNamed, upperNamed, List.mem_cons, List.not_mem_nil,
      or_false] at he
    rcases he with rfl | rfl
    · exact ⟨lowerFree, empty _ _⟩
    · exact ⟨upperFree, empty _ _⟩

theorem allMaster_regular (regular : m.Regular) (names : config.AddsNames r.objective) :
    r.master.Regular := by
  have contents := h.allMaster_contents regular names
  have each : ∀ c ∈ r.master.components, Reserved.inModel c.name = false ∧ c.content.Regular :=
    fun c hc => contents (c.name, c.content) (List.mem_map_of_mem hc)
  exact {
    names_nodup := (h.master_built regular.toWellFormed).names_nodup
    contents := fun c hc => (Content.regular_iff.mp (each c hc).2).1
    sides := fun c hc => (Content.regular_iff.mp (each c hc).2).2.1
    unreserved := fun c hc => (each c hc).1
    uniform := fun c hc => (Content.regular_iff.mp (each c hc).2).2.2 }

/-- A declared constraint is read, and its image has the same body over the images, between the
same limits. -/
theorem allMaster_row (wf : m.WellFormed) (wf' : r.master.WellFormed) {key : Key}
    (hk : key ∈ m.constraintKeys) : ∃ form limits c, m.readConstraint key = .ok (form, limits) ∧
      key ∈ r.master.constraintKeys ∧
      r.master.constraintOf? (r.master.preimageOf key) = some c ∧
        c.body = (form.rename (Expression.nameOf r.vars.image?)).toExpression ∧
          ∀ reading, Limits.ofConstraint? reading c = .ok limits.settled := by
  have listed : key ∈ (Slice.ofKeys m.constraintKeys).keys :=
    (Slice.keys_ofKeys_perm wf.constraintKeys_distinct).mem_iff.mpr hk
  obtain ⟨image, placed⟩ := Slice.exists_image_of_mem_keys listed first
  have ordinary : (key, image) ∈ ordinaryRows config .master r.master := by
    rw [(h.master_view wf).rows, ← h.constraintsOf_eq, h.allMaster_constraints]
    exact placed
  rw [← h.allMaster_rows wf, ← h.allMaster_active wf] at placed
  obtain ⟨c, there, made⟩ := (h.master_view wf).constraint key image ordinary
  rw [imageConstraint_eq wf (h.hasImages wf)] at made
  obtain ⟨⟨form, limits⟩, read, limited⟩ := Option.bind_eq_some_iff.mp made
  have read := Success.toOption_eq_some.mp read
  have limited := Success.toOption_eq_some.mp limited
  rw [Transit.constraint, h.allMaster_body wf key (Model.readConstraint_vars read)] at limited
  obtain ⟨_, -, -, -, limitsRead⟩ := Model.readConstraint_ok.mp read
  obtain ⟨body, -, settled⟩ := Limits.constrain_ok (Limits.ofConstraint?_areRead limitsRead) rfl
    limited
  refine ⟨form, limits, c, read, List.mem_map_of_mem (f := (·.1)) placed, ?_, body, settled⟩
  rwa [Model.preimageOf_of_mem_constraints wf' placed]

/-- The image of a variable is that of its key. -/
theorem allMaster_preimageOf (wf : m.WellFormed) (wf' : r.master.WellFormed) {key : Key}
    (hk : key ∈ m.variableKeys) : key ∈ r.master.variableKeys ∧
      r.master.preimageOf key = Expression.nameOf r.vars.image? (m.preimageOf key) := by
  obtain ⟨image, placed, mapped, -⟩ := h.allMaster_image wf hk
  rw [← h.allMaster_vars wf] at placed
  refine ⟨List.mem_map_of_mem (f := (·.1)) placed, ?_⟩
  rw [Model.preimageOf_of_mem_vars wf' placed]
  simp [Expression.nameOf, mapped]

/-- Forms over the images are read as they stand. -/
theorem allMaster_formOf (wf : m.WellFormed) (wf' : r.master.WellFormed) {e : Expression}
    {context : String} {form : AffineForm} (formed : m.formOf context e = .ok form) (own : String) :
    r.master.formOf own (form.rename (Expression.nameOf r.vars.image?)).toExpression =
      .ok (form.rename (Expression.nameOf r.vars.image?)) := by
  have mapped : e.mapped (imageReading m r.vars) r.vars.image? context =
      .ok (form.rename (Expression.nameOf r.vars.image?)) := by
    rw [Model.mapped_eq_formOf (h.hasImages wf), formed]
    rfl
  refine Model.formOf_toExpression (Expression.mapped_isReduced mapped)
    (Expression.mapped_vars_nodup mapped) ?_ own
  have known := (Model.formOf_vars formed).2
  rw [Model.vars_elements wf] at known
  rw [AffineForm.vars_rename, Model.vars_elements wf']
  refine List.forall_mem_map.mpr fun v hv => ?_
  obtain ⟨key, hk, rfl⟩ := List.mem_map.mp (known v hv)
  obtain ⟨there, same⟩ := h.allMaster_preimageOf wf wf' hk
  rw [← same]
  exact List.mem_map_of_mem there

/-- What is read of the image of a constraint: the same form over the images, and the limits,
where a range between equal numbers is an equality. -/
theorem allMaster_readConstraint (wf : m.WellFormed) (wf' : r.master.WellFormed) {key : Key}
    (hk : key ∈ m.constraintKeys) {form : AffineForm} {limits : Limits Float}
    (read : m.readConstraint key = .ok (form, limits)) : r.master.readConstraint key =
      .ok (form.rename (Expression.nameOf r.vars.image?), limits.settled) := by
  obtain ⟨_, _, c, read', hk', there, body, settled⟩ := h.allMaster_row wf wf' hk
  cases Except.ok.inj (read.symm.trans read')
  obtain ⟨_, -, writable, formed, -⟩ := Model.readConstraint_ok.mp read
  refine Model.readConstraint_ok.mpr ⟨c, there, ?_, ?_, settled _⟩
  · rw [(Model.declares_of_mem_constraintKeys hk).indexOf wf] at writable
    rwa [(Model.declares_of_mem_constraintKeys hk').indexOf wf']
  · rw [body]
    exact h.allMaster_formOf wf wf' formed _

/-- The image of a variable is the variable with its effective bounds. -/
theorem allMaster_variable (wf : m.WellFormed) (wf' : r.master.WellFormed) {key : Key}
    (hk : key ∈ m.variableKeys) : ∃ v w, m.variableOf? (m.preimageOf key) = some v ∧
      v.bounded? = .ok w ∧ r.master.variableOf? (r.master.preimageOf key) = some w := by
  obtain ⟨entry, he, rfl⟩ := List.mem_map.mp hk
  obtain ⟨block, target, image, v, w, mapped, -, ht, there, bounded, copied⟩ :=
    h.image_of_declared wf (show (entry.1, entry.2) ∈ m.vars from he)
  rw [Reformulation.targets, h.allMaster_subproblems] at ht
  obtain ⟨-, rfl⟩ := Prod.mk.inj (List.mem_singleton.mp ht)
  rw [(h.allMaster_preimageOf wf wf' hk).2, Model.preimageOf_of_mem_vars wf he]
  exact ⟨v, w, there, bounded, by simpa [Expression.nameOf, mapped] using copied⟩

/-- The keys of the variables are those of the model, grouped by name. -/
theorem allMaster_variableKeys (wf : m.WellFormed) :
    r.master.variableKeys = (Slice.ofKeys m.variableKeys).places.map (·.1) := by
  rw [Model.variableKeys, h.allMaster_vars wf, Slice.imagesIn_keys]

theorem allMaster_constraintKeys (wf : m.WellFormed) :
    r.master.constraintKeys = (Slice.ofKeys m.constraintKeys).places.map (·.1) := by
  rw [Model.constraintKeys, h.allMaster_active wf, h.allMaster_rows wf, Slice.imagesIn_keys]

theorem allMaster_convexity : r.convexityLower = [] ∧ r.convexityUpper = [] := by
  obtain ⟨lowerName, upperName, -, -, lower, upper⟩ := h.rows
  rw [lower, upper, h.allMaster_ids]
  exact ⟨rfl, rfl⟩

/-- The active objectives of the master are those that the objective of the model becomes. -/
theorem allMaster_goals (wf : m.WellFormed) : r.master.activeObjectives =
    (objectiveContents r.objective r.vars config .master).flatMap
      fun e => e.2.goals first e.1 := by
  have built := h.master_built wf
  have columns : ((r.partition.variablesOf .master).map fun e =>
      (e.1, m.boundedContent e.1 e.2)).flatMap (fun e => e.2.goals first e.1) = [] := by
    simp [List.flatMap_map, Content.goals, Model.boundedContent]
  have rows : (constraintContents r.partition r.vars m .master).flatMap
      (fun e => e.2.goals first e.1) = [] := by
    simp [constraintContents, List.flatMap_map, Content.goals, constraintContent]
  have convexity : (convexityContents config r.ids .master).flatMap
      (fun e => e.2.goals first e.1) = [] := by
    unfold convexityContents
    split
    · split <;> simp [Content.goals]
    · rfl
  rw [Model.activeObjectives_eq, Model.outline, built.contents, built.id, List.flatMap_map]
  simp [ordinaryContents_eq, List.flatMap_append, columns, rows, convexity]

theorem allMaster_objectives (wf : m.WellFormed) :
    (m.activeObjectives = [] → r.master.activeObjectives = []) ∧
    ∀ entry ∈ m.activeObjectives, ∃ form label, m.formOf "objective" entry.2.body = .ok form ∧
      config.objectiveNameFor entry.1.component = .str label ∧
      r.master.activeObjectives = [(⟨first, label, 0⟩,
        ⟨(form.rename (Expression.nameOf r.vars.image?)).toExpression, entry.2.sense, true⟩)] := by
  obtain ⟨own, inForce, mapped⟩ := h.objective
  rw [h.allMaster_goals wf, Model.activeObjectives_of_inForce inForce]
  cases own with
  | none =>
      have absent : r.objective = none := (Except.ok.inj mapped).symm
      simp [absent, objectiveContents]
  | some own =>
      simp only [mapObjective, Model.mapped_eq_formOf (h.hasImages wf), Success.bind_ok,
        Success.pure_ok, Success.map_ok] at mapped
      obtain ⟨_, ⟨form, formed, rfl⟩, made⟩ := mapped
      obtain ⟨label, named⟩ := h.named _ made.symm
      have part := h.allMaster_objectivePart wf (Model.formOf_vars formed).2
      refine ⟨by simp, fun entry he => ?_⟩
      obtain rfl := List.mem_singleton.mp he
      refine ⟨form, label, formed, named, ?_⟩
      simp [← made, objectiveContents, named, part, Content.goals, Family.optional, Family.present]

end AllMaster

end Trace

/-- The master has what the model has, under the same keys, and nothing else. -/
structure IsMirror (r : Reformulation) (m : Model) (config : Config) : Prop where
  subproblems : r.subproblems = []
  convexity : r.convexityLower = [] ∧ r.convexityUpper = []
  variableKeys : r.master.variableKeys.Perm m.variableKeys
  /-- The image of a variable has its attributes. -/
  copies : ∀ key ∈ m.variableKeys,
    r.vars.image? (m.preimageOf key) = some (r.master.preimageOf key) ∧
      ∃ v w, m.variableOf? (m.preimageOf key) = some v ∧
        r.master.variableOf? (r.master.preimageOf key) = some w ∧ w.IsCopy v
  constraintKeys : r.master.constraintKeys.Perm m.constraintKeys
  active : r.master.constraints = r.master.allConstraints
  /-- The body of the image of a constraint is the form of its own body over the images. The
      limits stay if and only if they are not those of a range between equal numbers, which becomes
      an equality. -/
  constraints : ∀ key ∈ m.constraintKeys, ∃ c c' form limits context,
    m.constraintOf? (m.preimageOf key) = some c ∧
      r.master.constraintOf? (r.master.preimageOf key) = some c' ∧
      m.formOf context c.body = .ok form ∧
      r.master.formOf context c'.body = .ok (form.rename (Expression.nameOf r.vars.image?)) ∧
      c'.body = (form.rename (Expression.nameOf r.vars.image?)).toExpression ∧
      Limits.ofConstraint? (World.reading [m]) c = .ok limits ∧
      (∀ reading, Limits.ofConstraint? reading c' = .ok limits.settled) ∧
      ((∀ reading, Limits.ofConstraint? reading c' = .ok limits) ↔ limits.isPoint = false)
  noObjective : m.activeObjectives = [] → r.master.activeObjectives = []
  objective : ∀ entry ∈ m.activeObjectives, ∃ form label context,
    m.formOf context entry.2.body = .ok form ∧
      config.objectiveNameFor entry.1.component = .str label ∧
      r.master.activeObjectives = [(r.master.handle label 0,
        ⟨(form.rename (Expression.nameOf r.vars.image?)).toExpression, entry.2.sense, true⟩)] ∧
      r.master.formOf context (form.rename (Expression.nameOf r.vars.image?)).toExpression =
        .ok (form.rename (Expression.nameOf r.vars.image?))

namespace Trace

theorem isMirror {first : Nat} {m : Model} {config : Config} {r : Reformulation}
    (h : r.Trace first m .allMaster config) (wf : m.WellFormed) (wf' : r.master.WellFormed) :
    r.IsMirror m config where
  subproblems := h.allMaster_subproblems
  convexity := h.allMaster_convexity
  variableKeys := by
    rw [h.allMaster_variableKeys wf]
    exact (Slice.places_keys_perm _).trans (Slice.keys_ofKeys_perm wf.variableKeys_distinct)
  copies key hk := by
    obtain ⟨v, w, there, bounded, copied⟩ := h.allMaster_variable wf wf' hk
    obtain ⟨image, -, mapped, -⟩ := h.allMaster_image wf hk
    refine ⟨?_, v, w, there, copied, Variable.isCopy_of_bounded bounded⟩
    rw [(h.allMaster_preimageOf wf wf' hk).2, mapped, Expression.nameOf, mapped]
    rfl
  constraintKeys := by
    rw [h.allMaster_constraintKeys wf]
    exact (Slice.places_keys_perm _).trans (Slice.keys_ofKeys_perm wf.constraintKeys_distinct)
  active := h.allMaster_active wf
  constraints key hk := by
    obtain ⟨form, limits, c', read, -, there', body, settled⟩ := h.allMaster_row wf wf' hk
    obtain ⟨c, there, -, formed, limited⟩ := Model.readConstraint_ok.mp read
    refine ⟨c, c', form, limits, _, there, there', formed, ?_, body, ?_, settled,
      Limits.kept_iff settled⟩
    · rw [body]
      exact h.allMaster_formOf wf wf' formed _
    · exact (Limits.ofConstraint?_of_plain (r := World.freeReading [m]) (s := World.reading [m])
        (fun _ => rfl) (wf.plainSides there)).trans limited
  noObjective := (h.allMaster_objectives wf).1
  objective entry he := by
    obtain ⟨form, label, formed, named, only⟩ := (h.allMaster_objectives wf).2 entry he
    refine ⟨form, label, "objective", formed, named, ?_, h.allMaster_formOf wf wf' formed _⟩
    rw [only, Model.handle, (h.master_built wf).id]
    rfl

end Trace

end Reformulation

end BlockAngular
