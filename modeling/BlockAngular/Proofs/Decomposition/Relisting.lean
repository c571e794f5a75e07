import BlockAngular.Proofs.Decomposition.Repetition
import BlockAngular.Proofs.Model.Relisted
import BlockAngular.Proofs.Value.Simple
import Mathlib.Tactic.MkIffOfInductiveProp

/-! # The order of indices does not matter

Where two models list the indices of their variables and constraints in different orders, the same
keys go to the same blocks, and every block sorts them. One model is decomposed if and only if the
other one is, and what comes out is the same, up to the spelling of the ids.
-/

namespace BlockAngular

open Decomposition

theorem Expression.mapped_rename (r : Reading) (g : Handle → Handle)
    (image : Handle → Option Handle) (context : String) (e : Expression) :
    ((e.rename g).mapped r image context).toOption =
      (e.mapped r (fun v => image (g v)) context).toOption := by
  rw [mapped, mapped, substitute_rename]
  cases e.substitute fun v => image (g v) <;> rfl

theorem Model.Declares.model {m : Model} {key : Key} (h : m.Declares key) (wf : m.WellFormed) :
    (m.preimageOf key).model = m.id := by
  obtain ⟨c, index, position, there, rfl⟩ := h
  have found := there.element wf.names_nodup (wf.contents c there.component)
  simp [preimageOf, found, Except.toOption, handle]

namespace Model.Relists

variable {m m' : Model}

section Reading

variable (h : m.Relists m')
include h

theorem world_parameter (v : Handle) : World.parameter [m'] v = World.parameter [m] v := by
  simp only [World.parameter, World.model?, List.find?_cons, List.find?_nil, h.id]
  cases m.id == v.model with
  | true => exact h.parameter v
  | false => rfl

theorem world_current (wf : m.WellFormed) (v : Handle) :
    World.current [m'] (m.relisted m' v) = World.current [m] v := by
  simp only [World.current, World.variableOf?, World.model?, List.find?_cons, List.find?_nil, h.id,
    relisted_model]
  cases own : m.id == v.model with
  | true => simp [h.variableOf?_relisted wf (beq_iff_eq.mp own).symm]
  | false => rfl

variable (regular : m.Regular) {v : Handle} {key : Key}
include regular

theorem mem_elements : m.relisted m' v ∈ m'.vars.map (·.2) ↔ v ∈ m.vars.map (·.2) := by
  simp [h.mem_vars regular]

theorem itself?_relisted (v : Handle) :
    m'.itself? (m.relisted m' v) = (m.itself? v).map (m.relisted m') := by
  simp only [itself?, h.mem_elements regular]
  split <;> rfl

theorem preimageOf_variable (hk : key ∈ m.variableKeys) :
    key ∈ m'.variableKeys ∧ m'.preimageOf key = m.relisted m' (m.preimageOf key) := by
  obtain ⟨⟨_, v⟩, hv, rfl⟩ := List.mem_map.mp hk
  have there := (h.mem_vars regular).mpr hv
  rw [preimageOf_of_mem_vars regular.toWellFormed hv,
    preimageOf_of_mem_vars (h.regular regular).toWellFormed there]
  exact ⟨List.mem_map_of_mem (f := (·.1)) there, rfl⟩

theorem preimageOf_constraint (hk : key ∈ m.constraintKeys) :
    key ∈ m'.constraintKeys ∧ m'.preimageOf key = m.relisted m' (m.preimageOf key) := by
  obtain ⟨⟨_, v⟩, hv, rfl⟩ := List.mem_map.mp hk
  have there := (h.mem_constraints regular).mpr hv
  rw [preimageOf_of_mem_constraints regular.toWellFormed hv,
    preimageOf_of_mem_constraints (h.regular regular).toWellFormed there]
  exact ⟨List.mem_map_of_mem (f := (·.1)) there, rfl⟩

/-- Different variables have different places. -/
theorem relisted_injective {a b : Handle} (ha : a ∈ m.vars.map (·.2)) (hb : b ∈ m.vars.map (·.2))
    (same : m.relisted m' a = m.relisted m' b) : a = b := by
  have wf := regular.toWellFormed
  have wf' := (h.regular regular).toWellFormed
  rw [vars_elements wf] at ha hb
  obtain ⟨key, hk, rfl⟩ := List.mem_map.mp ha
  obtain ⟨key', hk', rfl⟩ := List.mem_map.mp hb
  obtain ⟨there, placed⟩ := h.preimageOf_variable regular hk
  obtain ⟨there', placed'⟩ := h.preimageOf_variable regular hk'
  rw [← placed, ← placed'] at same
  rw [(declares_of_mem_variableKeys there).key_unique wf' (declares_of_mem_variableKeys there') same]

/-- What finds the new places of variables gives them new names. -/
theorem nameOf_relisted_of_known (known : v ∈ m.vars.map (·.2)) :
    Expression.nameOf (fun v => m'.itself? (m.relisted m' v)) v = m.relisted m' v := by
  rw [Expression.nameOf, h.itself?_relisted regular, itself?, if_pos known]
  rfl

theorem renames : Collected.Renaming (World.freeReading [m])
    (Expression.nameOf fun v => m'.itself? (m.relisted m' v))
    (fun v => ∃ target, m'.itself? (m.relisted m' v) = some target) (World.freeReading [m']) := by
  have known : ∀ v, (∃ target, m'.itself? (m.relisted m' v) = some target) →
      v ∈ m.vars.map (·.2) := by
    rintro v ⟨target, found⟩
    unfold itself? at found
    split at found
    · exact (h.mem_elements regular).mp ‹_›
    · cases found
  refine ⟨⟨h.world_parameter, fun v hv => ?_, fun _ _ => rfl⟩, fun a b ha hb same => ?_⟩
  · rw [h.nameOf_relisted_of_known regular (known v hv)]
    exact h.world_current regular.toWellFormed v
  · rw [h.nameOf_relisted_of_known regular (known a ha),
      h.nameOf_relisted_of_known regular (known b hb)] at same
    exact h.relisted_injective regular (known a ha) (known b hb) same

/-- The form of an expression mentions the new places. -/
theorem formOf (context : String) (e : Expression) :
    (m'.formOf context (e.rename (m.relisted m'))).toOption =
      (m.formOf context e).toOption.map (AffineForm.rename (m.relisted m')) := by
  have unknown : Expression.unknown? (fun v => m'.itself? (m.relisted m' v)) e.vars =
      Expression.unknown? m.itself? e.vars :=
    congrArg (List.find? · e.vars) (funext fun v => by simp [h.itself?_relisted regular])
  rw [Model.formOf, Expression.mapped_rename, Expression.mapped_eq (h.renames regular), unknown]
  cases met : Expression.unknown? m.itself? e.vars with
  | some v => simp [formOf_eq, met, Except.toOption]
  | none =>
      cases plain : e.mapped (World.freeReading [m]) some context with
      | error => simp [formOf_eq, met, plain, Except.toOption, Except.map]
      | ok form =>
          have formed : m.formOf context e = .ok form := by rw [formOf_eq, met, plain]
          rw [formed]
          exact congrArg some (AffineForm.rename_congr fun v hv =>
            h.nameOf_relisted_of_known regular ((formOf_vars formed).2 v hv))

/-- What is read of a constraint mentions the new places. -/
theorem readConstraint (hk : key ∈ m.constraintKeys) : (m'.readConstraint key).toOption =
    (m.readConstraint key).toOption.map fun read => (read.1.rename (m.relisted m'), read.2) := by
  have wf := regular.toWellFormed
  have own := (declares_of_mem_constraintKeys hk).model wf
  simp only [Model.readConstraint, (h.preimageOf_constraint regular hk).2,
    h.constraintAt_relisted wf own, h.indexOf_relisted wf own, h.nameOf_relisted wf own]
  cases there : m.constraintAt (m.preimageOf key) with
  | error => rfl
  | ok c =>
      simp only [Except.map, Except.mapError, bind, Except.bind, Constraint.rename]
      split
      · rfl
      · have formed := h.formOf regular ("constraint " ++ m.nameOf (m.preimageOf key)) c.body
        have plain := wf.plainSides (Model.constraintAt_ok there)
        have limited : Limits.ofConstraint? (World.freeReading [m']) (c.rename (m.relisted m')) =
            Limits.ofConstraint? (World.freeReading [m]) c :=
          Limits.ofConstraint?_of_plain h.world_parameter ⟨plain.lower, plain.upper⟩
        simp only [Constraint.rename] at limited
        rw [limited]
        generalize m.formOf _ c.body = form at formed ⊢
        generalize m'.formOf _ _ = form' at formed ⊢
        cases form with
        | error =>
            cases form' with
            | error => rfl
            | ok => cases formed
        | ok form =>
            obtain rfl := Success.toOption_eq_some.mp formed
            cases Limits.ofConstraint? (World.freeReading [m]) c <;> rfl

end Reading

section Demands

variable (h : m.Relists m') (regular : m.Regular) {key : Key}
include h

theorem uses : m'.uses = m.uses := by
  funext name
  cases name <;> simp [Model.uses, h.hasName]

theorem objectiveInForce? : m'.objectiveInForce?.toOption = m.objectiveInForce?.toOption.map
    fun own => own.map fun e => (e.1, e.2.rename (m.relisted m')) := by
  simp only [Model.objectiveInForce?, h.activeObjectives]
  cases m.activeObjectives with
  | nil => rfl
  | cons one rest =>
      cases rest with
      | nil => rfl
      | cons second rest =>
          simp only [List.map_cons]
          split <;> split <;> rfl

theorem clashDemands (config : Config) (own : Option (Handle × Objective)) :
    Decomposition.clashDemands m' config (own.map fun e => (e.1, e.2.rename (m.relisted m'))) =
      Decomposition.clashDemands m config own := by
  cases own <;> simp only [Decomposition.clashDemands, h.uses] <;> rfl

include regular

theorem variableOf? (hk : key ∈ m.variableKeys) :
    m'.variableOf? (m'.preimageOf key) = m.variableOf? (m.preimageOf key) := by
  rw [(h.preimageOf_variable regular hk).2]
  exact h.variableOf?_relisted regular.toWellFormed
    ((declares_of_mem_variableKeys hk).model regular.toWellFormed)

theorem boundsDemand (hk : key ∈ m.variableKeys) : m'.boundsDemand key = m.boundsDemand key := by
  simp only [Model.boundsDemand, variableAt, h.variableOf? regular hk]

theorem boundedVariable (hk : key ∈ m.variableKeys) :
    m'.boundedVariable key = m.boundedVariable key := by
  simp only [Model.boundedVariable, h.variableOf? regular hk]

/-- The terms of a constraint mention the new places. -/
theorem rowTerms (id : Nat) {place : Key × Nat} (hk : place.1 ∈ m.constraintKeys) :
    m'.rowTerms id place =
      (m.rowTerms id place).map fun e => (e.1, m.relisted m' e.2.1, e.2.2) := by
  simp only [Model.rowTerms, h.readConstraint regular hk]
  cases (m.readConstraint place.1).toOption <;> simp [AffineForm.rename]

theorem constraintDemands (hk : key ∈ m.constraintKeys) :
    (Verdict.of (m'.readConstraint key) = .ok () ∧ m'.limitsDemand key = .ok ()) ↔
      Verdict.of (m.readConstraint key) = .ok () ∧ m.limitsDemand key = .ok () := by
  have read := h.readConstraint regular hk
  simp only [Model.limitsDemand]
  generalize m.readConstraint key = x at read ⊢
  generalize m'.readConstraint key = x' at read ⊢
  cases x with
  | error =>
      cases x' with
      | error => simp
      | ok => cases read
  | ok read' =>
      obtain rfl := Success.toOption_eq_some.mp read
      rfl

theorem objectiveDemands (own : Option (Handle × Objective)) :
    (∀ v ∈ Decomposition.objectiveDemands m' (own.map fun e => (e.1, e.2.rename (m.relisted m'))),
        v = .ok ()) ↔ ∀ v ∈ Decomposition.objectiveDemands m own, v = .ok () := by
  cases own with
  | none => rfl
  | some own =>
      have formed := h.formOf regular "objective" own.2.body
      simp only [Decomposition.objectiveDemands, Option.map_some, List.forall_mem_singleton,
        Objective.rename]
      generalize m.formOf "objective" own.2.body = x at formed ⊢
      generalize m'.formOf "objective" _ = x' at formed ⊢
      cases x <;> cases x' <;> simp_all [Except.toOption]

/-- The objective in force is read over the new places. -/
theorem readObjective (config : Config) : Option.Rel
    (MappedObjective.Follows config config (m.relisted m')) m.readObjective m'.readObjective := by
  have inForce := h.objectiveInForce?
  simp only [Model.readObjective]
  generalize m.objectiveInForce? = x at inForce ⊢
  generalize m'.objectiveInForce? = x' at inForce ⊢
  cases x with
  | error =>
      cases x' with
      | error => exact .none
      | ok => cases inForce
  | ok own =>
      obtain rfl := Success.toOption_eq_some.mp inForce
      cases own with
      | none => exact .none
      | some own =>
          simp only [Option.map_some, Objective.rename, h.formOf regular]
          cases (m.formOf "objective" own.2.body).toOption with
          | none => exact .none
          | some form => exact .some ⟨rfl, rfl, rfl⟩

end Demands

/-- The variables of each component have the same rows of indices. -/
theorem variableKeys (h : m.Relists m') : Slice.Reorders
    (m.components.map fun c => (c.name, c.content.variableRows))
    (m'.components.map fun c => (c.name, c.content.variableRows)) := by
  rw [Slice.Reorders, List.forall₂_map_left_iff, List.forall₂_map_right_iff]
  exact h.components.imp fun _ _ relists => ⟨relists.1, relists.2.variableRows⟩

theorem constraintKeys (h : m.Relists m') : Slice.Reorders
    (m.components.map fun c => (c.name, c.content.constraintRows))
    (m'.components.map fun c => (c.name, c.content.constraintRows)) := by
  rw [Slice.Reorders, List.forall₂_map_left_iff, List.forall₂_map_right_iff]
  exact h.components.imp fun _ _ relists => ⟨relists.1, relists.2.constraintRows⟩

theorem variableKeys_perm (h : m.Relists m') : m'.variableKeys.Perm m.variableKeys := by
  rw [variableKeys_eq, variableKeys_eq]
  exact h.variableKeys.keys

theorem constraintKeys_perm (h : m.Relists m') : m'.constraintKeys.Perm m.constraintKeys := by
  rw [constraintKeys_eq, constraintKeys_eq]
  exact h.constraintKeys.keys

end Model.Relists

namespace Classify

/-- The block of a key that has one. -/
def blockOf (classify : Classify) (key : Key) : Block :=
  (classify.resolve key).toOption.getD .master

/-- A table whose ids bear no marks. -/
theorem table_of_simple {classify : Classify} {mark : Nat} {keys : List Key} {table : KeyTable}
    (simple : ∀ key ∈ keys, ∀ id, classify.resolve key = .ok (.subproblem id) → id.isSimple = true)
    (h : classify.table mark keys = .ok table) :
    table = keys.map fun key => (key, classify.blockOf key) := by
  induction keys generalizing mark table with
  | nil => exact (Except.ok.inj h).symm
  | cons key rest ih =>
      obtain ⟨own, others⟩ := List.forall_mem_cons.mp simple
      simp only [Classify.table, Success.bind_ok, Success.pure_ok] at h
      obtain ⟨block, resolved, tail, tabled, rfl⟩ := h
      have unmarked : block.marked mark = block := by
        cases block with
        | master => rfl
        | subproblem id => rw [Block.marked, Value.isSimple.marked (own id resolved)]
      rw [List.map_cons, ih others tabled, unmarked, blockOf, resolved]
      rfl

end Classify

namespace Decomposition

/-- Indices and ids that are built from nothing, truth values, integers, floats, text and
tuples, without a NaN. -/
structure IsSimple (m : Model) (classify : Classify) : Prop where
  indices : ∀ key ∈ m.variableKeys ++ m.constraintKeys, Value.allSimple key.index = true
  ids : ∀ key ∈ m.variableKeys ++ m.constraintKeys, ∀ id,
    classify.resolve key = .ok (.subproblem id) → id.isSimple = true

variable {m m' : Model} {classify : Classify} {config : Config}

theorem IsSimple.assignment (simple : IsSimple m classify) {a : Assignment}
    (assigned : m.assignment classify = .ok a) :
    a.vars = m.variableKeys.map (fun key => (key, classify.blockOf key)) ∧
      a.constraints = m.constraintKeys.map fun key => (key, classify.blockOf key) := by
  obtain ⟨⟨_, vars⟩, _, constraints⟩ := Model.assignment_ok assigned
  exact ⟨Classify.table_of_simple (fun key hk => simple.ids key (List.mem_append_left _ hk)) vars,
    Classify.table_of_simple (fun key hk => simple.ids key (List.mem_append_right _ hk)) constraints⟩

/-- The ids of an assignment are the answers for the keys. -/
theorem IsSimple.mem_ids (simple : IsSimple m classify) {a : Assignment}
    (assigned : m.assignment classify = .ok a) {id : Value} : id ∈ a.ids ↔
      ∃ key ∈ m.variableKeys ++ m.constraintKeys, classify.resolve key = .ok (.subproblem id) := by
  have resolved : ∀ key, classify.blockOf key = .subproblem id ↔
      classify.resolve key = .ok (.subproblem id) := by
    intro key
    unfold Classify.blockOf
    cases classify.resolve key <;> simp [Except.toOption]
  obtain ⟨vars, constraints⟩ := simple.assignment assigned
  simp [Assignment.ids, vars, constraints, KeyTable.mem_ids, resolved, or_and_right, exists_or]

theorem IsSimple.relists (simple : IsSimple m classify) (h : m.Relists m') :
    IsSimple m' classify := by
  have listed : ∀ key ∈ m'.variableKeys ++ m'.constraintKeys,
      key ∈ m.variableKeys ++ m.constraintKeys := fun key hk =>
    (h.variableKeys_perm.append h.constraintKeys_perm).mem_iff.mp hk
  exact ⟨fun key hk => simple.indices key (listed key hk), fun key hk => simple.ids key (listed key hk)⟩

/-- What a decomposition asks for if indices and ids are simple. -/
@[mk_iff]
structure IsDecomposable (m : Model) (classify : Classify) (config : Config) : Prop where
  answered : ∀ key ∈ m.variableKeys ++ m.constraintKeys, ∃ block, classify.resolve key = .ok block
  ids : ∀ key ∈ m.variableKeys ++ m.constraintKeys, ∀ id,
    classify.resolve key = .ok (.subproblem id) → id.isWritable = true ∧
      config.lowerRhs.literal?.isSome = true ∧ config.upperRhs.literal?.isSome = true
  declared : m.variableKeys ≠ [] ∧ m.constraintKeys ≠ []
  objective : ∃ own, m.objectiveInForce? = .ok own ∧ (∀ v ∈ clashDemands m config own, v = .ok ()) ∧
    (∀ v ∈ objectiveDemands m own, v = .ok ()) ∧
      ∀ v ∈ (own.map fun _ => nameDemand (newName config own)).toList, v = .ok ()
  bounds : ∀ key ∈ m.variableKeys, m.boundsDemand key = .ok ()
  rows : ∀ key ∈ m.constraintKeys,
    Verdict.of (m.readConstraint key) = .ok () ∧ m.limitsDemand key = .ok ()
  convexityNames : nameDemand config.lowerName = .ok () ∧ nameDemand config.upperName = .ok ()
  verbosity : config.verbosity.real?.isSome = true

/-- The ids of the subproblems are fit if all answers are. -/
theorem IsSimple.ids_met (simple : IsSimple m classify) {a : Assignment}
    (assigned : m.assignment classify = .ok a) (sound : a.Sound) :
    (∀ id ∈ (Partition.ofAssignment a).subproblemIds, id.isWritable = true ∧
        ∀ v ∈ Convexity.rowDemands config id, v = .ok ()) ↔
      ∀ key ∈ m.variableKeys ++ m.constraintKeys, ∀ id,
        classify.resolve key = .ok (.subproblem id) → id.isWritable = true ∧
          config.lowerRhs.literal?.isSome = true ∧ config.upperRhs.literal?.isSome = true := by
  have listed : ∀ id, id ∈ (Partition.ofAssignment a).subproblemIds → ∃ key ∈
      m.variableKeys ++ m.constraintKeys, classify.resolve key = .ok (.subproblem id) := fun id hid =>
    (simple.mem_ids assigned).mp (List.mem_append.mpr (Partition.mem_of_mem_subproblemIds hid))
  constructor
  · intro met key hk id resolved
    obtain ⟨own, hown, same⟩ := Partition.exists_same_subproblemIds sound
      (List.mem_append.mp ((simple.mem_ids assigned).mpr ⟨key, hk, resolved⟩))
    obtain ⟨key', hk', resolved'⟩ := listed own hown
    obtain ⟨writable, rows⟩ := met own hown
    rw [Value.isWritable_congr (simple.ids key' hk' own resolved') (simple.ids key hk id resolved)
      same] at writable
    exact ⟨writable, (Convexity.rowDemands_met.mp rows).2⟩
  · intro met id hid
    obtain ⟨key, hk, resolved⟩ := listed id hid
    obtain ⟨writable, sides⟩ := met key hk id resolved
    have own := simple.ids key hk id resolved
    refine ⟨writable, Convexity.rowDemands_met.mpr ⟨⟨Value.isSimple.hashable own, ?_⟩, sides⟩⟩
    rintro rfl
    cases own

theorem exists_decompose_iff_isDecomposable {first : Nat} (regular : m.Regular) (simple : IsSimple m classify) :
    (∃ r, decompose first m classify config = .ok r) ↔ IsDecomposable m classify config := by
  have answers : (∃ a, m.assignment classify = .ok a) ↔
      ∀ key ∈ m.variableKeys ++ m.constraintKeys, ∃ block, classify.resolve key = .ok block := by
    rw [← Verdict.of_eq_ok, Model.assignment_verdict, Verdict.all_eq_ok, Model.answers]
    simp only [List.forall_mem_map, Verdict.of_eq_ok]
  have keyed : ∀ {a}, m.assignment classify = .ok a → Value.allHashable a.ids = true := fun assigned =>
    Value.allHashable_iff.mpr fun id hid => by
      obtain ⟨key, hk, resolved⟩ := (simple.mem_ids assigned).mp hid
      exact Value.isSimple.hashable (simple.ids key hk id resolved)
  rw [exists_decompose_iff regular]
  constructor
  · rintro ⟨a, own, assigned, inForce, vars, constraints, hashable, met⟩
    have sound := Model.assignment_sound regular.toWellFormed assigned hashable
    obtain ⟨⟨clash, verbose, bounds, rows, objective, named, names⟩, ids⟩ :=
      (remainingDemands_met assigned sound).mp met
    exact ⟨answers.mp ⟨a, assigned⟩, (simple.ids_met assigned sound).mp ids,
      ⟨by simpa [Model.variableKeys] using vars, by simpa [Model.constraintKeys] using constraints⟩,
      ⟨own, inForce, clash, objective, named⟩, bounds, rows, names, verbose⟩
  · intro ready
    obtain ⟨a, assigned⟩ := answers.mpr ready.answered
    obtain ⟨own, inForce, clash, objective, named⟩ := ready.objective
    have sound := Model.assignment_sound regular.toWellFormed assigned (keyed assigned)
    refine ⟨a, own, assigned, inForce, by simpa [Model.variableKeys] using ready.declared.1,
      by simpa [Model.constraintKeys] using ready.declared.2, keyed assigned, ?_⟩
    exact (remainingDemands_met assigned sound).mpr
      ⟨⟨clash, ready.verbosity, ready.bounds, ready.rows, objective, named, ready.convexityNames⟩,
        (simple.ids_met assigned sound).mpr ready.ids⟩

/-- A model asks for the same whatever the order is in which it lists its indices. -/
theorem isDecomposable_relists (h : m.Relists m') (regular : m.Regular) :
    IsDecomposable m' classify config ↔ IsDecomposable m classify config := by
  have columns := h.variableKeys_perm
  have rows := h.constraintKeys_perm
  have keys : ∀ key, key ∈ m'.variableKeys ++ m'.constraintKeys ↔
      key ∈ m.variableKeys ++ m.constraintKeys := fun key => (columns.append rows).mem_iff
  have empty {l l' : List Key} (perm : l'.Perm l) : l' ≠ [] ↔ l ≠ [] :=
    not_congr ⟨fun none => (none ▸ perm).nil_eq.symm, fun none => (none ▸ perm).eq_nil⟩
  have bounds : (∀ key ∈ m'.variableKeys, m'.boundsDemand key = .ok ()) ↔
      ∀ key ∈ m.variableKeys, m.boundsDemand key = .ok () := by
    simp only [columns.mem_iff]
    exact forall₂_congr fun key hk => by rw [h.boundsDemand regular hk]
  have limits : (∀ key ∈ m'.constraintKeys,
        Verdict.of (m'.readConstraint key) = .ok () ∧ m'.limitsDemand key = .ok ()) ↔
      ∀ key ∈ m.constraintKeys,
        Verdict.of (m.readConstraint key) = .ok () ∧ m.limitsDemand key = .ok () := by
    simp only [rows.mem_iff]
    exact forall₂_congr fun key hk => h.constraintDemands regular hk
  have objective : (∃ own, m'.objectiveInForce? = .ok own ∧
        (∀ v ∈ clashDemands m' config own, v = .ok ()) ∧
        (∀ v ∈ objectiveDemands m' own, v = .ok ()) ∧
          ∀ v ∈ (own.map fun _ => nameDemand (newName config own)).toList, v = .ok ()) ↔
      ∃ own, m.objectiveInForce? = .ok own ∧ (∀ v ∈ clashDemands m config own, v = .ok ()) ∧
        (∀ v ∈ objectiveDemands m own, v = .ok ()) ∧
          ∀ v ∈ (own.map fun _ => nameDemand (newName config own)).toList, v = .ok () := by
    have inForce := h.objectiveInForce?
    cases there : m.objectiveInForce? with
    | error =>
        rw [there] at inForce
        cases there' : m'.objectiveInForce? with
        | error => simp
        | ok => simp [there', Except.toOption] at inForce
    | ok own =>
        rw [there] at inForce
        rw [Success.toOption_eq_some.mp inForce]
        simp only [Except.ok.injEq, exists_eq_left', h.clashDemands, h.objectiveDemands regular]
        cases own <;> rfl
  rw [isDecomposable_iff, isDecomposable_iff]
  simp only [keys, empty columns, empty rows, objective, bounds, limits]

end Decomposition

end BlockAngular
