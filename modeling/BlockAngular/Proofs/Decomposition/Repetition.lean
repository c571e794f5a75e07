import BlockAngular.Proofs.Decomposition.CurrentValues
import BlockAngular.Proofs.Decomposition.Mirror
import BlockAngular.Proofs.Decomposition.Outcome
import BlockAngular.Proofs.Decomposition.Regrouping

/-! # Masters that are decomposed again

A master that took everything can be decomposed once more, where new names are given for the
convexity constraints. The second master repeats the first one: names, indices and places are the
same, and so are attributes, bodies, limits and the objective, over the other number.
-/

namespace BlockAngular

open Decomposition

theorem Slice.imagesIn_renumber (slice : Slice) (id number : Nat) :
    slice.imagesIn number = (slice.imagesIn id).map fun e => (e.1, e.2.renumber number) := by
  simp [Slice.imagesIn, Handle.renumber]

theorem AffineForm.rename_congr {form : AffineForm} {g g' : Handle → Handle}
    (agree : ∀ v ∈ form.vars, g v = g' v) : form.rename g = form.rename g' := by
  refine congrArg (AffineForm.mk form.constant) (List.map_congr_left fun term ht => ?_)
  exact congrArg (Prod.mk · term.2) (agree _ (List.mem_map_of_mem (f := (·.1)) ht))

/-- Limits that some constraint can have stay so when they are settled. -/
theorem Limits.relatable_settled {limits : Limits Float} (h : limits.relatable = .ok ()) :
    limits.settled.relatable = .ok () := by
  by_cases point : limits.isPoint = true
  · rw [settled, if_pos point]
    unfold isPoint at point
    split at point
    · rename_i upper
      rw [upper]
      rfl
    · cases point
  · rwa [settled_of_not_isPoint (by simpa using point)]

/-- One active objective is in force. -/
theorem Model.objectiveInForce?_of_single {m : Model} {entry : Handle × Objective}
    (only : m.activeObjectives = [entry]) : m.objectiveInForce? = .ok (some entry) := by
  rw [objectiveInForce?, only]

theorem Model.boundsDemand_of_attributes {m : Model} {key : Key} {v : Variable} {a : Attributes}
    (there : m.variableOf? (m.preimageOf key) = some v) (read : Attributes.ofVariable? v = .ok a) :
    m.boundsDemand key = .ok () := by
  rw [boundsDemand, variableAt, there]
  simp [Except.mapError, bind, Except.bind, read, Verdict.of]

/-- The options of a further decomposition: the names of the convexity constraints are new, and
the objective keeps its name. -/
structure Config.Reuses (config' config : Config) (m : Model) : Prop where
  names : ∃ lower upper, config'.lowerName = .str lower ∧ config'.upperName = .str upper ∧
    lower ≠ upper ∧ (m.hasName lower = false ∧ Reserved.inModel lower = false) ∧
      m.hasName upper = false ∧ Reserved.inModel upper = false
  objective : config'.objectiveName.isGiven = false ∨ config'.objectiveName = config.objectiveName
  verbosity : config'.verbosity.real?.isSome = true

theorem Config.Reuses.objectiveNameFor {config config' : Config} {m : Model}
    (h : config'.Reuses config m) {own label : String} (named : config.objectiveNameFor own = .str label) :
    config'.objectiveNameFor label = .str label := by
  unfold Config.objectiveNameFor at named ⊢
  rcases h.objective with absent | same
  · simp [absent]
  · rw [same]
    split <;> rename_i given
    · rwa [if_pos given] at named
    · rfl

namespace Decomposition

variable {m : Model} {config config' : Config} {own : Option (Handle × Objective)}

/-- The component of the objective in force has its name from a declaration. -/
theorem hasName_of_inForce (wf : m.WellFormed) {handle : Handle} {o : Objective}
    (inForce : m.objectiveInForce? = .ok (some (handle, o))) : m.hasName handle.component = true := by
  obtain ⟨c, hc, named, -⟩ := content_of_objective inForce
  simp [Model.hasName, ← named, Model.component?_of_mem wf.names_nodup hc]

theorem Reuses.clash_met (h : config'.Reuses config m) (wf : m.WellFormed)
    (inForce : m.objectiveInForce? = .ok own) (kept : newName config' own = ownName own) :
    ∀ v ∈ clashDemands m config' own, v = .ok () := by
  obtain ⟨lower, upper, lowerNamed, upperNamed, differ, ⟨freeLower, -⟩, freeUpper, -⟩ := h.names
  have apart : ∀ name, m.hasName name = false → (Value.str name).same (ownName own) = false := by
    intro name free
    cases own with
    | none => simp [ownName, Value.same, Value.sameNumber, Value.number?, Value.real?]
    | some own =>
        have used := hasName_of_inForce wf inForce
        have other : name ≠ own.1.component := fun equal => by simp [← equal, free] at used
        simpa [ownName, Value.same] using other
  have same : (ownName own).same (ownName own) = true := by
    cases own <;> simp [ownName, Value.same]
  simp [clashDemands, kept, same, lowerNamed, upperNamed, Model.uses, freeLower, freeUpper, apart,
    Value.same, differ]

theorem Reuses.names_met (h : config'.Reuses config m) :
    nameDemand config'.lowerName = .ok () ∧ nameDemand config'.upperName = .ok () := by
  obtain ⟨lower, upper, lowerNamed, upperNamed, -, ⟨-, lowerFree⟩, -, upperFree⟩ := h.names
  exact ⟨nameDemand_iff.mpr ⟨lower, lowerNamed, lowerFree⟩,
    nameDemand_iff.mpr ⟨upper, upperNamed, upperFree⟩⟩

/-- Where everything goes to the master, a decomposition asks for no ids. -/
theorem exists_allMaster_iff {first : Nat} (regular : m.Regular) :
    (∃ r, decompose first m .allMaster config = .ok r) ↔ ∃ own, m.objectiveInForce? = .ok own ∧
      m.variableKeys ≠ [] ∧ m.constraintKeys ≠ [] ∧ MeetsDemands m config own := by
  have ids : Assignment.ids ⟨m.variableKeys.map fun key => (key, Block.master),
      m.constraintKeys.map fun key => (key, Block.master)⟩ = [] := by
    simp [Assignment.ids, KeyTable.ids_allMaster]
  have sound := Model.assignment_sound regular.toWellFormed m.assignment_allMaster
    (by rw [← Assignment.ids, ids]; rfl)
  have none : ∀ id ∈ (Partition.ofAssignment ⟨m.variableKeys.map fun key => (key, Block.master),
      m.constraintKeys.map fun key => (key, Block.master)⟩).subproblemIds, False := by
    intro id hid
    have listed : id ∈ Assignment.ids _ := List.mem_append.mpr (Partition.mem_of_mem_subproblemIds hid)
    simp [ids] at listed
  rw [exists_decompose_iff regular]
  constructor
  · rintro ⟨a, own, assigned, inForce, vars, constraints, -, met⟩
    obtain rfl := Except.ok.inj (m.assignment_allMaster.symm.trans assigned)
    exact ⟨own, inForce, by simpa [Model.variableKeys] using vars,
      by simpa [Model.constraintKeys] using constraints, ((remainingDemands_met assigned sound).mp met).1⟩
  · rintro ⟨own, inForce, vars, constraints, met⟩
    refine ⟨_, own, m.assignment_allMaster, inForce, by simpa [Model.variableKeys] using vars,
      by simpa [Model.constraintKeys] using constraints, by rw [ids]; rfl, ?_⟩
    exact (remainingDemands_met m.assignment_allMaster sound).mpr
      ⟨met, fun id hid => (none id hid).elim⟩

end Decomposition

namespace Reformulation

/-- Another decomposition has the same master, as the model of a number. -/
structure Repeats (r r' : Reformulation) (number : Nat) : Prop where
  subproblems : r'.subproblems = []
  convexity : r'.convexityLower = [] ∧ r'.convexityUpper = []
  vars : r'.master.vars = r.master.vars.map fun e => (e.1, e.2.renumber number)
  image : ∀ e ∈ r.master.vars, r'.vars.image? e.2 = some (e.2.renumber number)
  copies : ∀ e ∈ r.master.vars, ∃ v, r.master.variableOf? e.2 = some v ∧
    r'.master.variableOf? (e.2.renumber number) = some v
  constraints : r'.master.constraints = r.master.constraints.map fun e => (e.1, e.2.renumber number)
  active : r'.master.constraints = r'.master.allConstraints
  rows : ∀ e ∈ r.master.constraints, ∃ c c' limits, r.master.constraintOf? e.2 = some c ∧
    r'.master.constraintOf? (e.2.renumber number) = some c' ∧
      c'.body = c.body.rename (.renumber number) ∧
        ∀ reading, Limits.ofConstraint? reading c = .ok limits ∧
          Limits.ofConstraint? reading c' = .ok limits
  objectives : r'.master.activeObjectives = r.master.activeObjectives.map fun e =>
    (e.1.renumber number, { e.2 with body := e.2.body.rename (.renumber number) })

namespace Trace

variable {first first' : Nat} {m : Model} {config config' : Config} {r r' : Reformulation}

section Again

variable (h : r.Trace first m .allMaster config) (h' : r'.Trace first' r.master .allMaster config')
include h h'

theorem again_vars (wf : m.WellFormed) (wf' : r.master.WellFormed) :
    r'.master.vars = r.master.vars.map fun e => (e.1, e.2.renumber first') := by
  rw [h'.allMaster_vars wf', h.allMaster_variableKeys wf,
    Slice.imagesIn_ofKeys_places wf.variableKeys_distinct, Slice.imagesIn_renumber _ first,
    h.allMaster_vars wf]

theorem again_constraints (wf : m.WellFormed) (wf' : r.master.WellFormed) :
    r'.master.constraints = r.master.constraints.map fun e => (e.1, e.2.renumber first') := by
  rw [h'.allMaster_active wf', h'.allMaster_rows wf', h.allMaster_constraintKeys wf,
    Slice.imagesIn_ofKeys_places wf.constraintKeys_distinct, Slice.imagesIn_renumber _ first,
    h.allMaster_active wf, h.allMaster_rows wf]

variable (wf : m.WellFormed) (wf' : r.master.WellFormed) (wf'' : r'.master.WellFormed)
include wf wf' wf''

/-- The key of a variable of the first master leads to the same place in the second one. -/
theorem again_variable {e : Key × Handle} (he : e ∈ r.master.vars) :
    r.master.preimageOf e.1 = e.2 ∧ r'.master.preimageOf e.1 = e.2.renumber first' := by
  refine ⟨Model.preimageOf_of_mem_vars wf' he, Model.preimageOf_of_mem_vars wf'' ?_⟩
  rw [h.again_vars h' wf wf']
  exact List.mem_map_of_mem (f := fun e => (e.1, e.2.renumber first')) he

theorem again_constraint {e : Key × Handle} (he : e ∈ r.master.constraints) :
    r.master.preimageOf e.1 = e.2 ∧ r'.master.preimageOf e.1 = e.2.renumber first' := by
  refine ⟨Model.preimageOf_of_mem_constraints wf' he, Model.preimageOf_of_mem_constraints wf'' ?_⟩
  rw [h.again_constraints h' wf wf']
  exact List.mem_map_of_mem (f := fun e => (e.1, e.2.renumber first')) he

theorem again_image {e : Key × Handle} (he : e ∈ r.master.vars) :
    r'.vars.image? e.2 = some (e.2.renumber first') := by
  have hk : e.1 ∈ r.master.variableKeys := List.mem_map_of_mem he
  obtain ⟨own, there⟩ := h.again_variable h' wf wf' wf'' he
  rw [← there, ← own]
  exact ((h'.isMirror wf' wf'').copies e.1 hk).1

/-- The bodies over the images of the first master are renumbered. -/
theorem again_rename {form : AffineForm} (known : ∀ v ∈ form.vars, v ∈ m.vars.map (·.2)) :
    ((form.rename (Expression.nameOf r.vars.image?)).rename
        (Expression.nameOf r'.vars.image?)).toExpression =
      (form.rename (Expression.nameOf r.vars.image?)).toExpression.rename (.renumber first') := by
  rw [← AffineForm.toExpression_rename]
  refine congrArg AffineForm.toExpression (AffineForm.rename_congr fun image hi => ?_)
  rw [AffineForm.vars_rename] at hi
  obtain ⟨v, hv, rfl⟩ := List.mem_map.mp hi
  have declared := known v hv
  rw [Model.vars_elements wf] at declared
  obtain ⟨key, hk, rfl⟩ := List.mem_map.mp declared
  obtain ⟨listed, named⟩ := h.allMaster_preimageOf wf wf' hk
  obtain ⟨e, he, rfl⟩ := List.mem_map.mp listed
  rw [← named, (h.again_variable h' wf wf' wf'' he).1, Expression.nameOf,
    h.again_image h' wf wf' wf'' he]
  rfl

theorem again_copies {e : Key × Handle} (he : e ∈ r.master.vars) :
    ∃ v, r.master.variableOf? e.2 = some v ∧
      r'.master.variableOf? (e.2.renumber first') = some v := by
  have hk' : e.1 ∈ r.master.variableKeys := List.mem_map_of_mem he
  have hk := (h.isMirror wf wf').variableKeys.mem_iff.mp hk'
  obtain ⟨_, v, -, bounded, copied⟩ := h.allMaster_variable wf wf' hk
  obtain ⟨w, w', there, bounded', copied'⟩ := h'.allMaster_variable wf' wf'' hk'
  obtain rfl := Option.some.inj (copied.symm.trans there)
  obtain rfl := Except.ok.inj ((Variable.bounded?_of_bounded bounded).symm.trans bounded')
  obtain ⟨own, placed⟩ := h.again_variable h' wf wf' wf'' he
  rw [own] at there
  rw [placed] at copied'
  exact ⟨v, there, copied'⟩

theorem again_rows {e : Key × Handle} (he : e ∈ r.master.constraints) :
    ∃ c c' limits, r.master.constraintOf? e.2 = some c ∧
      r'.master.constraintOf? (e.2.renumber first') = some c' ∧
        c'.body = c.body.rename (.renumber first') ∧
          ∀ reading, Limits.ofConstraint? reading c = .ok limits ∧
            Limits.ofConstraint? reading c' = .ok limits := by
  have hk' : e.1 ∈ r.master.constraintKeys := List.mem_map_of_mem he
  have hk := (h.isMirror wf wf').constraintKeys.mem_iff.mp hk'
  obtain ⟨form, limits, c, read, -, there, body, settled⟩ := h.allMaster_row wf wf' hk
  obtain ⟨form', limits', c', read', -, there', body', settled'⟩ := h'.allMaster_row wf' wf'' hk'
  cases Except.ok.inj ((h.allMaster_readConstraint wf wf' hk read).symm.trans read')
  obtain ⟨own, placed⟩ := h.again_constraint h' wf wf' wf'' he
  rw [own] at there
  rw [placed] at there'
  rw [Limits.settled_settled] at settled'
  refine ⟨c, c', limits.settled, there, there', ?_, fun reading => ⟨settled reading, settled' reading⟩⟩
  rw [body, body']
  exact h.again_rename h' wf wf' wf'' (Model.readConstraint_vars read)

theorem again_objectives (reuses : config'.Reuses config r.master) :
    r'.master.activeObjectives = r.master.activeObjectives.map fun e =>
      (e.1.renumber first', { e.2 with body := e.2.body.rename (.renumber first') }) := by
  obtain ⟨without, only⟩ := h.allMaster_objectives wf
  obtain ⟨without', only'⟩ := h'.allMaster_objectives wf'
  cases goals : m.activeObjectives with
  | nil => rw [without' (without goals), without goals, List.map_nil]
  | cons entry rest =>
      obtain ⟨form, label, formed, named, single⟩ := only entry (by simp [goals])
      obtain ⟨form', label', formed', named', single'⟩ :=
        only' _ (by rw [single]; exact List.mem_cons_self)
      have again := h.allMaster_formOf wf wf' formed "objective"
      obtain rfl := Except.ok.inj (again.symm.trans formed')
      obtain rfl := Value.str.inj ((reuses.objectiveNameFor named).symm.trans named')
      rw [single, single', h.again_rename h' wf wf' wf'' (Model.formOf_vars formed).2]
      rfl

/-- The second master repeats the first one. -/
theorem again_repeats (reuses : config'.Reuses config r.master) : r.Repeats r' first' where
  subproblems := h'.allMaster_subproblems
  convexity := h'.allMaster_convexity
  vars := h.again_vars h' wf wf'
  image _ he := h.again_image h' wf wf' wf'' he
  copies _ he := h.again_copies h' wf wf' wf'' he
  constraints := h.again_constraints h' wf wf'
  active := h'.allMaster_active wf'
  rows _ he := h.again_rows h' wf wf' wf'' he
  objectives := h.again_objectives h' wf wf' wf'' reuses

end Again

/-- The names that a decomposition adds can be used. -/
theorem addsNames (h : r.Trace first m .allMaster config) {own : Option (Handle × Objective)}
    (inForce : m.objectiveInForce? = .ok own)
    (named : ∀ v ∈ (own.map fun _ => nameDemand (newName config own)).toList, v = .ok ())
    (lower : nameDemand config.lowerName = .ok ()) (upper : nameDemand config.upperName = .ok ()) :
    config.AddsNames r.objective := by
  refine ⟨lower, upper, fun o ho => ?_⟩
  obtain ⟨own', inForce', mapped⟩ := h.objective
  obtain rfl := Except.ok.inj (inForce.symm.trans inForce')
  have names := mapObjective_name config mapped
  rw [Option.mem_def.mp ho] at names
  cases own with
  | none => cases names
  | some own =>
      have same : newName config (some own) = config.objectiveNameFor o.name := by
        rw [newName, names]
        rfl
      rw [← same]
      exact named _ (by simp)

section Success

variable (h : r.Trace first m .allMaster config) (wf : m.WellFormed) (regular : r.master.Regular)
  (reuses : config'.Reuses config r.master)
include h wf regular reuses

/-- The objective of the master is in force, is read, and keeps its name. -/
theorem again_inForce : ∃ own, r.master.objectiveInForce? = .ok own ∧
    newName config' own = ownName own ∧ (∀ v ∈ objectiveDemands r.master own, v = .ok ()) ∧
      ∀ v ∈ (own.map fun _ => nameDemand (newName config' own)).toList, v = .ok () := by
  have wf' := regular.toWellFormed
  obtain ⟨without, only⟩ := h.allMaster_objectives wf
  cases goals : m.activeObjectives with
  | nil =>
      refine ⟨none, ?_, rfl, by simp [objectiveDemands], by simp⟩
      rw [Model.objectiveInForce?, without goals]
  | cons entry rest =>
      obtain ⟨form, label, formed, named, single⟩ := only entry (by simp [goals])
      have inForce := Model.objectiveInForce?_of_single single
      obtain ⟨c, hc, component, -⟩ := content_of_objective inForce
      have kept := reuses.objectiveNameFor named
      refine ⟨_, inForce, kept, ?_, ?_⟩
      · simp [objectiveDemands, h.allMaster_formOf wf wf' formed, Verdict.of]
      · simp only [Option.map_some, Option.toList_some, List.mem_singleton, forall_eq]
        refine nameDemand_iff.mpr ⟨label, kept, ?_⟩
        have free := regular.unreserved c hc
        rwa [component] at free

/-- Decomposing the master again succeeds. -/
theorem exists_again (vars : m.variableKeys ≠ []) (constraints : m.constraintKeys ≠ [])
    (limits : ∀ key ∈ m.constraintKeys, m.limitsDemand key = .ok ()) (first' : Nat) :
    ∃ r', decompose first' r.master .allMaster config' = .ok r' := by
  have wf' := regular.toWellFormed
  have mirror := h.isMirror wf wf'
  obtain ⟨own, inForce, kept, objective, named⟩ := h.again_inForce wf regular reuses
  refine (exists_allMaster_iff regular).mpr ⟨own, inForce, fun none => ?_, fun none => ?_,
    Reuses.clash_met reuses wf' inForce kept, reuses.verbosity, fun key hk => ?_, fun key hk => ?_,
    objective, named, Reuses.names_met reuses⟩
  · exact vars (none ▸ mirror.variableKeys).nil_eq.symm
  · exact constraints (none ▸ mirror.constraintKeys).nil_eq.symm
  · obtain ⟨-, v, w, -, there, copied⟩ := mirror.copies key (mirror.variableKeys.mem_iff.mp hk)
    obtain ⟨a, -, read⟩ := copied.attributes
    exact Model.boundsDemand_of_attributes there read
  · have hk' := mirror.constraintKeys.mem_iff.mp hk
    obtain ⟨form, limits', c, read, -⟩ := h.allMaster_row wf wf' hk'
    have relatable := limits key hk'
    rw [Model.limitsDemand, read] at relatable
    rw [Model.limitsDemand, h.allMaster_readConstraint wf wf' hk' read]
    exact ⟨rfl, Limits.relatable_settled relatable⟩

end Success

end Trace

end Reformulation

namespace Decomposition

/-- Where everything goes to the master, the master is the model again, and decomposing it once
more with new names for the convexity constraints repeats it. -/
theorem allMaster_mirrors {first : Nat} {m : Model} {config : Config} {r : Reformulation}
    (regular : m.Regular) (h : decompose first m .allMaster config = .ok r) :
    r.IsMirror m config ∧ ∀ first' config', config'.Reuses config r.master →
      ∃ r', decompose first' r.master .allMaster config' = .ok r' ∧ r.Repeats r' first' := by
  have wf := regular.toWellFormed
  have trace := decompose_trace wf h
  obtain ⟨own, inForce, vars, constraints, met⟩ := (exists_allMaster_iff regular).mp ⟨r, h⟩
  have regular' := trace.allMaster_regular regular
    (trace.addsNames inForce met.objectiveName met.convexityNames.1 met.convexityNames.2)
  have wf' := regular'.toWellFormed
  refine ⟨trace.isMirror wf wf', fun first' config' reuses => ?_⟩
  obtain ⟨r', h'⟩ := trace.exists_again wf regular' reuses vars constraints
    (fun key hk => (met.rows key hk).2) first'
  have trace' := decompose_trace wf' h'
  obtain ⟨own', inForce', -, -, met'⟩ := (exists_allMaster_iff regular').mp ⟨r', h'⟩
  have regular'' := trace'.allMaster_regular regular'
    (trace'.addsNames inForce' met'.objectiveName met'.convexityNames.1 met'.convexityNames.2)
  exact ⟨r', h', trace.again_repeats trace' wf wf' regular''.toWellFormed reuses⟩

end Decomposition

/-- The standard options with other names for the convexity constraints. -/
def Config.renamed : Config :=
  { Config.standard with lowerName := .str "lower_again", upperName := .str "upper_again" }

/-- A model with a variable that is fixed goes to a master and from there to another one. -/
theorem oneValued_mirrored : (oneValued (.int 1) true 3 scaled).Regular ∧
    ∃ r, Decomposition.decompose 1 (oneValued (.int 1) true 3 scaled) .allMaster .standard = .ok r ∧
      r.IsMirror (oneValued (.int 1) true 3 scaled) .standard ∧
        Config.renamed.Reuses .standard r.master ∧
          ∃ r', Decomposition.decompose 2 r.master .allMaster .renamed = .ok r' ∧ r.Repeats r' 2 := by
  have regular := oneValued_regular (.int 1) true 3 scaled
  obtain ⟨r, h, free⟩ : ∃ r,
      Decomposition.decompose 1 (oneValued (.int 1) true 3 scaled) .allMaster .standard = .ok r ∧
        some (r.master.hasName "lower_again" || r.master.hasName "upper_again") = some false :=
    exists_of_toOption_bind (by decide +kernel)
  obtain ⟨lowerFree, upperFree⟩ := Bool.or_eq_false_iff.mp (Option.some.inj free)
  have reuses : Config.renamed.Reuses .standard r.master := {
    names := ⟨_, _, rfl, rfl, by decide, ⟨lowerFree, by decide +kernel⟩, upperFree, by decide +kernel⟩
    objective := .inl rfl
    verbosity := rfl }
  obtain ⟨mirror, again⟩ := Decomposition.allMaster_mirrors regular h
  exact ⟨regular, r, h, mirror, reuses, again 2 .renamed reuses⟩

/-- A range between a parameter and an equal number is an equality in the master. -/
theorem betweenEquals_not_mirrored :
    (betweenEquals.constraintOf? (betweenEquals.preimageOf ⟨"c", []⟩)).bind
        (Constraint.isReadEqual (World.reading [betweenEquals])) = some false ∧
      ∃ r, Decomposition.decompose 1 betweenEquals .allMaster .standard = .ok r ∧
        (r.master.constraintOf? (r.master.preimageOf ⟨"c", []⟩)).bind
          (Constraint.isReadEqual (World.reading r.world)) = some true :=
  ⟨by decide +kernel, exists_of_toOption_bind (by decide +kernel)⟩

end BlockAngular
