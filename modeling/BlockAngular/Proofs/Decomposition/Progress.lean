import BlockAngular.Proofs.Decomposition.Reading
import BlockAngular.Proofs.Model.Progress

/-! # When registering is refused

A slice of a regular model can be registered in a target that has none of its names yet, and
in a registry that has none of its elements. What may be refused are the bounds of a variable,
the body or the limits of a constraint, and limits that no constraint can have.
-/

namespace BlockAngular

open Decomposition

namespace Registry

/-- The registered preimages. -/
def preimages (r : Registry) : List Handle :=
  r.registrations.map (·.preimage)

variable {r r' : Registry} {preimage image : Handle} {block : Block}

theorem Extends.preimages {entries : List Registration} (h : Extends entries r r') :
    r'.preimages = r.preimages ++ entries.map (·.preimage) := by
  rw [Registry.preimages, h.registrations, List.map_append]
  rfl

/-- A preimage that is not registered yet can be. -/
theorem exists_add (new : preimage ∉ r.preimages) (image : Handle) (block : Block) :
    ∃ r', r.add preimage image block = .ok r' := by
  have absent : r.contains preimage = false := by
    by_contra there
    exact new (contains_iff.mp (by simpa using there))
  simp only [add, absent, Bool.false_eq_true, if_false]
  exact ⟨_, rfl⟩

end Registry

theorem Model.registrations_preimages (m : Model) (id : Nat) (block : Block)
    (places : List (Key × Nat)) : (m.registrations id block places).map (·.preimage) =
      places.map fun place => m.preimageOf place.1 := by
  simp [registrations, Function.comp_def]

namespace Slice.Sound

variable {m : Model} {slice : Slice} {name : String} {indices : List (List Value)}

/-- The rows under a name belong to one component. -/
theorem exists_component (h : slice.Sound m) (wf : m.WellFormed) (he : (name, indices) ∈ slice) :
    ∃ c ∈ m.components, c.name = name ∧
      ∀ row ∈ indices, Value.ofIndex row ∈ c.content.entries.map (·.1) := by
  have declared : ∀ row ∈ indices, m.Declares ⟨name, row⟩ := fun row hr =>
    h.declared _ (List.mem_flatMap.mpr ⟨_, he, List.mem_map_of_mem hr⟩)
  obtain ⟨row, hrow⟩ := List.exists_mem_of_ne_nil _ (h.grouped.nonempty _ he)
  obtain ⟨c, index, position, there, equal⟩ := declared row hrow
  obtain ⟨rfl, -⟩ := Key.mk.inj equal
  refine ⟨c, there.component, rfl, fun other ho => ?_⟩
  obtain ⟨c', index', position', there', equal'⟩ := declared other ho
  obtain ⟨named, rfl⟩ := Key.mk.inj equal'
  obtain rfl := Model.component_unique wf.names_nodup there.component there'.component named
  have listed := List.mem_of_getElem? there'.entry
  have isIndex := (wf.contents c there.component).entries.2 index'
    (List.mem_map_of_mem (f := (·.1)) listed)
  rw [isIndex.ofIndex_toIndex]
  exact List.mem_map_of_mem (f := (·.1)) listed

theorem unreserved (h : slice.Sound m) (regular : m.Regular) (he : (name, indices) ∈ slice) :
    Reserved.inModel name = false := by
  obtain ⟨c, hc, rfl, -⟩ := h.exists_component regular.toWellFormed he
  exact regular.unreserved c hc

/-- The rows under a name have one length. -/
theorem uniform (h : slice.Sound m) (regular : m.Regular) (he : (name, indices) ∈ slice) :
    Family.Uniform ((Value.sortIndices indices).map Value.ofIndex) := by
  obtain ⟨c, hc, rfl, rows⟩ := h.exists_component regular.toWellFormed he
  refine (regular.uniform c hc).of_subset fun index hi => ?_
  obtain ⟨row, hr, rfl⟩ := List.mem_map.mp hi
  exact rows row ((Value.sortIndices_perm indices).mem_iff.mp hr)

end Slice.Sound

namespace Staging

variable {s : Staging}

@[simp] theorem onTarget_verdict {α : Type} (stage : Stage Model α) :
    (onTarget stage).verdict s = stage.verdict s.target := by
  unfold Stage.verdict Stage.finish onTarget
  cases stage s.target <;> rfl

/-- An element that is not registered yet can be. -/
theorem register_of_new {preimage : Handle} (new : preimage ∉ s.registry.preimages)
    (image : Handle) (block : Block) : (register preimage image block).verdict s = .ok () := by
  obtain ⟨registry, added⟩ := Registry.exists_add new image block
  exact Stage.verdict_eq_ok.mpr ⟨⟨⟩, _, register_ok.mpr ⟨registry, added, rfl⟩⟩

end Staging

namespace Model

/-- The demand on a variable that is to have an image. -/
def boundsDemand (m : Model) (key : Key) : Verdict := do
  let v ← (m.variableAt (m.preimageOf key)).mapError .fault
  Verdict.of ((Attributes.ofVariable? v).mapError .fault)

end Model

variable {m : Model} {block : Block}

theorem registerVariable_verdict (wf : m.WellFormed) {key : Key} (declared : m.Declares key)
    {position : Nat} {target : Model} {registry : Registry}
    (new : m.preimageOf key ∉ registry.preimages) :
    (registerVariable block key.name key.index position).verdict ⟨m, target, registry⟩ =
      m.boundsDemand key := by
  rw [registerVariable, Stage.verdict_bind_of_ok
    (Staging.preimage_of_declares wf declared target registry)]
  simp only [Stage.verdict_get_bind, Stage.verdict_ofFault_bind, Stage.verdict_set_bind,
    Model.boundsDemand]
  cases (m.variableAt (m.preimageOf key)).mapError Error.fault with
  | error e => rfl
  | ok v =>
      refine .trans ?_ (Verdict.bind_const_ok ((Attributes.ofVariable? v).mapError .fault))
      exact congrArg _ (funext fun a => Stage.verdict_bind_pure.trans
        (Staging.register_of_new new _ _))

/-- Registering a variable leaves the model alone and adds one registration. -/
theorem registerVariable_adds (wf : m.WellFormed) {key : Key} (declared : m.Declares key)
    {position : Nat} {target : Model} {registry : Registry} {pending : List (Handle × Value)}
    {s' : Staging} (h : registerVariable block key.name key.index position ⟨m, target, registry⟩ =
      .ok pending s') :
    s'.compact = m ∧ s'.registry.preimages = registry.preimages ++ [m.preimageOf key] := by
  rw [registerVariable, Stage.bind_of_ok
    (Staging.preimage_of_declares wf declared target registry)] at h
  simp only [Stage.bind_ok, Stage.get_ok, Stage.ofFault_ok, Stage.set_ok, Staging.register_ok,
    Stage.pure_ok] at h
  obtain ⟨_, _, ⟨rfl, rfl⟩, v, _, ⟨-, rfl⟩, a, _, ⟨-, rfl⟩, _, _, rfl, _, _, ⟨registry', added, rfl⟩,
    -, rfl⟩ := h
  exact ⟨rfl, (Registry.add_ok added).preimages⟩

theorem registerComponent_verdict (regular : m.Regular) {slice : Slice} (sound : slice.Sound m)
    {name : String} {indices : List (List Value)} (he : (name, indices) ∈ slice) {s : Staging}
    (compact : s.compact = m) (fresh : name ∉ s.target.names)
    (new : (s.registry.preimages ++
      (Slice.places [(name, indices)]).map fun place => m.preimageOf place.1).Nodup) :
    (registerComponent block name indices).verdict s =
      .all ((Slice.places [(name, indices)]).map fun place => m.boundsDemand place.1) := by
  obtain ⟨own, base, registry⟩ := s
  obtain rfl : m = own := compact.symm
  have rows := sound.rows regular.toWellFormed he
  have flat : ∀ row ∈ (rowsOf (Value.sortIndices indices)).getD [],
      Value.flatIndex row = row := by
    unfold rowsOf
    split
    · simp
    · exact fun row hr => rows.flat hr
  have declares : (Model.addVariables name (rowsOf (Value.sortIndices indices))
      Variable.free).verdict base = .ok () := by
    refine Model.addVariables_verdict rfl fresh (sound.unreserved regular he) flat ?_ ?_
    · rw [Family.indicesOf_rowsOf]
      exact fun index hi => (rows.distinct.keys index hi).hashable
    · rw [Family.indicesOf_rowsOf]
      exact sound.uniform regular he
  have keys : ∀ e ∈ (Value.sortIndices indices).zipIdx, m.Declares ⟨name, e.1⟩ := fun e hm =>
    sound.declared _ (Slice.mem_keys_of_mem_sorted he (List.fst_mem_of_mem_zipIdx hm))
  have listed : Slice.places [(name, indices)] =
      (Value.sortIndices indices).zipIdx.map fun e => (⟨name, e.1⟩, e.2) := by
    simp [Slice.places]
  simp only [registerComponent]
  rw [Stage.verdict_bind (.all ((Slice.places [(name, indices)]).map
    fun place => m.boundsDemand place.1)), Staging.onTarget_verdict, declares, Verdict.ok_bind]
  intro u t done
  obtain ⟨target, -, rfl⟩ := Staging.onTarget_ok.mp done
  rw [Stage.verdict_bind_pure, listed, List.map_map]
  refine Stage.verdict_mapM _ (fun rest s => s.compact = m ∧
    (s.registry.preimages ++ rest.map fun e => m.preimageOf ⟨name, e.1⟩).Nodup ∧
      ∀ e ∈ rest, m.Declares ⟨name, e.1⟩) ?_ ⟨rfl, by simpa [listed, Function.comp_def] using new, keys⟩
  rintro ⟨row, position⟩ rest ⟨own, target, registry⟩ ⟨same, apart, declared⟩
  obtain rfl : m = own := same.symm
  have here := declared _ List.mem_cons_self
  have first : m.preimageOf ⟨name, row⟩ ∉ registry.preimages := fun there =>
    (List.nodup_append.mp apart).2.2 _ there _ (by simp) rfl
  refine ⟨registerVariable_verdict regular.toWellFormed here first, fun pending t step => ?_⟩
  obtain ⟨same, added⟩ := registerVariable_adds regular.toWellFormed here step
  refine ⟨same, ?_, fun e hm => declared e (List.mem_cons_of_mem _ hm)⟩
  rw [added]
  simpa using apart

/-- A state that a slice can be registered in. -/
structure Staging.IsReady (m : Model) (slice : Slice) (s : Staging) : Prop where
  sound : slice.Sound m
  compact : s.compact = m
  names : (s.target.names ++ slice.map (·.1)).Nodup
  new : (s.registry.preimages ++ slice.places.map fun place => m.preimageOf place.1).Nodup

namespace Staging.IsReady

variable {slice : Slice} {entry : String × List (List Value)} {s t : Staging}

theorem fresh (h : IsReady m (entry :: slice) s) : entry.1 ∉ s.target.names := fun there =>
  (List.nodup_append.mp h.names).2.2 _ there entry.1 (by simp) rfl

theorem head_new (h : IsReady m (entry :: slice) s) : (s.registry.preimages ++
    (Slice.places [entry]).map fun place => m.preimageOf place.1).Nodup := by
  have new := h.new
  rw [Slice.places_cons, List.map_append, ← List.append_assoc] at new
  exact (List.nodup_append.mp new).1

/-- After one component the others can be registered. -/
theorem next (h : IsReady m (entry :: slice) s) {content : Content}
    (staged : Staged m block (Slice.places [entry]) [(entry.1, content)] s t) :
    IsReady m slice t where
  sound := h.sound.tail
  compact := staged.compact
  names := by
    have names := h.names
    rw [← Model.contents_names, staged.contents, List.map_append, Model.contents_names]
    simpa using names
  new := by
    have new := h.new
    rw [Slice.places_cons, List.map_append, ← List.append_assoc] at new
    rwa [staged.registry.preimages, Model.registrations_preimages]

end Staging.IsReady

/-- The demands on the variables of a slice come in the order of their images. -/
theorem registerVariables_verdict (regular : m.Regular) {slice : Slice} {s : Staging}
    (ready : s.IsReady m slice) : (registerVariables block slice).verdict s =
      .all (slice.places.map fun place => m.boundsDemand place.1) := by
  rw [registerVariables, Stage.verdict_bind_pure, Stage.verdict_mapM
    (fun entry => .all ((Slice.places [entry]).map fun place => m.boundsDemand place.1))
    (fun rest s => s.IsReady m rest) ?_ ready]
  · rw [← Verdict.all_flatMap, ← List.map_flatMap]
    simp [Slice.places]
  · rintro ⟨name, indices⟩ rest s ready
    refine ⟨registerComponent_verdict regular ready.sound List.mem_cons_self ready.compact
      ready.fresh ready.head_new, fun pending t done => ready.next
        (registerComponent_ok regular.toWellFormed
          (ready.sound.rows regular.toWellFormed List.mem_cons_self) ?_ ready.compact done).1⟩
    exact fun row hr => ready.sound.declared _
      (Slice.mem_keys_of_mem_sorted List.mem_cons_self hr)

namespace Limits

/-- Limits that some constraint can have: an equality has a number, and a range a side; numbers
on both sides must not cross. -/
def relatable (limits : Limits Float) : Verdict :=
  match limits.equality, limits.lower, limits.upper with
  | true, some _, _ => .ok ()
  | true, none, _ | false, none, none => .error (.fault .badValue)
  | false, some x, some y =>
    .require ((Binary64.exact x).below (Binary64.exact y) ∨
      (Binary64.exact x).same (Binary64.exact y)) (.fault .emptyRelation)
  | false, _, _ => .ok ()

/-- Whether limits are refused does not depend on the body. -/
theorem constrain_verdict (limits : Limits Float) {body : Expression}
    (withVars : body.hasVariables = true) :
    Verdict.of ((limits.constrain body).mapError .fault) = limits.relatable := by
  have linear := Constraint.isLiteral_of_hasVariables withVars
  obtain ⟨lower, upper, equality⟩ := limits
  cases equality with
  | true => cases lower <;> rfl
  | false =>
      cases lower with
      | none =>
          cases upper with
          | none => rfl
          | some y =>
              simp only [constrain, Constraint.range, Option.map_none, Option.map_some,
                Constraint.atMost, linear, Bool.false_and, literal_hasVariables, Bool.not_false,
                Bool.false_eq_true, if_false, if_true]
              rfl
      | some x =>
          cases upper with
          | none =>
              simp only [constrain, Constraint.range, Option.map_none, Option.map_some,
                Constraint.atMost, linear, Bool.and_false, withVars, literal_hasVariables,
                Bool.not_true, Bool.not_false, Bool.false_eq_true, if_false, if_true]
              rfl
          | some y =>
              simp only [constrain, Constraint.range, Option.map_some, Constraint.between,
                literal_hasVariables, Bool.or_self, Bool.false_eq_true, if_false, literal_literal?,
                linear, Bool.false_or, relatable, Verdict.require]
              cases (Binary64.exact x).below (Binary64.exact y) <;>
                cases (Binary64.exact x).same (Binary64.exact y) <;> rfl

end Limits

namespace Model

/-- The demand on the limits of a constraint that is to have an image. -/
def limitsDemand (m : Model) (key : Key) : Verdict := do
  let (_, limits) ← m.readConstraint key
  limits.relatable

/-- The demands on the constraints under a name: all of them are read before the first one
is made. -/
def constraintDemands (m : Model) (name : String) (indices : List (List Value)) : List Verdict :=
  (Value.sortIndices indices).map (fun row => Verdict.of (m.readConstraint ⟨name, row⟩)) ++
    (Value.sortIndices indices).map fun row => m.limitsDemand ⟨name, row⟩

end Model

variable {vars : Registry}

theorem transit_eq (wf : m.WellFormed) {r : Expression.Reading} {key : Key}
    (declared : m.Declares key) {target : Model} {registry : Registry} :
    transit r vars block key.name key.index ⟨m, target, registry⟩ =
      Stage.ofExcept (transitOf r vars block m key) ⟨m, target, registry⟩ := by
  rw [transit, Stage.bind_of_ok
    (Staging.preimage_of_declares wf declared target registry),
    Stage.bind_of_ok (Stage.get_ok.mpr ⟨rfl, rfl⟩), transitOf, Stage.ofExcept_bind, Stage.ofFault_eq]
  refine congrFun (bind_congr fun c => ?_) _
  dsimp only
  split
  · rfl
  · simp only [Stage.ofExcept_bind, Stage.ofFault_eq]
    rfl

/-- Whether a constraint can move does not depend on the block that it moves to. -/
theorem transit_verdict (wf : m.WellFormed) (images : vars.HasImages m) {key : Key}
    (declared : m.Declares key) {target : Model} {registry : Registry} :
    (transit (imageReading m vars) vars block key.name key.index).verdict ⟨m, target, registry⟩ =
      .of (m.readConstraint key) := by
  rw [Stage.verdict, Stage.finish, transit_eq wf declared, transitOf_eq wf images]
  cases m.readConstraint key <;> rfl

/-- Settled constraints can be declared by the rows of a component. -/
theorem declareConstraints_verdict {name : String} {rows : List (List Value)}
    (areRows : Value.AreRows rows) (uniform : Family.Uniform (rows.map Value.ofIndex))
    {constraints : List (Except Fault Constraint)} (lengths : rows.length = constraints.length)
    {base : Model} (fresh : name ∉ base.names) (unreserved : Reserved.inModel name = false) :
    (declareConstraints name rows constraints).verdict base =
      .all (constraints.map fun c => .of (c.mapError .fault)) := by
  by_cases scalar : isScalarIndex rows = true
  · obtain rfl := Family.isScalarIndex_iff.mp scalar
    obtain ⟨c, rfl⟩ := List.length_eq_one_iff.mp lengths.symm
    simp only [declareConstraints, rowsOf, isScalarIndex, if_true]
    rw [Stage.verdict_bind (.of (c.mapError .fault)),
      Model.addStatement_none_verdict fresh, Verdict.require_eq_ok.mpr unreserved]
    · simp
    · intro _ _ _
      simp only [Stage.verdict_ofFault_bind, Stage.verdict_modify, Verdict.bind_const_ok]
  · have several : rowsOf rows = some rows := by simp [rowsOf, scalar]
    have seconds := List.map_snd_zip (show constraints.length ≤ rows.length by omega)
    have keys := zip_indices lengths
    have steps := Model.addConstraints_settled_verdict (rows.zip constraints) fresh
      unreserved (fun row hr => areRows.flat (List.of_mem_zip hr).1) (by rw [keys]; exact areRows.distinct)
      (by rw [keys]; exact uniform)
    have listed : (rows.zip constraints).map (fun row => Verdict.of (row.2.mapError .fault)) =
        constraints.map fun c => Verdict.of (c.mapError .fault) := by
      conv_rhs => rw [← seconds, List.map_map]
      rfl
    simp only [declareConstraints, several, List.zip_map_right]
    exact steps.trans (congrArg Verdict.all listed)

theorem registerTransits_verdict {name : String} {transits : List Transit}
    {s : Staging} (new : (s.registry.preimages ++ transits.map (·.preimage)).Nodup) :
    (transits.zipIdx.mapM fun (t, position) => do
        let image := (← get).target.handle name position
        Staging.register t.preimage image block
        return (⟨t.preimage, image, t.form⟩ : Transfer) : Stage Staging _).verdict s = .ok () := by
  have steps : (transits.zipIdx.mapM fun (t, position) => do
        let image := (← get).target.handle name position
        Staging.register t.preimage image block
        return (⟨t.preimage, image, t.form⟩ : Transfer) : Stage Staging _).verdict s =
      .all (transits.zipIdx.map fun _ => .ok ()) := by
    refine Stage.verdict_mapM _ (fun rest s =>
      (s.registry.preimages ++ rest.map (·.1.preimage)).Nodup) ?_ ?_
    · rintro ⟨t, position⟩ rest s apart
      have first : t.preimage ∉ s.registry.preimages := fun there =>
        (List.nodup_append.mp apart).2.2 _ there _ (by simp) rfl
      refine ⟨?_, fun transfer s' done => ?_⟩
      · simp only [Stage.verdict_get_bind, Stage.verdict_bind_pure]
        exact Staging.register_of_new first _ _
      · simp only [Stage.bind_ok, Stage.get_ok, Staging.register_ok, Stage.pure_ok] at done
        obtain ⟨_, _, ⟨rfl, rfl⟩, _, _, ⟨registry, added, rfl⟩, -, rfl⟩ := done
        simp only [(Registry.add_ok added).preimages]
        simpa using apart
    · have firsts : transits.zipIdx.map (·.1.preimage) = transits.map (·.preimage) := by
        conv_rhs => rw [← List.zipIdx_map_fst 0 transits, List.map_map]
        rfl
      rwa [firsts]
  rw [steps, Verdict.all_eq_ok]
  simp

/-- What may be wrong with the image of a constraint once the constraint is read. -/
theorem constraint_verdict (wf : m.WellFormed) (images : vars.HasImages m) {key : Key} {t : Transit}
    (arrived : transitOf (imageReading m vars) vars block m key = .ok t) :
    Verdict.of (t.constraint.mapError .fault) = m.limitsDemand key := by
  rw [transitOf_eq wf images] at arrived
  obtain ⟨read, found, rfl⟩ := Success.map_ok.mp arrived
  rw [Model.limitsDemand, found]
  exact Limits.constrain_verdict _ rfl

theorem map_of_forall₂ {α β γ : Type} {f : α → γ} {g : β → γ} {as : List α} {bs : List β}
    (h : List.Forall₂ (fun a b => g b = f a) as bs) : bs.map g = as.map f := by
  induction h with
  | nil => rfl
  | cons first _ ih => simp [first, ih]

theorem registerConstraintComponent_verdict (regular : m.Regular) (images : vars.HasImages m)
    {slice : Slice} (sound : slice.Sound m) {name : String} {indices : List (List Value)}
    (he : (name, indices) ∈ slice) {s : Staging} (compact : s.compact = m)
    (fresh : name ∉ s.target.names) (new : (s.registry.preimages ++
      (Slice.places [(name, indices)]).map fun place => m.preimageOf place.1).Nodup) :
    (registerConstraintComponent (imageReading m vars) vars block name indices).verdict s =
      .all (m.constraintDemands name indices) := by
  obtain ⟨own, base, registry⟩ := s
  obtain rfl : m = own := compact.symm
  have wf := regular.toWellFormed
  have declared : ∀ row ∈ Value.sortIndices indices, m.Declares ⟨name, row⟩ := fun row hr =>
    sound.declared _ (Slice.mem_keys_of_mem_sorted he hr)
  have read : ((Value.sortIndices indices).mapM
      (transit (imageReading m vars) vars block name)).verdict ⟨m, base, registry⟩ =
        .all ((Value.sortIndices indices).map fun row => .of (m.readConstraint ⟨name, row⟩)) := by
    refine Stage.verdict_mapM _ (fun rest s => s = ⟨m, base, registry⟩ ∧
      ∀ row ∈ rest, m.Declares ⟨name, row⟩) ?_ ⟨rfl, declared⟩
    rintro row rest _ ⟨rfl, declared⟩
    obtain ⟨first, others⟩ := List.forall_mem_cons.mp declared
    exact ⟨transit_verdict wf images first, fun t s' arrived =>
      ⟨(transit_ok wf first arrived).2, others⟩⟩
  rw [registerConstraintComponent, Stage.verdict_bind (.all
    ((Value.sortIndices indices).map fun row => m.limitsDemand ⟨name, row⟩)), read,
    Model.constraintDemands, Verdict.all_append]
  intro transits s' arrivedAll
  obtain ⟨arrived, rfl⟩ := Stage.mapM_ok_of_constant
    (fun row hr t s' arrived => transit_ok wf (declared row hr) arrived) arrivedAll
  -- the demands on the limits are those on the constraints in transit
  have settled : transits.map (fun t => Verdict.of (t.constraint.mapError .fault)) =
      (Value.sortIndices indices).map fun row => m.limitsDemand ⟨name, row⟩ :=
    map_of_forall₂ (arrived.imp fun _ _ arrived => constraint_verdict wf images arrived)
  have preimages : transits.map (·.preimage) =
      (Value.sortIndices indices).map fun row => m.preimageOf ⟨name, row⟩ :=
    map_of_forall₂ (arrived.imp fun _ _ arrived => (transitOf_ok arrived).1)
  rw [Stage.verdict_bind (.ok ()), Verdict.bind_ok, Staging.onTarget_verdict,
    declareConstraints_verdict (sound.rows wf he) (sound.uniform regular he)
      (by simpa using arrived.length_eq) fresh (sound.unreserved regular he), List.map_map]
  · exact congrArg Verdict.all settled
  · intro _ s' done
    obtain ⟨target, -, rfl⟩ := Staging.onTarget_ok.mp done
    have listed : (Slice.places [(name, indices)]).map (fun place => m.preimageOf place.1) =
        (Value.sortIndices indices).map fun row => m.preimageOf ⟨name, row⟩ := by
      show (Slice.places [(name, indices)]).map (m.preimageOf ∘ Prod.fst) = _
      rw [← List.map_map, Slice.places_keys]
      simp
    refine registerTransits_verdict ?_
    rwa [preimages, ← listed]

/-- The demands on the constraints of a slice come component by component. -/
theorem registerConstraints_verdict (regular : m.Regular) (images : vars.HasImages m)
    {slice : Slice} {s : Staging} (ready : s.IsReady m slice) :
    (registerConstraints (imageReading m vars) vars block slice).verdict s =
      .all (slice.flatMap fun (name, indices) => m.constraintDemands name indices) := by
  rw [registerConstraints, Stage.verdict_bind_pure, Stage.verdict_mapM
    (fun entry => .all (m.constraintDemands entry.1 entry.2))
    (fun rest s => s.IsReady m rest) ?_ ready]
  · rw [Verdict.all_flatMap]
  · rintro ⟨name, indices⟩ rest s ready
    refine ⟨registerConstraintComponent_verdict regular images ready.sound List.mem_cons_self
      ready.compact ready.fresh ready.head_new, fun transfers t done => ready.next
        (registerConstraintComponent_ok regular.toWellFormed
          (ready.sound.rows regular.toWellFormed List.mem_cons_self) ?_ ready.compact done).1⟩
    exact fun row hr => ready.sound.declared _
      (Slice.mem_keys_of_mem_sorted List.mem_cons_self hr)

end BlockAngular
