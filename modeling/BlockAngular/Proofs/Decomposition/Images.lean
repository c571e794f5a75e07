import BlockAngular.Proofs.Decomposition.Slices
import BlockAngular.Proofs.Registry

/-! # What registering leaves behind

Registering a slice in a model declares one component for each name of the slice and
registers an image for each of its keys, at the place of the key in the slice. The model
that the keys come from stays as it is.
-/

namespace BlockAngular

namespace Staging

variable {α : Type} {s s' : Staging}

@[simp] theorem onTarget_ok {stage : Stage Model α} {a : α} :
    onTarget stage s = .ok a s' ↔
      ∃ target, stage s.target = .ok a target ∧ s' = { s with target := target } := by
  unfold onTarget
  cases stage s.target <;> simp [eq_comm]

@[simp] theorem register_ok {preimage image : Handle} {block : Block} {u : Unit} :
    register preimage image block s = .ok u s' ↔
      ∃ registry, s.registry.add preimage image block = .ok registry ∧
        s' = { s with registry := registry } := by
  simp only [register, Stage.bind_ok, Stage.get_ok, Stage.ofExcept_ok, Stage.set_ok]
  grind

/-- Asking for a declared element finds it and changes nothing. -/
theorem preimage_of_declares {m : Model} (wf : m.WellFormed) {key : Key}
    (declared : m.Declares key) (target : Model) (registry : Registry) :
    preimage key.name key.index ⟨m, target, registry⟩ =
      .ok (m.preimageOf key) ⟨m, target, registry⟩ := by
  obtain ⟨name, index⟩ := key
  have found := Model.reachElement_of_element (declared.element wf) (declared.hasElement wf)
  simp only at found
  simp [preimage, found]

end Staging

namespace Model

variable {m : Model}

/-- The attributes that the image of a variable takes over. -/
def attributesOf (m : Model) (key : Key) : Option Attributes :=
  (m.variableOf? (m.preimageOf key)).bind fun v => (Attributes.ofVariable? v).toOption

/-- The image of a variable before anything is fixed. -/
def imageVariable (m : Model) (key : Key) : Option Variable :=
  (m.attributesOf key).map Attributes.toVariable

/-- The image of a variable with its value if it has to be fixed. -/
def fixing (m : Model) (image : Handle) (key : Key) : List (Handle × Value) :=
  match m.attributesOf key with
  | some a => if a.fixed then [(image, a.fixValue)] else []
  | none => []

/-- Where images of a block are registered: the places of keys in a model of a number. -/
def registrations (m : Model) (id : Nat) (block : Block) (places : List (Key × Nat)) :
    List Registration :=
  places.map fun (key, position) => ⟨m.preimageOf key, ⟨id, key.name, position⟩, block⟩

theorem variableOf?_of_variableAt {h : Handle} {v : Variable} (found : m.variableAt h = .ok v) :
    m.variableOf? h = some v := by
  simp only [variableAt] at found
  cases there : m.variableOf? h <;> simp_all

theorem updateVariable_append {name : String} {indexed : Bool} {recipes : List Recipe}
    {made rest : List (Value × Option Variable)} {index : Value} {v w : Variable}
    (fresh : name ∉ m.names) :
    (m.append ⟨name, .vars ⟨indexed, made ++ (index, some v) :: rest⟩, recipes⟩).updateVariable
        (m.handle name made.length) (fun _ => w) =
      m.append ⟨name, .vars ⟨indexed, made ++ (index, some w) :: rest⟩, recipes⟩ := by
  have named : (m.append ⟨name, .vars ⟨indexed, made ++ (index, some v) :: rest⟩,
      recipes⟩).hasName name = true := by
    simp [hasName, component?_append (c := ⟨name, _, recipes⟩) fresh]
  simp only [updateVariable, handle_component, named, if_true, handle_position,
    change_append (c := ⟨name, _, recipes⟩) fresh, Family.update]
  rw [List.modify_eq_take_cons_drop (by simp)]
  simp [List.drop_append, List.drop_eq_nil_of_le]

end Model

variable {m : Model} {block : Block}

/-- One image of a variable, in a component that is declared already. -/
theorem registerVariable_ok (wf : m.WellFormed) {base : Model} {registry : Registry}
    {name : String} {indexed : Bool} {recipes : List Recipe}
    {made rest : List (Value × Option Variable)} {index : Value} {v : Variable}
    {row : List Value} {pending : List (Handle × Value)} {s' : Staging}
    (fresh : name ∉ base.names) (declared : m.Declares ⟨name, row⟩)
    (h : registerVariable block name row made.length ⟨m, base.append
      ⟨name, .vars ⟨indexed, made ++ (index, some v) :: rest⟩, recipes⟩, registry⟩ =
        .ok pending s') :
    ∃ registry', m.attributesOf ⟨name, row⟩ ≠ none ∧
      registry.Extends [⟨m.preimageOf ⟨name, row⟩, base.handle name made.length, block⟩] registry' ∧
      s' = ⟨m, base.append ⟨name, .vars ⟨indexed,
        made ++ (index, m.imageVariable ⟨name, row⟩) :: rest⟩, recipes⟩, registry'⟩ ∧
      pending = m.fixing (base.handle name made.length) ⟨name, row⟩ := by
  simp only [registerVariable, Stage.bind_ok, Staging.preimage_of_declares wf declared,
    Stage.get_ok, Stage.ofFault_ok, Stage.set_ok, Staging.register_ok, Stage.pure_ok] at h
  obtain ⟨_, _, found, _, _, ⟨rfl, rfl⟩, w, _, ⟨there, rfl⟩, a, _, ⟨attributes, rfl⟩, _, _, rfl, _, _,
    ⟨registry', added, rfl⟩, rfl, rfl⟩ := h
  cases found
  have taken : m.attributesOf ⟨name, row⟩ = some a := by
    simp only [Model.attributesOf, Model.variableOf?_of_variableAt there, Option.bind_some,
      attributes, Except.toOption]
  refine ⟨registry', by simp [taken], Registry.add_ok added, ?_, by simp [Model.fixing, taken]⟩
  simp only [Model.append_handle, Model.updateVariable_append fresh, Model.imageVariable, taken,
    Option.map_some]

/-- The images of the variables of one name, from some position on. -/
theorem registerVariable_rows_ok (wf : m.WellFormed) {base : Model} {name : String}
    {indexed : Bool} {recipes : List Recipe} (fresh : name ∉ base.names)
    (rows : List (List Value)) (made : List (Value × Option Variable)) {registry : Registry}
    {pending : List (List (Handle × Value))} {s' : Staging}
    (declared : ∀ row ∈ rows, m.Declares ⟨name, row⟩)
    (h : ((rows.zipIdx made.length).mapM fun (row, position) =>
        registerVariable block name row position : Stage Staging _) ⟨m, base.append ⟨name, .vars
          ⟨indexed, made ++ rows.map fun row => (Value.ofIndex row, some Variable.free)⟩, recipes⟩,
            registry⟩ = .ok pending s') :
    ∃ registry', (∀ row ∈ rows, m.attributesOf ⟨name, row⟩ ≠ none) ∧
      registry.Extends (m.registrations base.id block
        ((rows.zipIdx made.length).map fun (row, position) => (⟨name, row⟩, position))) registry' ∧
      s' = ⟨m, base.append ⟨name, .vars ⟨indexed,
        made ++ rows.map fun row => (Value.ofIndex row, m.imageVariable ⟨name, row⟩)⟩, recipes⟩,
          registry'⟩ ∧
      pending = (rows.zipIdx made.length).map fun (row, position) =>
        m.fixing (base.handle name position) ⟨name, row⟩ := by
  induction rows generalizing made registry pending with
  | nil =>
      simp only [List.zipIdx_nil, Stage.mapM_nil_ok] at h
      obtain ⟨rfl, rfl⟩ := h
      exact ⟨registry, by simp, .refl _, rfl, rfl⟩
  | cons row rows ih =>
      simp only [List.zipIdx_cons, Stage.mapM_cons_ok, List.map_cons] at h
      obtain ⟨first, others, t, step, rest, rfl⟩ := h
      obtain ⟨registry', taken, extended, rfl, rfl⟩ := registerVariable_ok wf fresh
        (declared row (by simp)) step
      obtain ⟨registry'', takenRest, extendedRest, rfl, rfl⟩ := ih
        (made ++ [(Value.ofIndex row, m.imageVariable ⟨name, row⟩)])
        (fun other ho => declared other (by simp [ho])) (by simpa using rest)
      refine ⟨registry'', List.forall_mem_cons.mpr ⟨taken, takenRest⟩, ?_, by simp, by simp⟩
      simpa [Model.registrations, Model.handle] using extended.trans extendedRest

/-- What registering some places does to the state: the target gets some components at its
end, and the registry the images of the places. -/
structure Staged (m : Model) (block : Block) (places : List (Key × Nat))
    (added : List (String × Content)) (s s' : Staging) : Prop where
  compact : s'.compact = m
  target_id : s'.target.id = s.target.id
  target_name : s'.target.name = s.target.name
  contents : s'.target.contents = s.target.contents ++ added
  names_nodup : s.target.names.Nodup → s'.target.names.Nodup
  registry : s.registry.Extends (m.registrations s.target.id block places) s'.registry

namespace Staged

variable {places places' : List (Key × Nat)} {added added' : List (String × Content)}
variable {s t u : Staging}

theorem refl (compact : s.compact = m) : Staged m block [] [] s s where
  compact := compact
  target_id := rfl
  target_name := rfl
  contents := by simp
  names_nodup := id
  registry := .refl _

theorem trans (first : Staged m block places added s t) (second : Staged m block places' added' t u) :
    Staged m block (places ++ places') (added ++ added') s u where
  compact := second.compact
  target_id := second.target_id.trans first.target_id
  target_name := second.target_name.trans first.target_name
  contents := by rw [second.contents, first.contents, List.append_assoc]
  names_nodup := second.names_nodup ∘ first.names_nodup
  registry := by
    have later := second.registry
    rw [first.target_id] at later
    simpa [Model.registrations] using first.registry.trans later

end Staged

namespace Model

theorem append_names_nodup {c : Component} (fresh : c.name ∉ m.names) (names : m.names.Nodup) :
    (m.append c).names.Nodup := by
  simp only [Model.names, append, List.map_append, List.map_cons, List.map_nil] at fresh names ⊢
  exact List.Nodup.append names (List.nodup_singleton _) (by simpa using fresh)

/-- The images of the variables of one name. -/
def variableContent (m : Model) (name : String) (indices : List (List Value)) : Content :=
  .vars (.tabulate (Value.sortIndices indices) fun row => m.imageVariable ⟨name, row⟩)

end Model

theorem registerComponent_ok (wf : m.WellFormed) {name : String} {indices : List (List Value)}
    (rows : Value.AreRows (Value.sortIndices indices))
    (declared : ∀ row ∈ Value.sortIndices indices, m.Declares ⟨name, row⟩)
    {s s' : Staging} (compact : s.compact = m) {pending : List (Handle × Value)}
    (h : registerComponent block name indices s = .ok pending s') :
    Staged m block (Slice.places [(name, indices)]) [(name, m.variableContent name indices)] s s' ∧
      pending = (Slice.places [(name, indices)]).flatMap (fun (key, position) =>
        m.fixing (s.target.handle key.name position) key) ∧
      ∀ row ∈ Value.sortIndices indices, m.attributesOf ⟨name, row⟩ ≠ none := by
  obtain ⟨own, base, registry⟩ := s
  obtain rfl : m = own := compact.symm
  simp only [registerComponent, Stage.bind_ok, Staging.onTarget_ok, Stage.pure_ok] at h
  obtain ⟨_, _, ⟨target, declaredComponent, rfl⟩, lists, _, steps, rfl, rfl⟩ := h
  have flat : ∀ row ∈ (rowsOf (Value.sortIndices indices)).getD [],
      Value.flatIndex row = row := by
    unfold rowsOf
    split
    · simp
    · exact fun row hr => rows.flat hr
  obtain ⟨fresh, recipes, rfl⟩ := Model.addVariables_ok rfl flat
    (by rw [Family.indicesOf_rowsOf]; exact rows.distinct) declaredComponent
  rw [Family.indicesOf_rowsOf, Family.rowsOf_isSome, List.map_map] at steps
  obtain ⟨registry', taken, extended, rfl, rfl⟩ := registerVariable_rows_ok wf fresh
    (Value.sortIndices indices) [] declared steps
  refine ⟨⟨rfl, rfl, rfl, ?_, Model.append_names_nodup fresh, ?_⟩, ?_, taken⟩
  · simp [Model.variableContent, Family.tabulate]
  · simpa [Slice.places] using extended
  · simp [Slice.places, List.flatMap_def, Function.comp_def]

/-- Registering the variables of a slice. -/
theorem registerVariables_ok (wf : m.WellFormed) {slice : Slice} (sound : slice.Sound m)
    {s s' : Staging} (compact : s.compact = m) {pending : List (Handle × Value)}
    (h : registerVariables block slice s = .ok pending s') :
    Staged m block slice.places
        (slice.map fun (name, indices) => (name, m.variableContent name indices)) s s' ∧
      pending = slice.places.flatMap (fun (key, position) =>
        m.fixing (s.target.handle key.name position) key) ∧
      ∀ key ∈ slice.keys, m.attributesOf key ≠ none := by
  simp only [registerVariables, Stage.bind_ok, Stage.pure_ok] at h
  obtain ⟨lists, _, steps, rfl, rfl⟩ := h
  induction slice generalizing s lists with
  | nil =>
      obtain ⟨rfl, rfl⟩ := Stage.mapM_nil_ok.mp steps
      exact ⟨.refl compact, rfl, by simp [Slice.keys]⟩
  | cons entry slice ih =>
      obtain ⟨name, indices⟩ := entry
      obtain ⟨first, others, t, step, rest, rfl⟩ := Stage.mapM_cons_ok.mp steps
      have sorted := Value.sortIndices_perm indices
      have declared : ∀ row ∈ Value.sortIndices indices, m.Declares ⟨name, row⟩ := fun row hr =>
        sound.declared _ (Slice.mem_keys_of_mem_sorted List.mem_cons_self hr)
      obtain ⟨staged, rfl, taken⟩ := registerComponent_ok wf (sound.rows wf List.mem_cons_self)
        declared compact step
      obtain ⟨stagedRest, pendingRest, takenRest⟩ := ih sound.tail staged.compact others rest
      rw [Slice.places_cons]
      refine ⟨staged.trans stagedRest, ?_, ?_⟩
      · rw [List.flatMap_append, List.flatten_cons, pendingRest]
        simp [Model.handle, staged.target_id]
      · simp only [Slice.keys_cons, List.mem_append, List.mem_map]
        rintro key (⟨row, hr, rfl⟩ | hk)
        · exact taken row (sorted.mem_iff.mpr hr)
        · exact takenRest key hk

/-- A constraint on its way to a block, read off the model that it comes from. -/
def transitOf (r : Expression.Reading) (vars : Registry) (block : Block) (m : Model) (key : Key) :
    Except Error Transit := do
  let c ← (m.constraintAt (m.preimageOf key)).mapError .fault
  if !(m.indexOf (m.preimageOf key)).isWritable then throw (.fault .badValue)
  let form ← c.body.mapped r vars.image? ("constraint " ++ m.nameOf (m.preimageOf key))
  let body ← form.restrict vars block true
  let limits ← (Limits.ofConstraint? r c).mapError .fault
  return ⟨m.preimageOf key, form, body, limits⟩

/-- The image of a constraint. -/
def imageConstraint (r : Expression.Reading) (vars : Registry) (block : Block) (m : Model)
    (key : Key) : Option Constraint :=
  (transitOf r vars block m key).toOption.bind fun t => t.constraint.toOption

/-- The images of the constraints of one name. -/
def constraintContent (r : Expression.Reading) (vars : Registry) (block : Block) (m : Model)
    (name : String) (indices : List (List Value)) : Content :=
  .constraints true
    (.tabulate (Value.sortIndices indices) fun row => imageConstraint r vars block m ⟨name, row⟩)

/-- What is noted about the image of a constraint at a place. -/
def TransferOf (r : Expression.Reading) (vars : Registry) (block : Block) (m : Model) (id : Nat)
    (place : Key × Nat) (transfer : Transfer) : Prop :=
  ∃ t, transitOf r vars block m place.1 = .ok t ∧
    transfer = ⟨t.preimage, ⟨id, place.1.name, place.2⟩, t.form⟩

variable {r : Expression.Reading} {vars : Registry}

theorem transitOf_ok {key : Key} {t : Transit} (h : transitOf r vars block m key = .ok t) :
    t.preimage = m.preimageOf key ∧ ∃ c, m.constraintAt (m.preimageOf key) = .ok c ∧
      c.body.mapped r vars.image? ("constraint " ++ m.nameOf (m.preimageOf key)) = .ok t.form ∧
      t.form.restrict vars block true = .ok t.body ∧ Limits.ofConstraint? r c = .ok t.limits := by
  simp only [transitOf, Success.bind_ok, Success.mapError_ok] at h
  obtain ⟨c, there, h⟩ := h
  split at h
  · simp at h
  · simp only [Success.bind_ok, Success.mapError_ok, Success.pure_ok] at h
    obtain ⟨form, mapped, body, restricted, limits, limited, rfl⟩ := h
    exact ⟨rfl, c, there, mapped, restricted, limited⟩

theorem transit_ok (wf : m.WellFormed) {name : String} {row : List Value}
    (declared : m.Declares ⟨name, row⟩) {target : Model} {registry : Registry} {t : Transit}
    {s' : Staging} (h : transit r vars block name row ⟨m, target, registry⟩ = .ok t s') :
    transitOf r vars block m ⟨name, row⟩ = .ok t ∧ s' = ⟨m, target, registry⟩ := by
  simp only [transit, Stage.bind_ok, Staging.preimage_of_declares wf declared, Stage.get_ok,
    Stage.ofFault_ok] at h
  obtain ⟨_, _, found, _, _, ⟨rfl, rfl⟩, c, _, ⟨there, rfl⟩, h⟩ := h
  cases found
  split at h
  · simp at h
  · rename_i writable
    simp only [Stage.bind_ok, Stage.ofExcept_ok, Stage.ofFault_ok, Stage.pure_ok] at h
    obtain ⟨form, _, ⟨mapped, rfl⟩, body, _, ⟨restricted, rfl⟩, limits, _, ⟨limited, rfl⟩, rfl,
      rfl⟩ := h
    refine ⟨?_, rfl⟩
    simp [transitOf, there, writable, mapped, restricted, limited, Except.mapError, Functor.map,
      Except.map]

/-- Registering the constraints in transit, once their images are declared. -/
theorem registerTransits_ok {name : String} {rows : List (List Value)} {transits : List Transit}
    (arrived : List.Forall₂ (fun row t => transitOf r vars block m ⟨name, row⟩ = .ok t) rows
      transits) (start : Nat) {target : Model} {registry : Registry} {transfers : List Transfer}
    {s' : Staging}
    (h : ((transits.zipIdx start).mapM fun (t, position) => do
        let image := (← get).target.handle name position
        Staging.register t.preimage image block
        return ⟨t.preimage, image, t.form⟩ : Stage Staging _) ⟨m, target, registry⟩ =
      .ok transfers s') :
    ∃ registry', s' = ⟨m, target, registry'⟩ ∧
      registry.Extends (m.registrations target.id block
        ((rows.zipIdx start).map fun (row, position) => (⟨name, row⟩, position))) registry' ∧
      List.Forall₂ (TransferOf r vars block m target.id)
        ((rows.zipIdx start).map fun (row, position) => (⟨name, row⟩, position)) transfers := by
  induction arrived generalizing start registry transfers with
  | nil =>
      obtain ⟨rfl, rfl⟩ := Stage.mapM_nil_ok.mp h
      exact ⟨registry, rfl, .refl _, .nil⟩
  | @cons row t rows transits first _ ih =>
      simp only [List.zipIdx_cons, Stage.mapM_cons_ok, Stage.bind_ok, Stage.get_ok,
        Staging.register_ok, Stage.pure_ok] at h
      obtain ⟨_, others, _, ⟨_, _, ⟨rfl, rfl⟩, _, _, ⟨registry', added, rfl⟩, rfl, rfl⟩, rest,
        rfl⟩ := h
      obtain ⟨registry'', rfl, extended, transferred⟩ := ih (start + 1) rest
      have preimage : t.preimage = m.preimageOf ⟨name, row⟩ := (transitOf_ok first).1
      refine ⟨registry'', rfl, ?_, .cons ⟨t, first, rfl⟩ transferred⟩
      have step := Registry.add_ok added
      rw [preimage] at step
      simpa [Model.registrations, Model.handle] using step.trans extended

/-- Declaring constraints that are settled already, from rows of indices. -/
theorem zip_indices {α : Type} {rows : List (List Value)} {as : List α}
    (lengths : rows.length = as.length) :
    (rows.zip as).map (fun row => Value.ofIndex row.1) = rows.map Value.ofIndex := by
  have firsts := List.map_fst_zip (show rows.length ≤ as.length by omega)
  conv_rhs => rw [← firsts, List.map_map]
  rfl

theorem declareConstraints_ok {name : String} {rows : List (List Value)}
    (areRows : Value.AreRows rows) {constraints : List (Except Fault Constraint)}
    (lengths : rows.length = constraints.length) {base target : Model} {u : Unit}
    (h : declareConstraints name rows constraints base = .ok u target) :
    name ∉ base.names ∧ ∃ settled recipes,
      List.Forall₂ (fun c a => c = .ok a) constraints settled ∧
      target = base.append ⟨name, .constraints true ⟨!isScalarIndex rows,
        (rows.zip settled).map fun (row, a) => (Value.ofIndex row, some a)⟩, recipes⟩ := by
  by_cases scalar : isScalarIndex rows = true
  · obtain rfl := Family.isScalarIndex_iff.mp scalar
    obtain ⟨c, rfl⟩ := List.length_eq_one_iff.mp lengths.symm
    simp only [declareConstraints, rowsOf, isScalarIndex, if_true, Stage.bind_ok, Stage.ofFault_ok,
      Stage.modify_ok] at h
    obtain ⟨_, _, declared, a, _, ⟨rfl, rfl⟩, put⟩ := h
    obtain ⟨fresh, rfl⟩ := Model.addStatement_none_ok declared
    refine ⟨fresh, [a], [], .cons rfl .nil, put.symm.trans ?_⟩
    simp [Model.putConstraint, Model.change_append (c := ⟨name, _, []⟩) fresh, Family.setAt,
      Family.optional, isScalarIndex, Value.ofIndex]
  · have several : rowsOf rows = some rows := by simp [rowsOf, scalar]
    have steps : Model.addConstraints name ((rows.zip constraints).map fun e =>
        (e.1, .constraint e.2)) base = .ok u target := by
      simp only [declareConstraints, several, List.zip_map_right] at h
      exact h
    have seconds := List.map_snd_zip (show constraints.length ≤ rows.length by omega)
    have keys := zip_indices lengths
    obtain ⟨fresh, settled, recipes, each, rfl⟩ := Model.addConstraints_settled_ok
      (fun row hr => areRows.flat (List.of_mem_zip hr).1) (by rw [keys]; exact areRows.distinct) steps
    refine ⟨fresh, settled, recipes, ?_, ?_⟩
    · rw [← seconds]
      exact List.forall₂_map_left_iff.mpr each
    · rw [keys]
      simp [scalar, List.zip_map_left, Function.comp_def]

theorem zip_imageConstraint {name : String} {rows : List (List Value)} {transits : List Transit}
    {settled : List Constraint}
    (arrived : List.Forall₂ (fun row t => transitOf r vars block m ⟨name, row⟩ = .ok t) rows
      transits)
    (constrained : List.Forall₂ (fun c a => c = .ok a) (transits.map Transit.constraint) settled) :
    (rows.zip settled).map (fun (row, a) => (Value.ofIndex row, some a)) =
        rows.map (fun row => (Value.ofIndex row, imageConstraint r vars block m ⟨name, row⟩)) ∧
      ∀ row ∈ rows, imageConstraint r vars block m ⟨name, row⟩ ≠ none := by
  induction arrived generalizing settled with
  | nil => exact ⟨rfl, by simp⟩
  | @cons row t rows transits first _ ih =>
      cases constrained with
      | @cons _ a _ settled made rest =>
          obtain ⟨equal, there⟩ := ih rest
          have image : imageConstraint r vars block m ⟨name, row⟩ = some a := by
            simp [imageConstraint, first, made, Except.toOption]
          exact ⟨by simp [image, equal], List.forall_mem_cons.mpr ⟨by simp [image], there⟩⟩

theorem registerConstraintComponent_ok (wf : m.WellFormed) {name : String}
    {indices : List (List Value)} (rows : Value.AreRows (Value.sortIndices indices))
    (declared : ∀ row ∈ Value.sortIndices indices, m.Declares ⟨name, row⟩)
    {s s' : Staging} (compact : s.compact = m) {transfers : List Transfer}
    (h : registerConstraintComponent r vars block name indices s = .ok transfers s') :
    Staged m block (Slice.places [(name, indices)])
        [(name, constraintContent r vars block m name indices)] s s' ∧
      List.Forall₂ (TransferOf r vars block m s.target.id) (Slice.places [(name, indices)])
        transfers ∧
      ∀ row ∈ Value.sortIndices indices, imageConstraint r vars block m ⟨name, row⟩ ≠ none := by
  obtain ⟨own, base, registry⟩ := s
  obtain rfl : m = own := compact.symm
  simp only [registerConstraintComponent, Stage.bind_ok, Staging.onTarget_ok] at h
  obtain ⟨transits, _, steps, _, _, ⟨target, declaredComponent, rfl⟩, registered⟩ := h
  obtain ⟨arrived, rfl⟩ := Stage.mapM_ok_of_constant
    (fun row hr t s' arrived => transit_ok wf (declared row hr) arrived) steps
  obtain ⟨fresh, settled, recipes, constrained, rfl⟩ := declareConstraints_ok rows
    (by simpa using arrived.length_eq) declaredComponent
  obtain ⟨elements, there⟩ := zip_imageConstraint arrived constrained
  obtain ⟨registry', rfl, extended, transferred⟩ := registerTransits_ok arrived 0 registered
  refine ⟨⟨rfl, rfl, rfl, ?_, Model.append_names_nodup fresh, ?_⟩, ?_, there⟩
  · simp only [Model.append_contents, elements, constraintContent, Family.tabulate]
  · simpa [Slice.places] using extended
  · simpa [Slice.places] using transferred

/-- Registering the constraints of a slice. -/
theorem registerConstraints_ok (wf : m.WellFormed) {slice : Slice} (sound : slice.Sound m)
    {s s' : Staging} (compact : s.compact = m) {transfers : List Transfer}
    (h : registerConstraints r vars block slice s = .ok transfers s') :
    Staged m block slice.places (slice.map fun (name, indices) =>
        (name, constraintContent r vars block m name indices)) s s' ∧
      List.Forall₂ (TransferOf r vars block m s.target.id) slice.places transfers ∧
      ∀ key ∈ slice.keys, imageConstraint r vars block m key ≠ none := by
  simp only [registerConstraints, Stage.bind_ok, Stage.pure_ok] at h
  obtain ⟨lists, _, steps, rfl, rfl⟩ := h
  induction slice generalizing s lists with
  | nil =>
      obtain ⟨rfl, rfl⟩ := Stage.mapM_nil_ok.mp steps
      exact ⟨.refl compact, .nil, by simp [Slice.keys]⟩
  | cons entry slice ih =>
      obtain ⟨name, indices⟩ := entry
      obtain ⟨first, others, t, step, rest, rfl⟩ := Stage.mapM_cons_ok.mp steps
      have sorted := Value.sortIndices_perm indices
      have declared : ∀ row ∈ Value.sortIndices indices, m.Declares ⟨name, row⟩ := fun row hr =>
        sound.declared _ (Slice.mem_keys_of_mem_sorted List.mem_cons_self hr)
      obtain ⟨staged, transferred, there⟩ := registerConstraintComponent_ok wf
        (sound.rows wf List.mem_cons_self) declared compact step
      obtain ⟨stagedRest, transferredRest, thereRest⟩ := ih sound.tail staged.compact others rest
      rw [staged.target_id] at transferredRest
      rw [Slice.places_cons]
      refine ⟨staged.trans stagedRest, ?_, ?_⟩
      · rw [List.flatten_cons]
        exact List.rel_append transferred transferredRest
      · simp only [Slice.keys_cons, List.mem_append, List.mem_map]
        rintro key (⟨row, hr, rfl⟩ | hk)
        · exact there row (sorted.mem_iff.mpr hr)
        · exact thereRest key hk

end BlockAngular
