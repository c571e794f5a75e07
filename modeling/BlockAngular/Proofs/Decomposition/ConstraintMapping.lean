import BlockAngular.Proofs.Decomposition.VariableMapping
import BlockAngular.Proofs.Model.Limits

/-! # The mapping of the constraints

A decomposition maps the declared constraints one to one onto the constraints of its models
other than the convexity constraints. The image of a constraint keeps the terms of its own
block with their coefficients, the constant, and the limits.
-/

namespace BlockAngular

open Decomposition

theorem Model.constraintAt_ok {m : Model} {h : Handle} {c : Constraint}
    (found : m.constraintAt h = .ok c) : m.constraintOf? h = some c := by
  simp only [constraintAt] at found
  simp only [constraintOf?]
  split at found
  · split at found <;> simp_all
  · cases found

/-- What the image of a constraint of a well-formed model looks like. -/
theorem imageConstraint_ok {m : Model} (wf : m.WellFormed) {vars : Registry} {block : Block}
    {key : Key} {c : Constraint}
    (h : imageConstraint (imageReading m vars) vars block m key = some c) :
    ∃ original form limits, m.constraintOf? (m.preimageOf key) = some original ∧
      original.body.mapped (imageReading m vars) vars.image?
        ("constraint " ++ m.nameOf (m.preimageOf key)) = .ok form ∧
      Limits.ofConstraint? (World.reading [m]) original = .ok limits ∧
      c.body = Expression.ofTerms form.constant
        (form.terms.filter fun term => vars.livesIn block term.1) ∧
      c.HasPlainSides ∧ (∀ reading, Limits.ofConstraint? reading c = .ok limits.settled) ∧
      ∀ term ∈ form.terms, ∃ owner, vars.imageOwner? term.1 = some owner := by
  simp only [imageConstraint, Option.bind_eq_some_iff] at h
  obtain ⟨t, transited, made⟩ := h
  have transited : transitOf (imageReading m vars) vars block m key = .ok t := by
    cases moved : transitOf (imageReading m vars) vars block m key <;>
      simp_all [Except.toOption]
  have made : t.constraint = .ok c := by
    cases moved : t.constraint <;> simp_all [Except.toOption]
  obtain ⟨-, original, there, mapped, restricted, limited⟩ := transitOf_ok transited
  obtain ⟨body, owners⟩ := AffineForm.restrict_ok restricted
  have found := Model.constraintAt_ok there
  obtain ⟨bodied, plain, kept⟩ := Limits.constrain_ok (Limits.ofConstraint?_areRead limited) rfl
    made
  refine ⟨original, t.form, t.limits, found, mapped, ?_, ?_, plain, kept, owners⟩
  · rw [← limited]
    exact Limits.ofConstraint?_of_plain (r := imageReading m vars) (s := World.reading [m])
      (fun _ => rfl) (wf.plainSides found)
  · rw [bodied, body]
    rfl

namespace Reformulation

namespace Trace

variable {first : Nat} {m : Model} {classify : Classify} {config : Config} {r : Reformulation}

/-- The constraints of the targets are the images of the keys, block by block. -/
theorem targets_rows (h : r.Trace first m classify config) (wf : m.WellFormed) :
    (r.targets.flatMap fun t => ordinaryRows config t.1 t.2) =
      imagesFor first r.ids r.assignment.constraints :=
  flatMap_of_forall₂ ((h.views wf).imp fun _ _ ⟨named, view⟩ => by rw [named]; exact view.rows)

/-- An image that lives in a block is a variable of the model of the block. -/
theorem mem_vars_of_livesIn (h : r.Trace first m classify config) {b : Block × Nat}
    (hb : b ∈ numbered r.ids) {target : Model} (view : View r first m config b target)
    {image : Handle} (lives : r.vars.livesIn b.1 image = true) :
    image ∈ target.vars.map (·.2) := by
  simp only [Registry.livesIn, Option.any_eq_true] at lives
  obtain ⟨owner, owned, same⟩ := lives
  obtain ⟨b', hb', rfl, key, placed⟩ := h.vars_covers.image_of_owner owned
  obtain rfl := numbered_unique h.ids_distinct hb' hb same
  rw [view.vars]
  exact List.mem_map_of_mem (f := (·.2)) placed

/-- A constraint of a target speaks of variables of that target only. -/
theorem vars_of_constraint (h : r.Trace first m classify config) (wf : m.WellFormed)
    {block : Block} {target : Model} (ht : (block, target) ∈ r.targets) {key : Key}
    {image : Handle} (listed : (key, image) ∈ target.allConstraints) {c : Constraint}
    (there : target.constraintOf? image = some c) : ∀ v ∈ c.vars, v ∈ target.vars.map (·.2) := by
  obtain ⟨number, hb, view⟩ := h.exists_numbered wf ht
  by_cases ordinary : (key, image) ∈ ordinaryRows config block target
  · obtain ⟨c', found, made⟩ := view.constraint key image ordinary
    obtain rfl := Option.some.inj (there.symm.trans found)
    obtain ⟨-, form, -, -, -, -, body, plain, -⟩ := imageConstraint_ok wf made
    rw [plain.vars_eq, body, Expression.ofTerms_vars]
    simp only [List.mem_map, List.mem_filter]
    rintro v ⟨term, ⟨-, lives⟩, rfl⟩
    exact List.mem_map.mp (h.mem_vars_of_livesIn hb view lives)
  · have empty := view.convexity key image c listed ordinary there
    rw [empty.sides.vars_eq, empty.body]
    simp

/-- A declared constraint has its image in the model of its block. -/
theorem image_of_constraint (h : r.Trace first m classify config) (wf : m.WellFormed)
    {key : Key} {handle : Handle} (hc : (key, handle) ∈ m.constraints) :
    ∃ own mark b target image, classify.resolve key = .ok own ∧
      (key, own.marked mark) ∈ r.assignment.constraints ∧ b ∈ numbered r.ids ∧
      b.1.same (own.marked mark) = true ∧ r.targetOf? (own.marked mark) = some target ∧
      View r first m config b target ∧ (key, image) ∈ ordinaryRows config b.1 target ∧
      r.constraints.image? handle = some image ∧ r.constraints.owner? handle = some b.1 := by
  obtain ⟨-, _, tabled⟩ := Model.assignment_ok h.assigned
  obtain ⟨keys, resolved⟩ := Classify.table_ok tabled
  have listed : key ∈ r.assignment.constraints.map (·.1) := by
    rw [keys]
    exact List.mem_map_of_mem (f := (·.1)) hc
  obtain ⟨⟨_, annotated⟩, he, rfl⟩ := List.mem_map.mp listed
  obtain ⟨own, mark, answer, rfl⟩ := resolved _ _ he
  obtain ⟨b, hb, same, image, placed⟩ := h.constraints_covers.exists_image he
  obtain ⟨target, found, view⟩ := h.targetOf?_eq wf hb same
  rw [← Model.preimageOf_of_mem_constraints wf hc]
  exact ⟨own, mark, b, target, image, answer, he, hb, same, found, view,
    by rw [view.rows]; exact placed, h.constraints_covers.image?_eq hb placed,
    h.constraints_covers.owner?_eq hb placed⟩

end Trace

/-- What a constraint says after its move to a block: `form` is its body over all images,
and `limits` are its limits. -/
structure Reconstructs (vars : Registry) (block : Block) (m : Model) (handle : Handle)
    (image : Constraint) (form : AffineForm) (limits : Limits Float) : Prop where
  read : ∃ original, m.constraintOf? handle = some original ∧
    original.body.mapped (imageReading m vars) vars.image?
      ("constraint " ++ m.nameOf handle) = .ok form ∧
    Limits.ofConstraint? (World.reading [m]) original = .ok limits
  /-- The constant stays, and in their order the terms that live in the block. -/
  body : image.body = Expression.ofTerms form.constant
    (form.terms.filter fun term => vars.livesIn block term.1)
  limited : ∀ reading, Limits.ofConstraint? reading image = .ok limits.settled
  /-- The limits stay if they are not those of a range between equal numbers, which becomes
      an equality. -/
  kept : (∀ reading, Limits.ofConstraint? reading image = .ok limits) ↔ limits.isPoint = false

/-- The registry of the constraints respects the blocks, and the images are made from the
constraints. -/
structure MapsConstraints (r : Reformulation) (m : Model) (classify : Classify)
    (config : Config) : Prop where
  /-- It maps the declared constraints one to one onto the constraints of all models, the
      convexity constraints left out. -/
  bijection : r.constraints.IsBijection (m.constraints.map (·.2))
    (r.targets.flatMap fun t => (ordinaryRows config t.1 t.2).map (·.2))
  /-- The image of a constraint has its key, in the model of the block that the annotation
      function gives to the key, and says there what the constraint said. -/
  image : ∀ key handle, (key, handle) ∈ m.constraints → ∃ own mark block target image,
    classify.resolve key = .ok own ∧ (key, own.marked mark) ∈ r.assignment.constraints ∧
    block.same (own.marked mark) = true ∧ r.targetOf? (own.marked mark) = some target ∧
    r.constraints.image? handle = some image ∧ r.constraints.owner? handle = some block ∧
    (key, image) ∈ target.allConstraints ∧ target.element key.name key.index = .ok image ∧
    (target.component? key.name).map (Model.isIndexed ·.content) =
      (m.component? key.name).map (Model.isIndexed ·.content) ∧
    ∃ c form limits, target.constraintOf? image = some c ∧
      Reconstructs r.vars block m handle c form limits
  /-- No constraint of a model speaks of a variable of another model. -/
  apart : ∀ block target, (block, target) ∈ r.targets → ∀ key image,
    (key, image) ∈ target.allConstraints → ∀ c, target.constraintOf? image = some c →
      ∀ v ∈ c.vars, v ∈ target.vars.map (·.2)

end Reformulation

namespace Decomposition

/-- Constraints are reconstructed in the models of their blocks. -/
theorem mapsConstraints {first : Nat} {m : Model} {classify : Classify} {config : Config}
    {r : Reformulation} (wf : m.WellFormed) (noNull : m.NoNullIndex)
    (h : decompose first m classify config = .ok r) : r.MapsConstraints m classify config := by
  have trace := decompose_trace wf h
  refine ⟨?_, fun key handle hc => ?_, fun block target ht key image listed c there =>
    trace.vars_of_constraint wf ht listed there⟩
  · rw [← List.map_flatMap, Model.constraints_handles wf trace.assigned, trace.targets_rows wf]
    exact trace.constraints_covers.isBijection
  · obtain ⟨own, mark, b, target, image, answer, he, hb, same, found, view, row, mapped, owned⟩ :=
      trace.image_of_constraint wf hc
    obtain ⟨leads, indexed⟩ := view.element _ _ (.inr row)
    obtain ⟨c, found_image, made⟩ := view.constraint key image row
    obtain ⟨original, form, limits, there, form_ok, limits_ok, body, -, kept, -⟩ :=
      imageConstraint_ok wf made
    rw [Model.preimageOf_of_mem_constraints wf hc] at there form_ok
    refine ⟨own, mark, b.1, target, image, answer, he, same, found, mapped, owned,
      (List.mem_filter.mp row).1, leads, indexed noNull, c, form, limits, found_image,
      ⟨original, there, form_ok, limits_ok⟩, body, kept, fun same => ?_, fun range reading => ?_⟩
    · by_contra point
      have equal := (same (World.reading [m])).symm.trans (kept (World.reading [m]))
      exact Limits.settled_ne_of_isPoint (by simpa using point) (Except.ok.inj equal).symm
    · rw [kept reading, Limits.settled_of_not_isPoint range]

end Decomposition

theorem twoColumns_mapsConstraints : twoColumns.WellFormed ∧ twoColumns.NoNullIndex ∧
    ∃ r, Decomposition.decompose 1 twoColumns firstApart .standard = .ok r ∧
      r.MapsConstraints twoColumns firstApart .standard := by
  obtain ⟨r, h⟩ := twoColumns_decomposes
  exact ⟨twoColumns_wellFormed, twoColumns_noNullIndex, r, h,
    Decomposition.mapsConstraints twoColumns_wellFormed twoColumns_noNullIndex h⟩

/-- A constraint between a parameter and a number, which are equal. -/
def betweenEquals : Model where
  id := 0
  name := "between_equals"
  components := [
    ⟨"x", .vars (.scalar .free), []⟩,
    ⟨"p", .parameter (.int 3), []⟩,
    ⟨"c", .constraints true (.scalar ⟨.variable ⟨0, "x", 0⟩, some (.parameter ⟨0, "p", 0⟩),
      some (.number (.int 3)), false, true⟩), []⟩]

/-- Whether a constraint is read as an equality. -/
def Constraint.isReadEqual (r : Expression.Reading) (c : Constraint) : Option Bool :=
  (Limits.ofConstraint? r c).toOption.map (·.equality)

/-- The range is read as a range, and its image as an equality. -/
theorem betweenEquals_not_kept :
    (betweenEquals.constraintOf? ⟨0, "c", 0⟩).bind
        (Constraint.isReadEqual (World.reading [betweenEquals])) = some false ∧
      ∃ r, Decomposition.decompose 1 betweenEquals .allMaster .standard = .ok r ∧
        ((r.constraints.image? ⟨0, "c", 0⟩).bind r.master.constraintOf?).bind
          (Constraint.isReadEqual (World.reading r.world)) = some true :=
  ⟨by decide +kernel, exists_of_toOption_bind (by decide +kernel)⟩

end BlockAngular
