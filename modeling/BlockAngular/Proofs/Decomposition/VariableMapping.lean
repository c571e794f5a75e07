import BlockAngular.Proofs.Decomposition.Views

/-! # The mapping of the variables

A decomposition maps the declared variables one to one onto the variables of its models. The
image of a variable has its name and its index, in the model of the block that the variable
is annotated with, and the images of a block are the variables of its model.
-/

namespace BlockAngular

namespace Reformulation

/-- The model of a block. -/
def targetOf? (r : Reformulation) : Block → Option Model
  | .master => some r.master
  | .subproblem id => (r.subproblems.find? fun s => s.id.same id).map (·.model)

theorem targetOf?_eq_find? (r : Reformulation) (block : Block) :
    r.targetOf? block = (r.targets.find? fun t => t.1.same block).map (·.2) := by
  cases block with
  | master => simp [targetOf?, targets, Block.same]
  | subproblem id =>
      simp [targetOf?, targets, Block.same, List.find?_map, Function.comp_def]

namespace Trace

open Decomposition

variable {first : Nat} {m : Model} {classify : Classify} {config : Config} {r : Reformulation}

/-- The model of a block is the target with an equal block. -/
theorem targetOf?_eq (h : r.Trace first m classify config) (wf : m.WellFormed)
    {b : Block × Nat} (hb : b ∈ numbered r.ids) {block : Block} (same : b.1.same block = true) :
    ∃ target, r.targetOf? block = some target ∧ View r first m config b target := by
  obtain ⟨target, ht, -⟩ := h.exists_target wf hb
  have some_found : (r.targets.find? fun t => t.1.same block).isSome = true := by
    exact List.find?_isSome.mpr ⟨_, ht, same⟩
  obtain ⟨⟨own, found⟩, equal⟩ := Option.isSome_iff_exists.mp some_found
  obtain ⟨number, hb', view⟩ := h.exists_numbered wf (List.mem_of_find?_eq_some equal)
  have same' : own.same block = true := by simpa using List.find?_some equal
  obtain rfl := numbered_unique h.ids_distinct hb' hb (Block.same_trans
    (blocks_isKey h.ids_distinct (block_mem hb')) same'
    (Block.same_symm (blocks_isKey h.ids_distinct (block_mem hb)) same))
  exact ⟨found, by rw [targetOf?_eq_find?, equal]; rfl, view⟩

theorem targetOf?_eq_none (h : r.Trace first m classify config) (wf : m.WellFormed)
    {block : Block} (none : ∀ own ∈ blocks r.ids, own.same block = false) :
    r.targetOf? block = .none := by
  rw [targetOf?_eq_find?, Option.map_eq_none_iff, List.find?_eq_none]
  intro ⟨own, target⟩ ht
  obtain ⟨number, hb, -⟩ := h.exists_numbered wf ht
  simp [none own (block_mem hb)]

/-- The variables of the targets are the images of the keys, block by block. -/
theorem targets_vars (h : r.Trace first m classify config) (wf : m.WellFormed) :
    (r.targets.flatMap fun t => t.2.vars) = imagesFor first r.ids r.assignment.vars :=
  flatMap_of_forall₂ ((h.views wf).imp fun _ _ ⟨_, view⟩ => view.vars)

/-- The images in a block are the variables of its model. -/
theorem imagesOf_eq_vars (h : r.Trace first m classify config) (wf : m.WellFormed)
    (block : Block) : r.vars.imagesOf block =
      ((r.targetOf? block).map fun target => target.vars.map (·.2)).getD [] := by
  by_cases some_block : ∃ own ∈ blocks r.ids, own.same block = true
  · obtain ⟨own, hown, same⟩ := some_block
    obtain ⟨number, hb⟩ := exists_number hown
    obtain ⟨target, found, view⟩ := h.targetOf?_eq wf hb same
    rw [h.vars_covers.imagesOf_eq hb same, found, Option.map_some, Option.getD_some, view.vars]
  · push Not at some_block
    have none : ∀ own ∈ blocks r.ids, own.same block = false := fun own ho => by
      simpa using some_block own ho
    rw [h.vars_covers.imagesOf_eq_nil none, h.targetOf?_eq_none wf none]
    rfl

/-- A declared variable has its image in the model of its block. -/
theorem image_of_variable (h : r.Trace first m classify config) (wf : m.WellFormed)
    (noNull : m.NoNullIndex) {key : Key} {handle : Handle} (hv : (key, handle) ∈ m.vars) :
    ∃ own mark block target image, classify.resolve key = .ok own ∧
      (key, own.marked mark) ∈ r.assignment.vars ∧ r.targetOf? (own.marked mark) = some target ∧
      r.vars.image? handle = some image ∧ (key, image) ∈ target.vars ∧
      target.element key.name key.index = .ok image ∧
      (target.component? key.name).map (Model.isIndexed ·.content) =
        (m.component? key.name).map (Model.isIndexed ·.content) ∧
      r.vars.owner? handle = some block ∧ r.vars.imageOwner? image = some block ∧
      block.same (own.marked mark) = true := by
  obtain ⟨⟨_, tabled⟩, -⟩ := Model.assignment_ok h.assigned
  obtain ⟨keys, resolved⟩ := Classify.table_ok tabled
  have listed : key ∈ r.assignment.vars.map (·.1) := by
    rw [keys]
    exact List.mem_map_of_mem (f := (·.1)) hv
  obtain ⟨⟨_, annotated⟩, he, rfl⟩ := List.mem_map.mp listed
  obtain ⟨own, mark, answer, rfl⟩ := resolved _ _ he
  obtain ⟨b, hb, same, image, placed⟩ := h.vars_covers.exists_image he
  obtain ⟨target, found, view⟩ := h.targetOf?_eq wf hb same
  have inTarget := placed
  rw [← view.vars] at inTarget
  obtain ⟨leads, indexed⟩ := view.element _ _ (.inl inTarget)
  rw [← Model.preimageOf_of_mem_vars wf hv]
  exact ⟨own, mark, b.1, target, image, answer, he, found, h.vars_covers.image?_eq hb placed,
    inTarget, leads, indexed noNull, h.vars_covers.owner?_eq hb placed,
    h.vars_covers.imageOwner?_eq hb placed, same⟩

end Trace

/-- The registry of the variables respects the blocks. -/
structure MapsVariables (r : Reformulation) (m : Model) (classify : Classify) : Prop where
  /-- It maps the declared variables one to one onto the variables of all models. -/
  bijection : r.vars.IsBijection (m.vars.map (·.2)) (r.targets.flatMap fun t => t.2.vars.map (·.2))
  /-- The image of a variable has its key, in the model of the block that the annotation
      function gives to the key, and so does its owner. -/
  image : ∀ key handle, (key, handle) ∈ m.vars → ∃ own mark block target image,
    classify.resolve key = .ok own ∧ (key, own.marked mark) ∈ r.assignment.vars ∧
    r.targetOf? (own.marked mark) = some target ∧ r.vars.image? handle = some image ∧
    (key, image) ∈ target.vars ∧ target.element key.name key.index = .ok image ∧
    (target.component? key.name).map (Model.isIndexed ·.content) =
      (m.component? key.name).map (Model.isIndexed ·.content) ∧
    r.vars.owner? handle = some block ∧ r.vars.imageOwner? image = some block ∧
    block.same (own.marked mark) = true
  /-- The images in a block are the variables of its model, each of them once. -/
  imagesOf : ∀ block, (r.vars.imagesOf block).Nodup ∧ r.vars.imagesOf block =
    ((r.targetOf? block).map fun target => target.vars.map (·.2)).getD []

end Reformulation

namespace Decomposition

/-- The mapping of the variables is total and respects the blocks. -/
theorem mapsVariables {first : Nat} {m : Model} {classify : Classify} {config : Config}
    {r : Reformulation} (wf : m.WellFormed) (noNull : m.NoNullIndex)
    (h : decompose first m classify config = .ok r) : r.MapsVariables m classify := by
  have trace := decompose_trace wf h
  refine ⟨?_, fun key handle hv => trace.image_of_variable wf noNull hv, fun block =>
    ⟨trace.vars_covers.imagesOf_nodup block, trace.imagesOf_eq_vars wf block⟩⟩
  rw [← List.map_flatMap, Model.vars_handles wf trace.assigned, trace.targets_vars wf]
  exact trace.vars_covers.isBijection

end Decomposition

/-- Two variables of one component, a constraint on both, one on the first of them, and an
objective. -/
def twoColumns : Model where
  id := 0
  name := "two_columns"
  components := [
    ⟨"x", .vars ⟨true, [(.int 1, some .free), (.int 2, some .free)]⟩, []⟩,
    ⟨"link", .constraints true (.scalar ⟨.linear (.int 1) [(⟨0, "x", 0⟩, .int 2),
      (⟨0, "x", 1⟩, .int 3)], none, some (.number (.int 4)), false, true⟩), []⟩,
    ⟨"own", .constraints true ⟨true, [(.int 1, some ⟨.variable ⟨0, "x", 0⟩, none,
      some (.number (.int 3)), false, true⟩)]⟩, []⟩,
    ⟨"cost", .objectives true (.scalar ⟨.sum [.variable ⟨0, "x", 0⟩, .variable ⟨0, "x", 1⟩],
      .minimize, true⟩), []⟩]

/-- What has the index `1` goes to the subproblem `1`, all else to the master. -/
def firstApart : Classify := fun key =>
  match key.index with
  | [.int 1] => .ok (.block (.subproblem (.int 1)))
  | _ => .ok (.block .master)

theorem twoColumns_wellFormed : twoColumns.WellFormed where
  names_nodup := by decide
  contents := by
    have different : Value.same (.int 1) (.int 2) = false := by
      simp [Value.same, Value.sameNumber, Value.number?, Value.real?, Exact.same]
    simp only [twoColumns, List.forall_mem_cons, Content.WellFormed]
    refine ⟨⟨by simp, ⟨by simp [Value.isKey_int], by simp [different]⟩, ?_⟩,
      Family.optional_wellFormed _, ⟨by simp, ⟨by simp [Value.isKey_int], by simp⟩, ?_⟩,
      Family.optional_wellFormed _, by simp⟩
    · simp only [List.forall_mem_cons]
      exact ⟨⟨rfl, rfl⟩, ⟨rfl, rfl⟩, by simp⟩
    · simp only [List.forall_mem_cons]
      exact ⟨⟨rfl, rfl⟩, by simp⟩
  sides := by
    simp only [twoColumns, List.forall_mem_cons, Content.HasPlainSides, Family.scalar,
      Option.mem_some_iff, forall_eq', true_and]
    exact ⟨⟨⟨by simp, by simp [Expression.hasVariables]⟩, by simp⟩,
      ⟨⟨by simp, by simp [Expression.hasVariables]⟩, by simp⟩, by simp⟩

theorem twoColumns_noNullIndex : twoColumns.NoNullIndex := by
  simp [Model.NoNullIndex, twoColumns, Model.isIndexed, Content.entries, Family.scalar]

theorem exists_of_toOption_bind {ε α β : Type} {x : Except ε α} {f : α → Option β} {b : β}
    (h : x.toOption.bind f = some b) : ∃ a, x = .ok a ∧ f a = some b := by
  cases x with
  | ok a => exact ⟨a, rfl, h⟩
  | error e => simp [Except.toOption] at h

theorem exists_of_toOption_isSome {ε α : Type} {x : Except ε α} (h : x.toOption.isSome = true) :
    ∃ a, x = .ok a := by
  cases x with
  | ok a => exact ⟨a, rfl⟩
  | error e => simp [Except.toOption] at h

theorem twoColumns_decomposes :
    ∃ r, Decomposition.decompose 1 twoColumns firstApart .standard = .ok r :=
  exists_of_toOption_isSome (by decide +kernel)

/-- The variables of one component go to different models. -/
theorem twoColumns_mapsVariables : twoColumns.WellFormed ∧ twoColumns.NoNullIndex ∧
    ∃ r, Decomposition.decompose 1 twoColumns firstApart .standard = .ok r ∧
      r.MapsVariables twoColumns firstApart := by
  obtain ⟨r, h⟩ := twoColumns_decomposes
  exact ⟨twoColumns_wellFormed, twoColumns_noNullIndex, r, h,
    Decomposition.mapsVariables twoColumns_wellFormed twoColumns_noNullIndex h⟩

end BlockAngular
