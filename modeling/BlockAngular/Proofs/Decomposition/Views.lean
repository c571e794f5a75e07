import BlockAngular.Proofs.Decomposition.Placement
import BlockAngular.Proofs.Model.Outline

/-! # What the targets contain

The variables and the constraints of the model of a block are the images of the keys of the
block, component by component. The master has the convexity constraints besides. Keys lead
to the images, which are indexed like the rows that their components were declared from.
-/

namespace BlockAngular

/-- A member of one list is related to a member of the other. -/
theorem exists_of_forall₂ {α β : Type} {R : α → β → Prop} {as : List α} {bs : List β}
    (h : List.Forall₂ R as bs) :
    (∀ a ∈ as, ∃ b ∈ bs, R a b) ∧ ∀ b ∈ bs, ∃ a ∈ as, R a b := by
  induction h with
  | nil => simp
  | @cons a b as bs first _ ih =>
      refine ⟨List.forall_mem_cons.mpr ⟨⟨b, by simp, first⟩, fun a' ha => ?_⟩,
        List.forall_mem_cons.mpr ⟨⟨a, by simp, first⟩, fun b' hb => ?_⟩⟩
      · obtain ⟨b', hb, related⟩ := ih.1 a' ha
        exact ⟨b', List.mem_cons_of_mem _ hb, related⟩
      · obtain ⟨a', ha, related⟩ := ih.2 b' hb
        exact ⟨a', List.mem_cons_of_mem _ ha, related⟩

theorem Content.of_mem_rows {c : Content} {id : Nat} {name : String} {key : Key}
    {image : Handle} (h : (key, image) ∈ c.rows id name) :
    key.name = name ∧ image = ⟨id, name, image.position⟩ := by
  cases c with
  | constraints active family =>
      simp only [Content.rows, List.mem_map, Prod.mk.injEq] at h
      obtain ⟨_, -, rfl, rfl⟩ := h
      exact ⟨rfl, rfl⟩
  | vars | objectives | parameter | expression | reference | block => simp [Content.rows] at h

namespace Family

variable {α : Type}

/-- The elements of a family of rows, all of them there. -/
theorem present_tabulate {rows : List (List Value)} (areRows : Value.AreRows rows)
    {element : List Value → Option α} (there : ∀ row ∈ rows, element row ≠ none) (id : Nat)
    (name : String) :
    ((tabulate rows element).present.map fun (index, position, _) =>
        ((⟨name, index.toIndex⟩, ⟨id, name, position⟩) : Key × Handle)) =
      rows.zipIdx.map fun (row, position) => (⟨name, row⟩, ⟨id, name, position⟩) := by
  simp only [present, tabulate, List.zipIdx_map, List.filterMap_map, List.map_filterMap]
  rw [← List.filterMap_eq_map]
  refine List.filterMap_congr fun entry hr => ?_
  obtain ⟨row, position⟩ := entry
  have listed := List.mem_of_getElem? (List.mem_zipIdx_iff_getElem?.mp hr)
  obtain ⟨a, made⟩ := Option.ne_none_iff_exists'.mp (there row listed)
  simp [made, (areRows.isIndex row listed).2]

end Family

namespace Slice

/-- The elements of the families that the names of a slice have. -/
theorem flatMap_present {α : Type} {slice : Slice} {element : Key → Option α}
    (areRows : ∀ entry ∈ slice, Value.AreRows (Value.sortIndices entry.2))
    (there : ∀ key ∈ slice.keys, element key ≠ none) (id : Nat) :
    (slice.flatMap fun (name, indices) =>
      (Family.tabulate (Value.sortIndices indices) fun row => element ⟨name, row⟩).present.map
        fun (index, position, _) =>
          ((⟨name, index.toIndex⟩, ⟨id, name, position⟩) : Key × Handle)) = slice.imagesIn id := by
  simp only [imagesIn, places, List.map_flatMap, List.map_map]
  refine List.flatMap_congr fun entry he => ?_
  obtain ⟨name, indices⟩ := entry
  refine (Family.present_tabulate (areRows _ he) (fun row hr => there ⟨name, row⟩ ?_) id name).trans
    (by simp [Function.comp_def])
  exact mem_keys_of_mem_sorted he hr

/-- The row that an image comes from. -/
theorem row_of_mem_imagesIn {slice : Slice} {key : Key} {image : Handle} {id : Nat}
    (h : (key, image) ∈ slice.imagesIn id) : ∃ indices, (key.name, indices) ∈ slice ∧
      (Value.sortIndices indices)[image.position]? = some key.index ∧
        image = ⟨id, key.name, image.position⟩ := by
  simp only [imagesIn, List.mem_map, Prod.exists] at h
  obtain ⟨_, position, placed, equal⟩ := h
  cases equal
  obtain ⟨indices, listed, here⟩ := mem_places_iff.mp placed
  exact ⟨indices, listed, here, rfl⟩

end Slice

namespace Config

/-- Whether a name is that of one of the convexity constraints. -/
def isConvexityName (config : Config) (name : String) : Bool :=
  config.lowerName.same (.str name) || config.upperName.same (.str name)

end Config

namespace Decomposition

/-- The convexity constraints that a block has. -/
def convexityContents (config : Config) (ids : List Value) : Block → List (String × Content)
  | .master =>
    match config.lowerName, config.upperName with
    | .str lowerName, .str upperName =>
      [(lowerName, .constraints true (Convexity.family config.lowerRhs true ids)),
        (upperName, .constraints true (Convexity.family config.upperRhs false ids))]
    | _, _ => []
  | .subproblem _ => []

/-- The constraints of the model of a block but for the convexity constraints. -/
def ordinaryRows (config : Config) (block : Block) (target : Model) : List (Key × Handle) :=
  target.allConstraints.filter fun (key, _) =>
    !(block.isMaster && config.isConvexityName key.name)

/-- A component that is declared from rows of indices with all its elements. -/
structure OfRows (rows : List (List Value)) (content : Content) : Prop where
  wellFormed : content.WellFormed
  indexed : Model.isIndexed content = !isScalarIndex rows
  entries : content.entries = rows.map fun row => (Value.ofIndex row, true)

section OfRows

variable {rows : List (List Value)} (areRows : Value.AreRows rows)
include areRows

theorem vars_ofRows {element : List Value → Option Variable}
    (there : ∀ row ∈ rows, element row ≠ none) : OfRows rows (.vars (.tabulate rows element)) where
  wellFormed := Family.tabulate_wellFormed areRows element
  indexed := rfl
  entries := by
    simp only [Content.entries, Family.tabulate, List.map_map]
    refine List.map_congr_left fun row hr => ?_
    simp [Option.isSome_iff_ne_none.mpr (there row hr)]

theorem constraints_ofRows {element : List Value → Option Constraint}
    (there : ∀ row ∈ rows, element row ≠ none) :
    OfRows rows (.constraints true (.tabulate rows element)) where
  wellFormed := Family.tabulate_wellFormed areRows element
  indexed := rfl
  entries := by
    simp only [Content.entries, Family.tabulate, List.map_map]
    refine List.map_congr_left fun row hr => ?_
    simp [Option.isSome_iff_ne_none.mpr (there row hr)]

end OfRows

/-- A model with some components, up to what its variables are like. -/
structure Outlined (id : Nat) (contents : List (String × Content)) (m : Model) : Prop where
  id : m.id = id
  names_nodup : m.names.Nodup
  outline : m.outline = contents.map fun (name, content) => (name, content.outline)

namespace Outlined

variable {id : Nat} {contents : List (String × Content)} {m : Model}

theorem vars_eq (h : Outlined id contents m) :
    m.vars = contents.flatMap fun (name, content) => content.columns id name := by
  rw [Model.vars_eq, h.outline, h.id, List.flatMap_map]
  simp

theorem allConstraints_eq (h : Outlined id contents m) :
    m.allConstraints = contents.flatMap fun (name, content) => content.rows id name := by
  rw [Model.allConstraints_eq, h.outline, h.id, List.flatMap_map]
  simp

theorem activeObjectives_eq (h : Outlined id contents m) :
    m.activeObjectives = contents.flatMap fun c => c.2.goals id c.1 := by
  rw [Model.activeObjectives_eq, h.outline, h.id, List.flatMap_map]
  simp

theorem names_eq (h : Outlined id contents m) : m.names = contents.map (·.1) := by
  rw [← Model.outline_names, h.outline, List.map_map]
  rfl

/-- A row of a component that is declared from rows leads to its element. -/
theorem element_of_row (h : Outlined id contents m) {name : String} {content : Content}
    (listed : (name, content) ∈ contents) {rows : List (List Value)} (ofRows : OfRows rows content)
    (areRows : Value.AreRows rows) {row : List Value} {position : Nat}
    (here : rows[position]? = some row) :
    m.element name row = .ok ⟨id, name, position⟩ ∧
      (m.component? name).map (Model.isIndexed ·.content) = some (!isScalarIndex rows) := by
  have outlined : (name, content.outline) ∈ m.outline := by
    rw [h.outline]
    exact List.mem_map_of_mem (f := fun (name, content) => (name, Content.outline content)) listed
  have entry : content.outline.entries[position]? = some (Value.ofIndex row, true) := by
    simp [ofRows.entries, here]
  have found := Model.element_of_mem h.names_nodup outlined
    (Content.outline_wellFormed.mpr ofRows.wellFormed) entry
  rw [(areRows.isIndex row (List.mem_of_getElem? here)).2, Content.outline_isIndexed,
    ofRows.indexed] at found
  simpa [Model.handle, h.id] using found

theorem constraintOf?_eq (h : Outlined id contents m) {name : String} {content : Content}
    (listed : (name, content) ∈ contents) (position : Nat) :
    m.constraintOf? ⟨id, name, position⟩ = content.constraintAt? position := by
  have outlined : (name, content.outline) ∈ m.outline := by
    rw [h.outline]
    exact List.mem_map_of_mem (f := fun (name, content) => (name, Content.outline content)) listed
  have found := Model.constraintOf?_of_mem h.names_nodup outlined position
  rwa [Model.handle, h.id, Content.outline_constraintAt?] at found

end Outlined

end Decomposition

/-- The convexity constraints have names of their own. -/
theorem Convexity.extended_names_nodup {config : Config} {lowerName upperName : String}
    {ids : List Value} {m : Model} (freshLower : lowerName ∉ m.names)
    (freshUpper : upperName ∉ m.names) (other : upperName ≠ lowerName) (names : m.names.Nodup) :
    (Convexity.extended config lowerName upperName ids m).names.Nodup :=
  Model.append_names_nodup (by simpa [Model.names, Model.append, other] using freshUpper)
    (Model.append_names_nodup freshLower names)

namespace Reformulation.Trace

open Decomposition

variable {first : Nat} {m : Model} {classify : Classify} {config : Config} {r : Reformulation}

theorem outlined (h : r.Trace first m classify config) :
    List.Forall₂ (fun b t => t.1 = b.1 ∧ Outlined (first + b.2)
      (r.contentsOf m config b.1 ++ convexityContents config r.ids b.1) t.2) (numbered r.ids)
        r.targets := by
  refine h.targets.imp fun b t ⟨named, base, built, finished⟩ => ⟨named, ?_⟩
  obtain ⟨block, number⟩ := b
  obtain ⟨_, target⟩ := t
  have names := fixImages_names (r.pending m first) base
  have outline : (fixImages (r.pending m first) base).outline =
      (r.contentsOf m config block).map fun (name, content) => (name, content.outline) := by
    rw [fixImages_outline, Model.outline, built.contents]
  cases block with
  | subproblem id =>
      obtain rfl : target = _ := finished
      exact ⟨by rw [fixImages_id, built.id], by rw [names]; exact built.names_nodup,
        by simpa [convexityContents] using outline⟩
  | master =>
      obtain ⟨lowerName, upperName, lowerNamed, upperNamed, different, lowerFresh, upperFresh,
        rfl⟩ := finished
      refine ⟨by simp [Convexity.extended, fixImages_id, built.id],
        Convexity.extended_names_nodup lowerFresh upperFresh different (names ▸ built.names_nodup), ?_⟩
      simpa [Model.outline, convexityContents, Convexity.extended, lowerNamed, upperNamed,
          Content.outline] using outline

/-- The names of the convexity constraints are text. -/
theorem convexity_names (h : r.Trace first m classify config) :
    ∃ lowerName upperName, config.lowerName = .str lowerName ∧ config.upperName = .str upperName := by
  obtain ⟨t, -, -, base, -, finished⟩ := (exists_of_forall₂ h.targets).1 (.master, 0)
    (mem_numbered.mpr rfl)
  obtain ⟨lowerName, upperName, lowerNamed, upperNamed, -⟩ := finished
  exact ⟨lowerName, upperName, lowerNamed, upperNamed⟩

theorem isConvexityName_iff (h : r.Trace first m classify config) {block : Block} {name : String} :
    (block.isMaster && config.isConvexityName name) = true ↔
      name ∈ (convexityContents config r.ids block).map (·.1) := by
  obtain ⟨lowerName, upperName, lowerNamed, upperNamed⟩ := h.convexity_names
  cases block with
  | subproblem id => simp [Block.isMaster, convexityContents]
  | master =>
      simp only [Block.isMaster, Bool.true_and, Config.isConvexityName, lowerNamed, upperNamed,
        Value.same, convexityContents, List.map_cons, List.map_nil, List.mem_cons,
        List.not_mem_nil, or_false, Bool.or_eq_true, beq_iff_eq]
      exact or_congr eq_comm eq_comm

theorem emptyRow_of_mem_convexityContents {ids : List Value} {block : Block} {name : String}
    {content : Content} (h : (name, content) ∈ convexityContents config ids block) {position : Nat}
    {c : Constraint} (there : content.constraintAt? position = some c) :
    Convexity.IsEmptyRow c := by
  unfold convexityContents at h
  split at h
  · split at h
    · simp only [List.mem_cons, Prod.mk.injEq, List.not_mem_nil, or_false] at h
      rcases h with ⟨-, rfl⟩ | ⟨-, rfl⟩ <;> exact Convexity.family_emptyRow there
    · simp at h
  · simp at h

theorem objectiveContents_rest (block : Block) (id : Nat) :
    (objectiveContents r.objective r.vars config block).flatMap
        (fun (name, content) => content.columns id name) = [] ∧
      (objectiveContents r.objective r.vars config block).flatMap
        (fun (name, content) => content.rows id name) = [] := by
  unfold objectiveContents
  split
  · exact ⟨rfl, rfl⟩
  · split <;> simp [Content.columns, Content.rows]

theorem convexityContents_columns (ids : List Value) (block : Block) (id : Nat) :
    (convexityContents config ids block).flatMap (fun (name, content) => content.columns id name) =
      [] := by
  unfold convexityContents
  split
  · split <;> simp [Content.columns]
  · rfl

variable {b : Block × Nat} {target : Model}

/-- The variables of a target are the images of the variables of its block. -/
theorem vars_of_outlined (h : r.Trace first m classify config) (wf : m.WellFormed)
    (hb : b ∈ numbered r.ids) (shape : Outlined (first + b.2)
      (r.contentsOf m config b.1 ++ convexityContents config r.ids b.1) target) :
    target.vars = (r.assignment.vars.sliceOf b.1).imagesIn (first + b.2) := by
  have sound := Partition.variablesOf_sound h.assigned h.sound b.1
  rw [← h.partition_eq] at sound
  have there : ∀ key ∈ (r.partition.variablesOf b.1).keys, m.imageVariable key ≠ none := by
    intro key hk
    simpa [Model.imageVariable] using h.attributes b hb key hk
  rw [← h.variablesOf_eq, ← Slice.flatMap_present (fun entry he => sound.rows wf he) there,
    shape.vars_eq, Reformulation.contentsOf]
  simp only [List.flatMap_append, objectiveContents_rest, convexityContents_columns,
    variableContents, constraintContents, List.flatMap_map]
  simp [Content.columns, constraintContent, Model.variableContent]

/-- The constraints of a target are the images of the constraints of its block, but for the
convexity constraints. -/
theorem rows_of_outlined (h : r.Trace first m classify config) (wf : m.WellFormed)
    (hb : b ∈ numbered r.ids) (shape : Outlined (first + b.2)
      (r.contentsOf m config b.1 ++ convexityContents config r.ids b.1) target) :
    ordinaryRows config b.1 target =
      (r.assignment.constraints.sliceOf b.1).imagesIn (first + b.2) := by
  have sound := Partition.constraintsOf_sound h.assigned h.sound b.1
  rw [← h.partition_eq] at sound
  have names := shape.names_nodup
  rw [shape.names_eq, List.map_append] at names
  have ordinary : ((constraintContents r.partition r.vars m b.1).flatMap fun (name, content) =>
      content.rows (first + b.2) name) = (r.partition.constraintsOf b.1).imagesIn (first + b.2) := by
    rw [← Slice.flatMap_present (fun entry he => sound.rows wf he) (h.images b hb)]
    simp only [constraintContents, List.flatMap_map]
    simp [Content.rows, constraintContent]
  have kept : ((constraintContents r.partition r.vars m b.1).flatMap fun (name, content) =>
      content.rows (first + b.2) name).filter (fun (key, _) =>
        !(b.1.isMaster && config.isConvexityName key.name)) =
      (constraintContents r.partition r.vars m b.1).flatMap fun (name, content) =>
        content.rows (first + b.2) name := by
    refine List.filter_eq_self.mpr fun entry he => ?_
    obtain ⟨key, image⟩ := entry
    obtain ⟨⟨name, content⟩, listed, row⟩ := List.mem_flatMap.mp he
    obtain rfl := (Content.of_mem_rows row).1
    by_contra convexity
    have last := h.isConvexityName_iff.mp (by simpa using convexity)
    refine (List.nodup_append.mp names).2.2 _ ?_ _ last rfl
    exact List.mem_map.mpr ⟨(key.name, content), by simp [Reformulation.contentsOf, listed], rfl⟩
  have dropped : ((convexityContents config r.ids b.1).flatMap fun (name, content) =>
      content.rows (first + b.2) name).filter (fun (key, _) =>
        !(b.1.isMaster && config.isConvexityName key.name)) = [] := by
    refine List.filter_eq_nil_iff.mpr fun entry he => ?_
    obtain ⟨key, image⟩ := entry
    obtain ⟨⟨name, content⟩, listed, row⟩ := List.mem_flatMap.mp he
    obtain rfl := (Content.of_mem_rows row).1
    have last := h.isConvexityName_iff.mpr (List.mem_map.mpr ⟨_, listed, rfl⟩)
    simpa using last
  have variables_rows : ((variableContents r.partition m b.1).flatMap fun (name, content) =>
      content.rows (first + b.2) name) = [] := by
    simp [variableContents, List.flatMap_map, Content.rows, Model.variableContent]
  rw [ordinaryRows, shape.allConstraints_eq, Reformulation.contentsOf]
  simp only [List.flatMap_append, List.filter_append, objectiveContents_rest, variables_rows, kept,
    dropped, List.nil_append, List.append_nil]
  rw [ordinary, h.constraintsOf_eq]

/-- What is known of the model of a block. -/
structure View (r : Reformulation) (first : Nat) (m : Model) (config : Config) (b : Block × Nat)
    (target : Model) : Prop where
  vars : target.vars = (r.assignment.vars.sliceOf b.1).imagesIn (first + b.2)
  rows : ordinaryRows config b.1 target =
    (r.assignment.constraints.sliceOf b.1).imagesIn (first + b.2)
  element : ∀ key image, (key, image) ∈ target.vars ∨ (key, image) ∈ ordinaryRows config b.1 target →
    target.element key.name key.index = .ok image ∧ (m.NoNullIndex →
      (target.component? key.name).map (Model.isIndexed ·.content) =
        (m.component? key.name).map (Model.isIndexed ·.content))
  constraint : ∀ key image, (key, image) ∈ ordinaryRows config b.1 target → ∃ c,
    target.constraintOf? image = some c ∧
      imageConstraint (imageReading m r.vars) r.vars b.1 m key = some c
  convexity : ∀ key image c, (key, image) ∈ target.allConstraints →
    (key, image) ∉ ordinaryRows config b.1 target → target.constraintOf? image = some c →
      Convexity.IsEmptyRow c

/-- The keys of a slice lead to their images where the slice is declared. -/
theorem element_of_slice {slice : Slice} {id : Nat} {contents : List (String × Content)}
    (wf : m.WellFormed) (sound : slice.Sound m) (shape : Outlined id contents target)
    {content : String → List (List Value) → Content}
    (listed : ∀ name indices, (name, indices) ∈ slice → (name, content name indices) ∈ contents ∧
      OfRows (Value.sortIndices indices) (content name indices)) {key : Key} {image : Handle}
    (placed : (key, image) ∈ slice.imagesIn id) :
    target.element key.name key.index = .ok image ∧ (m.NoNullIndex →
      (target.component? key.name).map (Model.isIndexed ·.content) =
        (m.component? key.name).map (Model.isIndexed ·.content)) := by
  obtain ⟨indices, he, here, equal⟩ := Slice.row_of_mem_imagesIn placed
  obtain ⟨declared, ofRows⟩ := listed key.name indices he
  obtain ⟨found, indexed⟩ := shape.element_of_row declared ofRows (sound.rows wf he) here
  rw [equal]
  exact ⟨found, fun noNull => indexed.trans (sound.isIndexed_eq wf noNull he).symm⟩

section Slices

variable (h : r.Trace first m classify config) (wf : m.WellFormed) (hb : b ∈ numbered r.ids)
include h wf hb

/-- A slice of variables is declared whole. -/
theorem variables_listed : ∀ name indices, (name, indices) ∈ r.partition.variablesOf b.1 →
    (name, m.variableContent name indices) ∈
        r.contentsOf m config b.1 ++ convexityContents config r.ids b.1 ∧
      OfRows (Value.sortIndices indices) (m.variableContent name indices) := by
  have sound := Partition.variablesOf_sound h.assigned h.sound b.1
  rw [← h.partition_eq] at sound
  intro name indices he
  refine ⟨?_, vars_ofRows (sound.rows wf he) fun row hr => ?_⟩
  · simp only [Reformulation.contentsOf, List.mem_append, variableContents, List.mem_map]
    exact .inl (.inl (.inl ⟨_, he, rfl⟩))
  · simpa [Model.imageVariable] using h.attributes b hb _ (Slice.mem_keys_of_mem_sorted he hr)

/-- A slice of constraints is declared whole. -/
theorem constraints_listed : ∀ name indices, (name, indices) ∈ r.partition.constraintsOf b.1 →
    (name, constraintContent (imageReading m r.vars) r.vars b.1 m name indices) ∈
        r.contentsOf m config b.1 ++ convexityContents config r.ids b.1 ∧
      OfRows (Value.sortIndices indices)
        (constraintContent (imageReading m r.vars) r.vars b.1 m name indices) := by
  have sound := Partition.constraintsOf_sound h.assigned h.sound b.1
  rw [← h.partition_eq] at sound
  intro name indices he
  refine ⟨?_, constraints_ofRows (sound.rows wf he) fun row hr => ?_⟩
  · simp only [Reformulation.contentsOf, List.mem_append, constraintContents, List.mem_map]
    exact .inl (.inl (.inr ⟨_, he, rfl⟩))
  · exact h.images b hb _ (Slice.mem_keys_of_mem_sorted he hr)

end Slices

/-- A constraint beyond the images of the slice is one of the scaffold. -/
theorem convexity_of_extra (h : r.Trace first m classify config) (shape : Outlined (first + b.2)
      (r.contentsOf m config b.1 ++ convexityContents config r.ids b.1) target) {key : Key}
    {image : Handle} {c : Constraint} (listed : (key, image) ∈ target.allConstraints)
    (other : (key, image) ∉ ordinaryRows config b.1 target)
    (there : target.constraintOf? image = some c) : Convexity.IsEmptyRow c := by
  have convexity : key.name ∈ (convexityContents config r.ids b.1).map (·.1) := by
    rw [← h.isConvexityName_iff]
    by_contra ordinary
    rw [Bool.not_eq_true] at ordinary
    exact other (List.mem_filter.mpr ⟨listed, by simp only [ordinary, Bool.not_false]⟩)
  obtain ⟨⟨_, content⟩, he, named⟩ := List.mem_map.mp convexity
  simp only at named
  subst named
  rw [shape.allConstraints_eq] at listed
  obtain ⟨⟨name, _⟩, -, row⟩ := List.mem_flatMap.mp listed
  obtain ⟨rfl, placed⟩ := Content.of_mem_rows row
  rw [placed, shape.constraintOf?_eq (List.mem_append_right _ he)] at there
  exact emptyRow_of_mem_convexityContents he there

theorem view_of_outlined (h : r.Trace first m classify config) (wf : m.WellFormed)
    (hb : b ∈ numbered r.ids) (shape : Outlined (first + b.2)
      (r.contentsOf m config b.1 ++ convexityContents config r.ids b.1) target) :
    View r first m config b target := by
  have vars := h.vars_of_outlined wf hb shape
  have rows := h.rows_of_outlined wf hb shape
  have soundVars := Partition.variablesOf_sound h.assigned h.sound b.1
  have soundRows := Partition.constraintsOf_sound h.assigned h.sound b.1
  rw [← h.partition_eq] at soundVars soundRows
  have listedRows := h.constraints_listed wf hb
  refine ⟨vars, rows, ?_, ?_, fun key image c => h.convexity_of_extra shape⟩
  · rw [vars, rows, ← h.variablesOf_eq, ← h.constraintsOf_eq]
    rintro key image (placed | placed)
    · exact element_of_slice wf soundVars shape (h.variables_listed wf hb) placed
    · exact element_of_slice wf soundRows shape listedRows placed
  · rw [rows, ← h.constraintsOf_eq]
    intro key image placed
    obtain ⟨indices, he, here, equal⟩ := Slice.row_of_mem_imagesIn placed
    obtain ⟨c, made⟩ := Option.ne_none_iff_exists'.mp
      (h.images b hb key (Slice.mem_keys_of_mem_imagesIn placed))
    refine ⟨c, ?_, made⟩
    rw [equal, shape.constraintOf?_eq (listedRows _ _ he).1]
    simp [Content.constraintAt?, constraintContent, Family.get?, Family.tabulate, here, made]

theorem views (h : r.Trace first m classify config) (wf : m.WellFormed) :
    List.Forall₂ (fun b t => t.1 = b.1 ∧ View r first m config b t.2) (numbered r.ids)
      r.targets :=
  ((List.forall₂_and_left _ _).mpr ⟨fun _ hb => hb, h.outlined⟩).imp
    fun _ _ ⟨hb, named, shape⟩ => ⟨named, h.view_of_outlined wf hb shape⟩

theorem exists_target (h : r.Trace first m classify config) (wf : m.WellFormed)
    (hb : b ∈ numbered r.ids) : ∃ target, (b.1, target) ∈ r.targets ∧
      View r first m config b target := by
  obtain ⟨⟨block, target⟩, ht, rfl, view⟩ := (exists_of_forall₂ (h.views wf)).1 b hb
  exact ⟨target, ht, view⟩

theorem exists_numbered (h : r.Trace first m classify config) (wf : m.WellFormed) {block : Block}
    (ht : (block, target) ∈ r.targets) : ∃ number, (block, number) ∈ numbered r.ids ∧
      View r first m config (block, number) target := by
  obtain ⟨⟨_, number⟩, hb, rfl, view⟩ := (exists_of_forall₂ (h.views wf)).2 _ ht
  exact ⟨number, hb, view⟩

theorem master_view (h : r.Trace first m classify config) (wf : m.WellFormed) :
    View r first m config (.master, 0) r.master := by
  have listed : (Block.master, r.master) ∈ r.targets := List.mem_cons_self
  obtain ⟨number, hb, view⟩ := h.exists_numbered wf listed
  obtain rfl : number = 0 := congrArg Prod.snd
    (numbered_unique h.ids_distinct hb (master_numbered r.ids) rfl)
  exact view

end Reformulation.Trace

end BlockAngular
