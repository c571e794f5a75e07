import BlockAngular.Proofs.Decomposition.Parts
import BlockAngular.Proofs.Model.Declared
import BlockAngular.Proofs.Model.Fresh

/-! # Reading a model by its components

What a model has under a key can be read off the component of the name: the variable, or the
constraint in the row of the index. Rows are those of a declaration, in which every element is
there.
-/

namespace BlockAngular

/-- A row of an index that is the index again. -/
def Value.IsRow (row : List Value) : Prop :=
  (Value.ofIndex row).toIndex = row

namespace Content

theorem variableRows_ofVariables {rows : List (List Value)} (v : Variable)
    (areRows : ∀ row ∈ rows, Value.IsRow row) : (ofVariables (some rows) v).variableRows = rows := by
  simp only [ofVariables, variableRows, Family.rowsWhere, Family.indicesOf, List.filterMap_map]
  refine Eq.trans (List.filterMap_congr fun row hr => ?_) List.filterMap_some
  have index : (Value.ofIndex row).toIndex = row := areRows row hr
  simp [index]

theorem constraintRows_ofConstraints {rows : List (List Value × Constraint)}
    (areRows : ∀ row ∈ rows, Value.IsRow row.1) (active : ∀ row ∈ rows, row.2.active = true) :
    (ofConstraints rows).constraintRows = rows.map (·.1) := by
  simp only [ofConstraints, constraintRows, Family.rowsWhere, List.filterMap_map]
  rw [← List.filterMap_eq_map]
  refine List.filterMap_congr fun row hr => ?_
  have index : (Value.ofIndex row.1).toIndex = row.1 := areRows row hr
  simp [active row hr, index]

end Content

namespace Model

variable {m : Model} {name : String} {content : Content}

theorem variableKeys_contents (m : Model) : m.variableKeys =
    m.contents.flatMap fun c => c.2.variableRows.map fun row => ⟨c.1, row⟩ := by
  rw [variableKeys_eq, Slice.keys, contents, List.flatMap_map, List.flatMap_map]

theorem constraintKeys_contents (m : Model) : m.constraintKeys =
    m.contents.flatMap fun c => c.2.constraintRows.map fun row => ⟨c.1, row⟩ := by
  rw [constraintKeys_eq, Slice.keys, contents, List.flatMap_map, List.flatMap_map]

theorem activeObjectives_contents (m : Model) :
    m.activeObjectives = m.contents.flatMap fun c => c.2.goals m.id c.1 := by
  simp [activeObjectives_eq, outline, List.flatMap_map]

theorem hasName_contents (m : Model) (name : String) :
    m.hasName name = (m.contents.map (·.1)).contains name := by
  rw [contents_names, names, hasName, component?, List.isSome_find?, Bool.eq_iff_iff]
  simp

/-- The element of a component at a position is that of the key with its index. -/
theorem preimageOf_of_contents (wf : m.WellFormed) (there : (name, content) ∈ m.contents)
    {index : Value} {position : Nat} (entry : content.entries[position]? = some (index, true)) :
    m.preimageOf ⟨name, index.toIndex⟩ = m.handle name position ∧
      m.content? (m.handle name position) = some content := by
  obtain ⟨c, hc, equal⟩ := List.mem_map.mp there
  obtain ⟨rfl, rfl⟩ := Prod.mk.inj equal
  have has : m.HasElement c index position := ⟨hc, entry⟩
  exact ⟨preimageOf_of_element (has.element wf.names_nodup (wf.contents c hc)),
    content?_of_mem wf.names_nodup hc position⟩

/-- The variable of a row. -/
theorem variableAt_of_contents (wf : m.WellFormed) {rows : Option (List (List Value))} {v : Variable}
    (there : (name, .ofVariables rows v) ∈ m.contents)
    (areRows : ∀ row ∈ rows.getD [], Value.IsRow row) {row : List Value} (hr : row ∈ rows.getD [[]]) :
    m.variableAt (m.preimageOf ⟨name, row⟩) = .ok v := by
  have listed : ∃ index ∈ Family.indicesOf rows, index.toIndex = row := by
    cases rows with
    | none =>
        obtain rfl := List.mem_singleton.mp hr
        exact ⟨.null, List.mem_singleton_self _, rfl⟩
    | some rows => exact ⟨_, List.mem_map_of_mem hr, areRows row hr⟩
  obtain ⟨index, hi, rfl⟩ := listed
  obtain ⟨position, here⟩ := List.mem_iff_getElem?.mp hi
  have entry : (Content.ofVariables rows v).entries[position]? = some (index, true) := by
    simp [Content.ofVariables, Content.entries, here]
  obtain ⟨found, content⟩ := preimageOf_of_contents wf there entry
  simp only [found, variableAt, variableOf?, content]
  simp [Content.ofVariables, Family.get?, here]

/-- The constraint of a row. -/
theorem constraintOf?_of_contents (wf : m.WellFormed) {rows : List (List Value × Constraint)}
    (there : (name, .ofConstraints rows) ∈ m.contents) {row : List Value} {c : Constraint}
    (isRow : Value.IsRow row) (hr : (row, c) ∈ rows) :
    m.constraintOf? (m.preimageOf ⟨name, row⟩) = some c := by
  obtain ⟨position, here⟩ := List.mem_iff_getElem?.mp hr
  have entry : (Content.ofConstraints rows).entries[position]? = some (Value.ofIndex row, true) := by
    simp [Content.ofConstraints, Content.entries, here]
  obtain ⟨found, content⟩ := preimageOf_of_contents wf there entry
  have index : (Value.ofIndex row).toIndex = row := isRow
  rw [index] at found
  simp only [found, constraintOf?, content]
  simp [Content.ofConstraints, Family.get?, here]

/-- The constraint without an index. -/
theorem constraintOf?_of_ofConstraint (wf : m.WellFormed) {c : Constraint}
    (there : (name, .ofConstraint c) ∈ m.contents) :
    m.constraintOf? (m.preimageOf ⟨name, []⟩) = some c := by
  have entry : (Content.ofConstraint c).entries[0]? = some (.null, true) := rfl
  obtain ⟨found, content⟩ := preimageOf_of_contents wf there entry
  have key : m.preimageOf ⟨name, []⟩ = m.handle name 0 := found
  simp only [key, constraintOf?, content]
  rfl

/-- What is read of a constraint, from the form of its body and its limits. -/
theorem readConstraint_of (wf : m.WellFormed) {key : Key} (hk : key ∈ m.constraintKeys)
    {c : Constraint} (there : m.constraintOf? (m.preimageOf key) = some c)
    (writable : (Value.ofIndex key.index).isWritable = true) {form : AffineForm}
    (formed : ∀ context, m.formOf context c.body = .ok form) {limits : Limits Float}
    (limited : Limits.ofConstraint? (World.freeReading [m]) c = .ok limits) :
    m.readConstraint key = .ok (form, limits) :=
  readConstraint_ok.mpr ⟨c, there,
    ((declares_of_mem_constraintKeys hk).indexOf wf).symm ▸ writable, formed _, limited⟩

/-- A model with further components, in which the old variables are where they were. -/
structure Extends (m m' : Model) (added : List (String × Content)) : Prop where
  declared : m'.Declared
  contents : m'.contents = m.contents ++ added
  preimages : ∀ key ∈ m.variableKeys, m'.preimageOf key = m.preimageOf key

namespace Extends

variable {m' m'' : Model} {added added' : List (String × Content)}

theorem refl (declared : m.Declared) : m.Extends m [] :=
  ⟨declared, (List.append_nil _).symm, fun _ _ => rfl⟩

theorem variableKeys_subset (h : m.Extends m' added) : m.variableKeys ⊆ m'.variableKeys := by
  rw [variableKeys_contents, variableKeys_contents, h.contents, List.flatMap_append]
  exact List.subset_append_left _ _

theorem trans (h : m.Extends m' added) (h' : m'.Extends m'' added') :
    m.Extends m'' (added ++ added') where
  declared := h'.declared
  contents := by rw [h'.contents, h.contents, List.append_assoc]
  preimages key hk := (h'.preimages key (h.variableKeys_subset hk)).trans (h.preimages key hk)

end Extends

/-- A stage that appends a component extends a model without one under the name. -/
theorem Appends.exists_extends {stage : Stage Model Unit} (appends : Appends stage name content)
    (keeps : Stage.Keeps Declared stage) (declared : m.Declared) (fresh : name ∉ m.names) :
    ∃ m', stage m = .ok () m' ∧ m.Extends m' [(name, content)] := by
  obtain ⟨recipes, done⟩ := appends m fresh
  have declared' := (keeps.ok declared done).1
  refine ⟨_, done, declared', append_contents, fun key hk => ?_⟩
  obtain ⟨⟨own, h⟩, listed, rfl⟩ := List.mem_map.mp hk
  have kept : (own, h) ∈ (m.append ⟨name, content, recipes⟩).vars := by
    rw [vars, append, List.flatMap_append]
    exact List.mem_append_left _ listed
  rw [preimageOf_of_mem_vars declared'.regular.toWellFormed kept,
    preimageOf_of_mem_vars declared.regular.toWellFormed listed]

end Model

end BlockAngular
