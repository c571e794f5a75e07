import BlockAngular.Proofs.Assignment
import BlockAngular.Proofs.Decomposition.Reading
import BlockAngular.Proofs.Model.Outline
import BlockAngular.Proofs.Model.Progress

/-! # Models that differ in values

Two models may differ in nothing but the values of their variables and in which of them are
fixed. Then they have the same outline, so that the same keys lead to the same elements, and
the bounds of a variable are the same in both.
-/

namespace BlockAngular

namespace Variable

/-- A variable without its value, which is not fixed. -/
def unvalued (v : Variable) : Variable :=
  { v with value := .null, fixed := false }

end Variable

namespace Content

/-- A component without the values of its variables. -/
def unvalued : Content → Content
  | .vars family => .vars (family.map Variable.unvalued)
  | .block members => .block (members.map fun (name, v) => (name, v.unvalued))
  | content => content

@[simp] theorem unvalued_outline (c : Content) : c.unvalued.outline = c.outline := by
  cases c <;> simp [unvalued, outline, Family.map, Function.comp_def]

@[simp] theorem outline_positionIn (c : Content) (index : List Value) :
    Model.positionIn c.outline index = Model.positionIn c index := by
  cases c with
  | vars family =>
      have found : (family.map fun _ => Variable.free).find? = family.find? := by
        funext index
        simp [Family.find?, Family.map, List.findIdx?_map, Function.comp_def]
      simp only [outline, Model.positionIn, Family.position?, found]
      rfl
  | constraints | objectives | parameter | expression | reference | block => rfl

@[simp] theorem outline_indexAt (c : Content) (position : Nat) :
    Model.indexAt c.outline position = Model.indexAt c position := by
  cases c with
  | vars family =>
      simp only [outline, Model.indexAt, Family.indexAt, Family.map, List.getElem?_map]
      cases family.elements[position]? <;> rfl
  | constraints | objectives | parameter | expression | reference | block => rfl

end Content

namespace Model

/-- The model without the values of its variables, and without the ways to make elements, since
these give first values. -/
def unvalued (m : Model) : Model :=
  { m with components := m.components.map fun c => ⟨c.name, c.content.unvalued, []⟩ }

@[simp] theorem unvalued_id (m : Model) : m.unvalued.id = m.id := rfl

@[simp] theorem unvalued_outline (m : Model) : m.unvalued.outline = m.outline := by
  simp [outline, contents, unvalued, Function.comp_def]

/-- Two models with the same number and the same outline. -/
structure Alike (m m' : Model) : Prop where
  id_eq : m'.id = m.id
  outline_eq : m'.outline = m.outline

variable {m m' : Model}

theorem alike_of_unvalued (same : m.unvalued = m'.unvalued) : m.Alike m' where
  id_eq := by rw [← unvalued_id m', ← same, unvalued_id]
  outline_eq := by rw [← unvalued_outline m', ← same, unvalued_outline]

theorem component?_outline (m : Model) (name : String) :
    (m.component? name).map (fun c => (c.name, c.content.outline)) =
      m.outline.find? fun c => c.1 == name := by
  simp only [component?, outline, contents, List.map_map, List.find?_map]
  rfl

namespace Alike

/-- A name stands for the same component in both, if for any. -/
theorem component? (alike : m.Alike m') (name : String) :
    (m.component? name = none ∧ m'.component? name = none) ∨
      ∃ c c', m.component? name = some c ∧ m'.component? name = some c' ∧ c'.name = c.name ∧
        c'.content.outline = c.content.outline := by
  have outlined := component?_outline m' name
  rw [alike.outline_eq, ← component?_outline m name] at outlined
  cases found : m.component? name with
  | none => exact .inl ⟨rfl, by simpa [found] using outlined⟩
  | some c =>
      rw [found] at outlined
      obtain ⟨c', found', equal⟩ := Option.map_eq_some_iff.mp outlined
      simp only [Prod.mk.injEq] at equal
      exact .inr ⟨c, c', rfl, found', equal.1, equal.2⟩

theorem content? (alike : m.Alike m') (h : Handle) :
    (m.content? h = none ∧ m'.content? h = none) ∨
      ∃ c c', m.content? h = some c ∧ m'.content? h = some c' ∧ c'.outline = c.outline := by
  rcases alike.component? h.component with ⟨absent, absent'⟩ | ⟨c, c', found, found', -, outlined⟩
  · exact .inl (by simp [Model.content?, absent, absent'])
  · exact .inr ⟨c.content, c'.content, by simp [Model.content?, found],
      by simp [Model.content?, found'], outlined⟩

theorem handle (alike : m.Alike m') : m'.handle = m.handle := by
  unfold Model.handle
  rw [alike.id_eq]

theorem names (alike : m.Alike m') : m'.names = m.names := by
  rw [← outline_names, alike.outline_eq, outline_names]

theorem hasName (alike : m.Alike m') (name : String) : m'.hasName name = m.hasName name := by
  unfold Model.hasName
  rcases alike.component? name with ⟨absent, absent'⟩ | ⟨c, c', found, found', -⟩
  · rw [absent, absent']
  · rw [found, found']
    rfl

theorem vars (alike : m.Alike m') : m'.vars = m.vars := by
  rw [vars_eq, vars_eq, alike.outline_eq, alike.id_eq]

theorem activeObjectives (alike : m.Alike m') : m'.activeObjectives = m.activeObjectives := by
  rw [activeObjectives_eq, activeObjectives_eq, alike.outline_eq, alike.id_eq]

theorem constraints_outline (m : Model) : m.constraints = m.outline.flatMap fun (name, content) =>
    match content with
    | .constraints true family => (family.present.filter fun (_, _, a) => a.active).map
        fun (index, position, _) => (⟨name, index.toIndex⟩, ⟨m.id, name, position⟩)
    | _ => [] := by
  simp only [outline, contents, List.map_map, List.flatMap_map, Model.constraints]
  refine List.flatMap_congr fun c _ => ?_
  simp only [Function.comp]
  cases c.content with
  | constraints active family => cases active <;> rfl
  | vars | objectives | parameter | expression | reference | block => rfl

theorem constraints (alike : m.Alike m') : m'.constraints = m.constraints := by
  rw [constraints_outline, constraints_outline, alike.outline_eq, alike.id_eq]

theorem indexOf (alike : m.Alike m') (h : Handle) : m'.indexOf h = m.indexOf h := by
  unfold Model.indexOf
  rcases alike.content? h with ⟨absent, absent'⟩ | ⟨c, c', found, found', outlined⟩
  · rw [absent, absent']
  · simp only [found, found', ← Content.outline_indexAt c', outlined, Content.outline_indexAt]

theorem nameOf (alike : m.Alike m') (h : Handle) : m'.nameOf h = m.nameOf h := by
  unfold Model.nameOf
  rcases alike.content? h with ⟨absent, absent'⟩ | ⟨c, c', found, found', outlined⟩
  · rw [absent, absent']
  · have indexed : isIndexed c' = isIndexed c := by
      rw [← Content.outline_isIndexed c', outlined, Content.outline_isIndexed]
    simp only [found, found', indexed, alike.indexOf h]

theorem parameter (alike : m.Alike m') (h : Handle) : m'.parameter h = m.parameter h := by
  unfold Model.parameter
  rcases alike.content? h with ⟨absent, absent'⟩ | ⟨c, c', found, found', outlined⟩
  · rw [absent, absent']
  · rw [found, found']
    cases c <;> cases c' <;> simp_all [Content.outline]

theorem constraintAt (alike : m.Alike m') (h : Handle) : m'.constraintAt h = m.constraintAt h := by
  unfold Model.constraintAt
  rcases alike.content? h with ⟨absent, absent'⟩ | ⟨c, c', found, found', outlined⟩
  · rw [absent, absent']
  · rw [found, found']
    cases c <;> cases c' <;> simp_all [Content.outline]

theorem behind (alike : m.Alike m') {c c' : Component} (named : c'.name = c.name)
    (outlined : c'.content.outline = c.content.outline) :
    (m'.behind c').name = (m.behind c).name ∧
      (m'.behind c').content.outline = (m.behind c).content.outline := by
  unfold Model.behind
  cases there : c.content <;> cases there' : c'.content <;>
    simp only [there, there', Content.outline, reduceCtorEq, Content.reference.injEq] at outlined
  case reference.reference target target' =>
    subst outlined
    rcases alike.component? target' with ⟨absent, absent'⟩ | ⟨d, d', found, found', named', outlined'⟩
    · simp [absent, absent', named, there, there']
    · simp [found, found', named', outlined']
  all_goals simp_all [Content.outline]

theorem item (alike : m.Alike m') {c c' : Component} (named : c'.name = c.name)
    (outlined : c'.content.outline = c.content.outline) (index : List Value) :
    m'.item c' index = m.item c index := by
  obtain ⟨name_eq, outline_eq⟩ := alike.behind named outlined
  have indexed : isIndexed (m'.behind c').content = isIndexed (m.behind c).content := by
    rw [← Content.outline_isIndexed (m'.behind c').content, outline_eq, Content.outline_isIndexed]
  have position : positionIn (m'.behind c').content index = positionIn (m.behind c).content index := by
    rw [← Content.outline_positionIn (m'.behind c').content, outline_eq, Content.outline_positionIn]
  simp only [Model.item, indexed, position, name_eq, alike.handle]

/-- A key leads to the same element in both. -/
theorem element (alike : m.Alike m') (name : String) (index : List Value) :
    m'.element name index = m.element name index := by
  unfold Model.element
  rcases alike.component? name with ⟨absent, absent'⟩ | ⟨c, c', found, found', named, outlined⟩
  · rw [absent, absent']
  · have indexed : isIndexed c'.content = isIndexed c.content := by
      rw [← Content.outline_isIndexed c'.content, outlined, Content.outline_isIndexed]
    simp only [found, found', indexed, alike.item named outlined, named, alike.handle]

theorem preimageOf (alike : m.Alike m') (key : Key) : m'.preimageOf key = m.preimageOf key := by
  unfold Model.preimageOf
  rw [alike.element]

theorem objectiveInForce? (alike : m.Alike m') : m'.objectiveInForce? = m.objectiveInForce? := by
  unfold Model.objectiveInForce?
  simp only [alike.activeObjectives, alike.indexOf, alike.nameOf]

theorem assignment (alike : m.Alike m') (classify : Classify) :
    m'.assignment classify = m.assignment classify := by
  unfold Model.assignment Model.variableKeys Model.constraintKeys
  rw [alike.vars, alike.constraints]

/-- A property of components that can be read off their outlines. -/
theorem forall_components (alike : m.Alike m') {p : String → Content → Prop}
    (outlined : ∀ name content, p name content.outline ↔ p name content)
    (all : ∀ c ∈ m.components, p c.name c.content) : ∀ c ∈ m'.components, p c.name c.content := by
  intro c' hc'
  have listed : (c'.name, c'.content.outline) ∈ m'.outline := by
    simp only [outline, contents, List.map_map]
    exact List.mem_map_of_mem (f := fun c : Component => (c.name, c.content.outline)) hc'
  rw [alike.outline_eq] at listed
  simp only [outline, contents, List.map_map, List.mem_map, Function.comp, Prod.mk.injEq] at listed
  obtain ⟨c, hc, named, equal⟩ := listed
  rw [← outlined, ← equal, outlined, ← named]
  exact all c hc

theorem wellFormed (alike : m.Alike m') (wf : m.WellFormed) : m'.WellFormed where
  names_nodup := show m'.names.Nodup from alike.names ▸ wf.names_nodup
  contents := alike.forall_components (p := fun _ content => content.WellFormed)
    (fun _ _ => Content.outline_wellFormed) wf.contents
  sides := by
    refine alike.forall_components (p := fun _ content => content.HasPlainSides) ?_ wf.sides
    intro _ content
    cases content <;> exact .rfl

theorem regular (alike : m.Alike m') (regular : m.Regular) : m'.Regular where
  toWellFormed := alike.wellFormed regular.toWellFormed
  unreserved := alike.forall_components (p := fun name _ => Reserved.inModel name = false)
    (fun _ _ => .rfl) regular.unreserved
  uniform := by
    refine alike.forall_components
      (p := fun _ content => Family.Uniform (content.entries.map (·.1))) ?_ regular.uniform
    intro _ content
    rw [Content.outline_entries]

end Alike

theorem unvalued_content? (m : Model) (h : Handle) :
    m.unvalued.content? h = (m.content? h).map Content.unvalued := by
  simp only [content?, component?, unvalued, List.find?_map, Option.map_map]
  rfl

theorem unvalued_innerVariable? (m : Model) (name : String) :
    m.unvalued.innerVariable? name = (m.innerVariable? name).map Variable.unvalued := by
  simp only [innerVariable?, unvalued, List.findSome?_map, List.map_findSome?]
  refine congrArg (List.findSome? · m.components) (funext fun c => ?_)
  simp only [Function.comp]
  cases c.content with
  | block members =>
      simp only [Content.unvalued, List.find?_map, Option.map_map]
      rfl
  | vars | constraints | objectives | parameter | expression | reference => rfl

theorem unvalued_variableOf? (m : Model) (h : Handle) :
    m.unvalued.variableOf? h = (m.variableOf? h).map Variable.unvalued := by
  simp only [variableOf?, unvalued_content?]
  cases m.content? h with
  | none => exact unvalued_innerVariable? m h.component
  | some c =>
      cases c with
      | vars family =>
          simp only [Option.map_some, Content.unvalued, Family.map, Family.get?, List.getElem?_map]
          cases family.elements[h.position]? <;> rfl
      | constraints | objectives | parameter | expression | reference | block => rfl

end Model

end BlockAngular
