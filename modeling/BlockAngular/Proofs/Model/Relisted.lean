import BlockAngular.Model.World
import BlockAngular.Proofs.Decomposition.Progress
import BlockAngular.Proofs.Decomposition.Views
import BlockAngular.Proofs.Model.Regular

/-! # Indices listed in another order

Two models can differ in the order in which they list the indices of their variables and
constraints. An element then stands in another place, and bodies refer to its new place. Keys,
attributes, limits and objectives are the same, and so is everything without an index.
-/

namespace BlockAngular

/-- A constraint over variables with other names. -/
def Constraint.rename (g : Handle → Handle) (c : Constraint) : Constraint :=
  { c with body := c.body.rename g }

/-- An objective over variables with other names. -/
def Objective.rename (g : Handle → Handle) (o : Objective) : Objective :=
  { o with body := o.body.rename g }

namespace Family

variable {α : Type}

/-- The place of an element in a family that lists the same indices. -/
def place (f f' : Family α) (position : Nat) : Nat :=
  match f.elements[position]? with
  | some (index, _) => (f'.find? index).getD position
  | none => position

/-- A family that lists the elements in some order, changed. -/
structure Relists (change : α → α) (f f' : Family α) : Prop where
  indexed : f'.indexed = f.indexed
  elements : f'.elements.Perm (f.map change).elements

/-- The rows of indices of the elements of some kind. -/
def rowsWhere (kind : α → Bool) (f : Family α) : List (List Value) :=
  f.elements.filterMap fun e => (e.2.filter kind).map fun _ => e.1.toIndex

theorem present_rows (kind : α → Bool) (f : Family α) :
    (f.present.filter fun e => kind e.2.2).map (fun e => e.1.toIndex) = f.rowsWhere kind := by
  rw [rowsWhere, ← List.zipIdx_map_fst 0 f.elements, List.filterMap_map, present,
    List.filter_filterMap, List.map_filterMap]
  refine List.filterMap_congr fun e _ => ?_
  obtain ⟨⟨index, a⟩, position⟩ := e
  cases a with
  | none => rfl
  | some a =>
      simp only [Option.map_some, Option.filter_some, Function.comp]
      cases kind a <;> rfl

namespace Relists

variable {change : α → α} {f f' : Family α}

theorem indices (h : f.Relists change f') :
    (f'.elements.map (·.1)).Perm (f.elements.map (·.1)) := by
  rw [← map_indices f change]
  exact h.elements.map _

theorem wellFormed (h : f.Relists change f') (wf : f.WellFormed) : f'.WellFormed where
  sole scalar := by
    obtain ⟨a, alone⟩ := wf.sole (h.indexed ▸ scalar)
    have elements := h.elements
    simp only [map, alone, List.map_cons, List.map_nil] at elements
    exact ⟨_, List.perm_singleton.mp elements⟩
  distinct := wf.distinct.perm h.indices.symm
  indices e he := by
    have listed := h.indices.mem_iff.mp (List.mem_map_of_mem (f := (·.1)) he)
    obtain ⟨own, hown, equal⟩ := List.mem_map.mp listed
    exact equal ▸ wf.indices own hown

theorem regular (h : f.Relists change f') (regular : f.Regular) : f'.Regular :=
  ⟨h.wellFormed regular.toWellFormed, regular.uniform.of_subset h.indices.subset⟩

/-- An element is found at its place. -/
theorem getElem?_place (h : f.Relists change f') (wf : f.WellFormed) (position : Nat) :
    f'.elements[f.place f' position]? = f.elements[position]?.map fun e => (e.1, e.2.map change) := by
  have listed : (f.map change).elements = f.elements.map fun e => (e.1, e.2.map change) := rfl
  unfold place
  cases here : f.elements[position]? with
  | none =>
      have length := h.elements.length_eq
      rw [listed, List.length_map] at length
      simpa [length] using here
  | some e =>
      obtain ⟨index, a⟩ := e
      have there : (index, a.map change) ∈ f'.elements := by
        rw [h.elements.mem_iff, listed]
        exact List.mem_map_of_mem (f := fun e => (e.1, e.2.map change)) (List.mem_of_getElem? here)
      obtain ⟨new, found⟩ := List.mem_iff_getElem?.mp there
      simp [find?_of_getElem? (h.wellFormed wf).distinct found, found]

theorem get?_place (h : f.Relists change f') (wf : f.WellFormed) (position : Nat) :
    f'.get? (f.place f' position) = (f.get? position).map change := by
  rw [get?, get?, h.getElem?_place wf]
  cases f.elements[position]? <;> rfl

theorem indexAt_place (h : f.Relists change f') (wf : f.WellFormed) (position : Nat) :
    f'.indexAt (f.place f' position) = f.indexAt position := by
  rw [indexAt, indexAt, h.getElem?_place wf]
  cases f.elements[position]? <;> rfl

theorem rows (h : f.Relists change f') {kind : α → Bool} (kept : ∀ a, kind (change a) = kind a) :
    (f'.rowsWhere kind).Perm (f.rowsWhere kind) := by
  refine (h.elements.filterMap _).trans (.of_eq ?_)
  rw [rowsWhere, map, List.filterMap_map]
  refine List.filterMap_congr fun e _ => ?_
  obtain ⟨index, a⟩ := e
  cases a with
  | none => rfl
  | some a => simp [Option.filter_some, kept]

end Relists

end Family

namespace Content

/-- The place of an element in a component that lists the same indices. -/
def place : Content → Content → Nat → Nat
  | .vars family, .vars family', position => family.place family' position
  | .constraints _ family, .constraints _ family', position => family.place family' position
  | _, _, position => position

/-- A component over variables with other names whose variables or constraints, if it has any,
may come in another order. -/
inductive Relists (g : Handle → Handle) : Content → Content → Prop
  | vars {family family'} (h : family.Relists (fun v => v) family') :
      Relists g (.vars family) (.vars family')
  | constraints {active family family'} (h : family.Relists (Constraint.rename g) family') :
      Relists g (.constraints active family) (.constraints active family')
  | objectives {active family} :
      Relists g (.objectives active family) (.objectives active (family.map (Objective.rename g)))
  | parameter {value} : Relists g (.parameter value) (.parameter value)
  | expression {body} : Relists g (.expression body) (.expression (body.map (Expression.rename g)))
  | reference {target} : Relists g (.reference target) (.reference target)
  | block {vars} : Relists g (.block vars) (.block vars)

/-- The rows of indices of the variables of a component. -/
def variableRows : Content → List (List Value)
  | .vars family => family.rowsWhere fun _ => true
  | _ => []

/-- The rows of indices of the constraints of a component that are active. -/
def constraintRows : Content → List (List Value)
  | .constraints true family => family.rowsWhere (·.active)
  | _ => []

namespace Relists

variable {g : Handle → Handle} {content content' : Content}

theorem regular (h : Relists g content content') (regular : content.Regular) :
    content'.Regular := by
  cases h with
  | vars h => exact h.regular regular
  | constraints h =>
      refine ⟨h.regular regular.1, fun e he c hc => ?_⟩
      obtain ⟨own, hown, rfl⟩ := List.mem_map.mp (h.elements.mem_iff.mp he)
      obtain ⟨c, there, rfl⟩ := Option.map_eq_some_iff.mp hc
      exact ⟨(regular.2 own hown c there).lower, (regular.2 own hown c there).upper⟩
  | objectives => exact Family.Regular.of_indices regular rfl (Family.map_indices _ _)
  | parameter | expression | reference | block => trivial

theorem isIndexed (h : Relists g content content') :
    Model.isIndexed content' = Model.isIndexed content := by
  cases h with
  | vars h => exact h.indexed
  | constraints h => exact h.indexed
  | objectives | parameter | expression | reference | block => rfl

theorem indexAt_place (h : Relists g content content') (wf : content.WellFormed) (position : Nat) :
    Model.indexAt content' (content.place content' position) = Model.indexAt content position := by
  cases h with
  | vars h => exact h.indexAt_place wf position
  | constraints h => exact h.indexAt_place wf position
  | objectives =>
      simp only [place, Model.indexAt, Family.indexAt, Family.map, List.getElem?_map, Option.map_map]
      rfl
  | parameter | expression | reference | block => rfl

theorem variableRows (h : Relists g content content') :
    content'.variableRows.Perm content.variableRows := by
  cases h with
  | vars h => exact h.rows fun _ => rfl
  | constraints | objectives | parameter | expression | reference | block => exact .refl _

theorem constraintRows (h : Relists g content content') :
    content'.constraintRows.Perm content.constraintRows := by
  cases h with
  | @constraints active family family' h =>
      cases active with
      | true => exact h.rows fun _ => rfl
      | false => exact .refl _
  | vars | objectives | parameter | expression | reference | block => exact .refl _

end Relists

end Content

namespace Model

/-- The handle of an element of a model in one that lists the same elements. -/
def relisted (m m' : Model) (h : Handle) : Handle :=
  if h.model = m.id then
    match m.content? h, m'.content? h with
    | some content, some content' => { h with position := content.place content' h.position }
    | _, _ => h
  else h

/-- Two models that differ in the order in which they list the indices of their variables and
constraints. How elements are made that are not there does not matter. -/
structure Relists (m m' : Model) : Prop where
  id : m'.id = m.id
  name : m'.name = m.name
  components : List.Forall₂ (fun c c' => c'.name = c.name ∧
    c.content.Relists (m.relisted m') c'.content) m.components m'.components

@[simp] theorem relisted_model (m m' : Model) (h : Handle) : (m.relisted m' h).model = h.model := by
  unfold relisted
  split
  · split <;> rfl
  · rfl

@[simp] theorem relisted_component (m m' : Model) (h : Handle) :
    (m.relisted m' h).component = h.component := by
  unfold relisted
  split
  · split <;> rfl
  · rfl

variable {m m' : Model} {h : Handle} {key : Key}

theorem relisted_position (own : h.model = m.id) {content content' : Content}
    (there : m.content? h = some content) (there' : m'.content? h = some content') :
    (m.relisted m' h).position = content.place content' h.position := by
  simp [relisted, own, there, there']

theorem content?_relisted (m m' m'' : Model) (h : Handle) :
    m''.content? (m.relisted m' h) = m''.content? h := by
  simp [content?]

/-- What a handle names is a component with the name. -/
theorem exists_component {content : Content} (there : m.content? h = some content) :
    ∃ c ∈ m.components, c.name = h.component ∧ c.content = content := by
  obtain ⟨c, found, rfl⟩ := Option.map_eq_some_iff.mp there
  exact ⟨c, List.mem_of_find?_eq_some found, by simpa using List.find?_some found, rfl⟩

theorem WellFormed.of_content? (wf : m.WellFormed) {content : Content}
    (there : m.content? h = some content) : content.WellFormed := by
  obtain ⟨c, hc, -, rfl⟩ := exists_component there
  exact wf.contents c hc

/-- The declared variables are the variables of its components that are there. -/
theorem mem_vars_iff (names : (m.components.map (·.name)).Nodup) : (key, h) ∈ m.vars ↔
    h.model = m.id ∧ key = m.keyOf h ∧
      ∃ family, m.content? h = some (.vars family) ∧ (family.get? h.position).isSome = true := by
  rw [mem_vars]
  constructor
  · rintro ⟨c, hc, family, content, index, position, v, here, rfl, rfl⟩
    have found := content?_of_mem names hc position
    rw [content] at found
    refine ⟨rfl, ?_, family, found, by simp [handle, Family.get?, here]⟩
    simp only [keyOf, indexOf, found]
    simp [indexAt, Family.indexAt, handle, here]
  · rintro ⟨own, rfl, family, found, present⟩
    obtain ⟨c, hc, named, content⟩ := exists_component found
    obtain ⟨v, there⟩ := Option.isSome_iff_exists.mp present
    obtain ⟨⟨index, a⟩, here, rfl⟩ := Option.bind_eq_some_iff.mp there
    refine ⟨c, hc, family, content, index, h.position, v, here, ?_, ?_⟩
    · simp [keyOf, indexOf, found, indexAt, Family.indexAt, here, named]
    · simp [handle, named, ← own]

/-- The declared constraints are the active constraints of its active components. -/
theorem mem_constraints_iff (names : (m.components.map (·.name)).Nodup) :
    (key, h) ∈ m.constraints ↔ h.model = m.id ∧ key = m.keyOf h ∧
      ∃ family, m.content? h = some (.constraints true family) ∧
        (family.get? h.position).any (·.active) = true := by
  rw [mem_constraints]
  constructor
  · rintro ⟨c, hc, family, content, index, position, row, here, active, rfl, rfl⟩
    have found := content?_of_mem names hc position
    rw [content] at found
    refine ⟨rfl, ?_, family, found, by simp [handle, Family.get?, here, active]⟩
    simp only [keyOf, indexOf, found]
    simp [indexAt, Family.indexAt, handle, here]
  · rintro ⟨own, rfl, family, found, present⟩
    obtain ⟨c, hc, named, content⟩ := exists_component found
    obtain ⟨row, there, active⟩ := (Option.any_eq_true _ _).mp present
    obtain ⟨⟨index, a⟩, here, rfl⟩ := Option.bind_eq_some_iff.mp there
    refine ⟨c, hc, family, content, index, h.position, row, here, active, ?_, ?_⟩
    · simp [keyOf, indexOf, found, indexAt, Family.indexAt, here, named]
    · simp [handle, named, ← own]

theorem variableKeys_eq (m : Model) :
    m.variableKeys = Slice.keys (m.components.map fun c => (c.name, c.content.variableRows)) := by
  rw [variableKeys, vars, List.map_flatMap, Slice.keys, List.flatMap_map]
  refine List.flatMap_congr fun c _ => ?_
  cases content : c.content with
  | vars family =>
      simp only [Content.variableRows, keyed, ← Family.present_rows, List.filter_true, List.map_map]
      rfl
  | constraints | objectives | parameter | expression | reference | block => rfl

theorem constraintKeys_eq (m : Model) :
    m.constraintKeys = Slice.keys (m.components.map fun c => (c.name, c.content.constraintRows)) := by
  rw [constraintKeys, constraints, List.map_flatMap, Slice.keys, List.flatMap_map]
  refine List.flatMap_congr fun c _ => ?_
  cases content : c.content with
  | constraints active family =>
      cases active with
      | true =>
          simp only [Content.constraintRows, ← Family.present_rows, List.map_map]
          rfl
      | false => rfl
  | vars | objectives | parameter | expression | reference | block => rfl

end Model

/-- Looking for the first member of a kind in lists that belong together. -/
theorem find?_rel {α β : Type} {R : α → β → Prop} {p : α → Bool} {p' : β → Bool} {as : List α}
    {bs : List β} (h : List.Forall₂ R as bs) (same : ∀ a b, R a b → p' b = p a) :
    Option.Rel R (as.find? p) (bs.find? p') := by
  induction h with
  | nil => exact .none
  | @cons a b _ _ first _ ih =>
      rw [List.find?_cons, List.find?_cons, same a b first]
      cases p a with
      | true => exact .some first
      | false => exact ih

theorem findSome?_of_forall₂ {α β γ : Type} {f : α → Option γ} {g : β → Option γ} {as : List α}
    {bs : List β} (h : List.Forall₂ (fun a b => g b = f a) as bs) : bs.findSome? g = as.findSome? f := by
  induction h with
  | nil => rfl
  | cons first _ ih => simp [List.findSome?_cons, first, ih]

namespace Model.Relists

variable {m m' : Model}

theorem component? (h : m.Relists m') (name : String) : Option.Rel (fun c c' => c'.name = c.name ∧
    c.content.Relists (m.relisted m') c'.content) (m.component? name) (m'.component? name) :=
  find?_rel h.components fun c c' relists => by rw [relists.1]

theorem hasName (h : m.Relists m') (name : String) : m'.hasName name = m.hasName name := by
  have relists := h.component? name
  unfold Model.hasName
  generalize m.component? name = c at relists ⊢
  generalize m'.component? name = c' at relists ⊢
  cases relists <;> rfl

theorem content? (h : m.Relists m') (v : Handle) :
    (m.content? v = none ∧ m'.content? v = none) ∨ ∃ content content',
      m.content? v = some content ∧ m'.content? v = some content' ∧
        content.Relists (m.relisted m') content' := by
  have relists := h.component? v.component
  unfold Model.content?
  generalize m.component? v.component = c at relists ⊢
  generalize m'.component? v.component = c' at relists ⊢
  cases relists with
  | none => exact .inl ⟨rfl, rfl⟩
  | some relists => exact .inr ⟨_, _, rfl, rfl, relists.2⟩

theorem regular (h : m.Relists m') (regular : m.Regular) : m'.Regular := by
  have names : m'.components.map (·.name) = m.components.map (·.name) :=
    map_of_forall₂ (h.components.imp fun _ _ relists => relists.1)
  have each : ∀ c' ∈ m'.components, ∃ c ∈ m.components, c'.name = c.name ∧ c'.content.Regular := by
    intro c' hc'
    obtain ⟨c, hc, named, relists⟩ := (exists_of_forall₂ h.components).2 c' hc'
    exact ⟨c, hc, named, relists.regular (Content.regular_iff.mpr
      ⟨regular.contents c hc, regular.sides c hc, regular.uniform c hc⟩)⟩
  refine ⟨⟨names ▸ regular.names_nodup, fun c' hc' => ?_, fun c' hc' => ?_⟩, fun c' hc' => ?_,
    fun c' hc' => ?_⟩
  all_goals obtain ⟨c, hc, named, made⟩ := each c' hc'
  · exact (Content.regular_iff.mp made).1
  · exact (Content.regular_iff.mp made).2.1
  · rw [named]
    exact regular.unreserved c hc
  · exact (Content.regular_iff.mp made).2.2

theorem innerVariable? (h : m.Relists m') (name : String) :
    m'.innerVariable? name = m.innerVariable? name := by
  refine findSome?_of_forall₂ (h.components.imp fun c c' relists => ?_)
  obtain ⟨named, relists⟩ := relists
  generalize c.content = content at relists
  generalize c'.content = content' at relists
  cases relists <;> simp [named]

section Elements

variable (h : m.Relists m') (wf : m.WellFormed) {v : Handle} (own : v.model = m.id)
include h wf own

/-- An element has the same index at its new place. -/
theorem indexOf_relisted : m'.indexOf (m.relisted m' v) = m.indexOf v := by
  simp only [Model.indexOf, content?_relisted]
  rcases h.content? v with ⟨none, none'⟩ | ⟨content, content', there, there', relists⟩
  · simp only [none, none']
  · simp only [there, there', relisted_position own there there']
    exact relists.indexAt_place (wf.of_content? there) _

theorem keyOf_relisted : m'.keyOf (m.relisted m' v) = m.keyOf v := by
  rw [keyOf, keyOf, h.indexOf_relisted wf own, relisted_component]

theorem nameOf_relisted : m'.nameOf (m.relisted m' v) = m.nameOf v := by
  simp only [Model.nameOf, content?_relisted, relisted_component, h.indexOf_relisted wf own]
  rcases h.content? v with ⟨none, none'⟩ | ⟨content, content', there, there', relists⟩
  · simp only [none, none']
  · simp only [there, there', relists.isIndexed]

theorem variableOf?_relisted : m'.variableOf? (m.relisted m' v) = m.variableOf? v := by
  simp only [Model.variableOf?, content?_relisted, relisted_component]
  rcases h.content? v with ⟨none, none'⟩ | ⟨content, content', there, there', relists⟩
  · simp only [none, none', h.innerVariable?]
  · simp only [there, there', relisted_position own there there']
    have wellFormed := wf.of_content? there
    cases relists with
    | vars elements => simpa [Content.place] using elements.get?_place wellFormed _
    | constraints | objectives | parameter | expression | reference | block => rfl

theorem constraintAt_relisted : m'.constraintAt (m.relisted m' v) =
    (m.constraintAt v).map (Constraint.rename (m.relisted m')) := by
  simp only [Model.constraintAt, content?_relisted]
  rcases h.content? v with ⟨none, none'⟩ | ⟨content, content', there, there', relists⟩
  · simp only [none, none', Except.map]
  · simp only [there, there', relisted_position own there there']
    have wellFormed := wf.of_content? there
    cases relists with
    | constraints elements =>
        simp only [Content.place, elements.get?_place wellFormed]
        cases Family.get? _ v.position <;> rfl
    | vars | objectives | parameter | expression | reference | block => rfl

end Elements

section Declared

variable (h : m.Relists m') (regular : m.Regular) {v : Handle} {key : Key}
include h regular

/-- A variable is declared under its key at its new place. -/
theorem mem_vars : (key, m.relisted m' v) ∈ m'.vars ↔ (key, v) ∈ m.vars := by
  rw [mem_vars_iff (h.regular regular).names_nodup, mem_vars_iff regular.names_nodup,
    relisted_model, h.id, content?_relisted]
  refine and_congr_right fun own => ?_
  rw [h.keyOf_relisted regular.toWellFormed own]
  refine and_congr_right fun _ => ?_
  rcases h.content? v with ⟨none, none'⟩ | ⟨content, content', there, there', relists⟩
  · simp [none, none']
  · have wellFormed := regular.toWellFormed.of_content? there
    rw [there, there', relisted_position own there there']
    cases relists with
    | vars elements => simp [Content.place, elements.get?_place wellFormed]
    | constraints | objectives | parameter | expression | reference | block => simp

theorem mem_constraints : (key, m.relisted m' v) ∈ m'.constraints ↔ (key, v) ∈ m.constraints := by
  rw [mem_constraints_iff (h.regular regular).names_nodup, mem_constraints_iff regular.names_nodup,
    relisted_model, h.id, content?_relisted]
  refine and_congr_right fun own => ?_
  rw [h.keyOf_relisted regular.toWellFormed own]
  refine and_congr_right fun _ => ?_
  rcases h.content? v with ⟨none, none'⟩ | ⟨content, content', there, there', relists⟩
  · simp [none, none']
  · have wellFormed := regular.toWellFormed.of_content? there
    rw [there, there', relisted_position own there there']
    cases relists with
    | @constraints active family family' elements =>
        cases active with
        | true =>
            simp only [Content.place, Option.some.injEq, Content.constraints.injEq, true_and,
              exists_eq_left', elements.get?_place wellFormed]
            cases family.get? v.position <;> rfl
        | false => simp
    | vars | objectives | parameter | expression | reference | block => simp

end Declared

theorem parameter (h : m.Relists m') (v : Handle) : m'.parameter v = m.parameter v := by
  unfold Model.parameter
  rcases h.content? v with ⟨none, none'⟩ | ⟨content, content', there, there', relists⟩
  · simp only [none, none']
  · rw [there, there']
    cases relists <;> rfl

theorem activeObjectives (h : m.Relists m') : m'.activeObjectives =
    m.activeObjectives.map fun e => (e.1, e.2.rename (m.relisted m')) := by
  rw [Model.activeObjectives, Model.activeObjectives, List.map_flatMap]
  refine Decomposition.flatMap_of_forall₂ (h.components.imp fun c c' relists => ?_)
  obtain ⟨named, relists⟩ := relists
  generalize c.content = content at relists
  generalize c'.content = content' at relists
  cases relists with
  | @objectives active family =>
      cases active with
      | true =>
          simp [Family.present_map, List.filter_map, Function.comp_def, Objective.rename, handle, h.id,
            named]
      | false => rfl
  | vars | constraints | parameter | expression | reference | block => rfl

end Model.Relists

end BlockAngular
