import BlockAngular.Decomposition.Images
import BlockAngular.Proofs.Model.Declare

/-! # Outlines of models

The outline of a model forgets what its variables are like and keeps everything else.
Which elements a model has, under which keys, and what its constraints and objectives say,
can be read off the outline; fixing variables does not change it.
-/

namespace BlockAngular

namespace Content

/-- A component with all its variables alike. -/
def outline : Content → Content
  | .vars family => .vars (family.map fun _ => Variable.free)
  | .block members => .block (members.map fun (name, _) => (name, Variable.free))
  | content => content

/-- The keys and handles of the variables of a component. -/
def columns (id : Nat) (name : String) : Content → List (Key × Handle)
  | .vars family => family.present.map fun (index, position, _) =>
      (⟨name, index.toIndex⟩, ⟨id, name, position⟩)
  | _ => []

/-- The keys and handles of the constraints of a component. -/
def rows (id : Nat) (name : String) : Content → List (Key × Handle)
  | .constraints _ family => family.present.map fun (index, position, _) =>
      (⟨name, index.toIndex⟩, ⟨id, name, position⟩)
  | _ => []

/-- The active objectives of a component. -/
def goals (id : Nat) (name : String) : Content → List (Handle × Objective)
  | .objectives true family => (family.present.filter fun (_, _, o) => o.active).map
      fun (_, position, o) => (⟨id, name, position⟩, o)
  | _ => []

/-- The constraint at a position of a component. -/
def constraintAt? (position : Nat) : Content → Option Constraint
  | .constraints _ family => family.get? position
  | _ => none

end Content

namespace Family

variable {α β : Type}

theorem present_map (f : Family α) (change : α → β) :
    (f.map change).present = f.present.map fun (index, position, a) =>
      (index, position, change a) := by
  simp only [present, map, List.zipIdx_map, List.filterMap_map, List.map_filterMap]
  refine List.filterMap_congr fun element _ => ?_
  obtain ⟨⟨index, a⟩, position⟩ := element
  cases a <;> rfl

/-- A change of an element cannot be seen where all elements look alike. -/
@[simp] theorem map_update_const (f : Family α) (position : Nat) (change : α → α) (b : β) :
    (f.update position change).map (fun _ => b) = f.map fun _ => b := by
  simp only [map, update, mk.injEq, true_and]
  refine List.ext_getElem? fun i => ?_
  simp only [List.getElem?_map, List.getElem?_modify]
  cases f.elements[i]? with
  | none => rfl
  | some element =>
      obtain ⟨index, a⟩ := element
      split <;> cases a <;> simp

end Family

namespace Content

@[simp] theorem outline_columns (id : Nat) (name : String) (c : Content) :
    c.outline.columns id name = c.columns id name := by
  cases c with
  | vars family => simp [outline, columns, Family.present_map, Function.comp_def]
  | constraints | objectives | parameter | expression | reference | block => rfl

@[simp] theorem outline_rows (id : Nat) (name : String) (c : Content) :
    c.outline.rows id name = c.rows id name := by
  cases c <;> rfl

@[simp] theorem outline_goals (id : Nat) (name : String) (c : Content) :
    c.outline.goals id name = c.goals id name := by
  cases c <;> rfl

@[simp] theorem outline_constraintAt? (position : Nat) (c : Content) :
    c.outline.constraintAt? position = c.constraintAt? position := by
  cases c <;> rfl

@[simp] theorem outline_entries (c : Content) : c.outline.entries = c.entries := by
  cases c <;> simp [outline, entries, Family.map, Function.comp_def]

@[simp] theorem outline_isIndexed (c : Content) :
    Model.isIndexed c.outline = Model.isIndexed c := by
  cases c <;> rfl

theorem outline_wellFormed {c : Content} : c.outline.WellFormed ↔ c.WellFormed := by
  cases c with
  | vars family =>
      have indices : (family.map fun _ => Variable.free).elements.map (·.1) =
          family.elements.map (·.1) := by
        simp [Family.map, Function.comp_def]
      exact ⟨fun wf => Family.WellFormed.of_indices wf rfl indices.symm,
        fun wf => Family.WellFormed.of_indices wf rfl indices⟩
  | constraints | objectives | parameter | expression | reference | block => rfl

end Content

namespace Model

/-- The components of a model with all variables alike. -/
def outline (m : Model) : List (String × Content) :=
  m.contents.map fun (name, content) => (name, content.outline)

variable {m : Model}

theorem vars_eq (m : Model) :
    m.vars = m.outline.flatMap fun (name, content) => content.columns m.id name := by
  simp only [outline, contents, List.map_map, List.flatMap_map, vars]
  refine List.flatMap_congr fun c _ => ?_
  simp only [Function.comp, Content.outline_columns]
  cases c.content <;> rfl

theorem allConstraints_eq (m : Model) :
    m.allConstraints = m.outline.flatMap fun (name, content) => content.rows m.id name := by
  simp only [outline, contents, List.map_map, List.flatMap_map, allConstraints]
  refine List.flatMap_congr fun c _ => ?_
  simp only [Function.comp, Content.outline_rows]
  cases c.content <;> rfl

theorem activeObjectives_eq (m : Model) :
    m.activeObjectives = m.outline.flatMap fun c => c.2.goals m.id c.1 := by
  simp only [outline, contents, List.map_map, List.flatMap_map, activeObjectives]
  refine List.flatMap_congr fun c _ => ?_
  simp only [Function.comp, Content.outline_goals]
  cases c.content with
  | objectives active family => cases active <;> rfl
  | vars | constraints | parameter | expression | reference | block => rfl

theorem outline_names (m : Model) : m.outline.map (·.1) = m.names := by
  simp [outline, contents, names, Function.comp_def]

/-- The constraint of a component, read off the outline. -/
theorem constraintOf?_of_mem (nodup : m.names.Nodup) {name : String} {content : Content}
    (h : (name, content) ∈ m.outline) (position : Nat) :
    m.constraintOf? (m.handle name position) = content.constraintAt? position := by
  simp only [outline, contents, List.map_map, List.mem_map, Function.comp, Prod.mk.injEq] at h
  obtain ⟨c, hc, rfl, rfl⟩ := h
  simp only [constraintOf?, content?_of_mem nodup hc, Content.outline_constraintAt?]
  cases c.content <;> rfl

/-- A key that leads to an element, read off the outline. -/
theorem element_of_mem (nodup : m.names.Nodup) {name : String} {content : Content}
    (h : (name, content) ∈ m.outline) (wf : content.WellFormed) {index : Value} {position : Nat}
    (entry : content.entries[position]? = some (index, true)) :
    m.element name index.toIndex = .ok (m.handle name position) ∧
      (m.component? name).map (isIndexed ·.content) = some (isIndexed content) := by
  simp only [outline, contents, List.map_map, List.mem_map, Function.comp, Prod.mk.injEq] at h
  obtain ⟨c, hc, rfl, rfl⟩ := h
  rw [Content.outline_entries] at entry
  have there : m.HasElement c index position := ⟨hc, entry⟩
  exact ⟨there.element nodup (Content.outline_wellFormed.mp wf),
    by simp [component?_of_mem nodup hc]⟩

@[simp] theorem updateVariable_outline (m : Model) (h : Handle) (f : Variable → Variable) :
    (m.updateVariable h f).outline = m.outline := by
  simp only [updateVariable]
  split
  · simp only [change, outline, contents, List.map_map]
    refine List.map_congr_left fun c _ => ?_
    simp only [Function.comp]
    split
    · cases c.content with
      | vars family => simp [Content.outline]
      | constraints | objectives | parameter | expression | reference | block => rfl
    · rfl
  · simp only [outline, contents, List.map_map]
    refine List.map_congr_left fun c _ => ?_
    simp only [Function.comp]
    cases content : c.content <;> simp [Content.outline, content, Function.comp_def]

@[simp] theorem updateVariable_id (m : Model) (h : Handle) (f : Variable → Variable) :
    (m.updateVariable h f).id = m.id := by
  simp only [updateVariable]
  split <;> rfl

end Model

theorem fixImages_id (pending : List (Handle × Value)) (m : Model) :
    (fixImages pending m).id = m.id := by
  induction pending generalizing m with
  | nil => rfl
  | cons entry pending ih =>
      simp only [fixImages, List.foldl_cons] at ih ⊢
      rw [ih]
      split <;> simp

@[simp] theorem Model.updateVariable_name (m : Model) (h : Handle) (f : Variable → Variable) :
    (m.updateVariable h f).name = m.name := by
  simp only [updateVariable]
  split <;> rfl

theorem fixImages_name (pending : List (Handle × Value)) (m : Model) :
    (fixImages pending m).name = m.name := by
  induction pending generalizing m with
  | nil => rfl
  | cons entry pending ih =>
      simp only [fixImages, List.foldl_cons] at ih ⊢
      rw [ih]
      split <;> simp

/-- Fixing variables does not change the outline. -/
theorem fixImages_outline (pending : List (Handle × Value)) (m : Model) :
    (fixImages pending m).outline = m.outline := by
  induction pending generalizing m with
  | nil => rfl
  | cons entry pending ih =>
      simp only [fixImages, List.foldl_cons] at ih ⊢
      rw [ih]
      split <;> simp

theorem fixImages_names (pending : List (Handle × Value)) (m : Model) :
    (fixImages pending m).names = m.names := by
  rw [← Model.outline_names, fixImages_outline, Model.outline_names]

end BlockAngular
