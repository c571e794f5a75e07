import BlockAngular.Proofs.Decomposition.VariableMapping

/-! # What images of variables are like

An image is the variable itself with its effective bounds: it has the same domain and the same
value, and is fixed if the variable is. Images are free while constraints are moved, and are
fixed at the end, each by the one entry that its own variable has put on the list.
-/

namespace BlockAngular

open Decomposition

namespace Variable

/-- A variable with its effective bounds for bounds. -/
def bounded? (v : Variable) : Except Fault Variable := do
  return { v with lower := ← v.lowerBound, upper := ← v.upperBound }

@[simp] theorem fixAt_fixAt (v : Variable) (value : Value) :
    (v.fixAt value).fixAt value = v.fixAt value := rfl

end Variable

/-- The attributes of a variable give the variable with its effective bounds, once it is fixed
if it has to be. -/
theorem Attributes.bounded_of_ok {v : Variable} {a : Attributes}
    (h : Attributes.ofVariable? v = .ok a) :
    v.bounded? = .ok (if a.fixed then a.toVariable.fixAt a.fixValue else a.toVariable) := by
  simp only [ofVariable?, Success.bind_ok, Success.pure_ok] at h
  obtain ⟨lower, hlower, upper, hupper, rfl⟩ := h
  simp only [Variable.bounded?, hlower, hupper]
  cases v.fixed <;>
    simp [toVariable, Variable.fixAt, bind, Except.bind, pure, Except.pure]

namespace Model

variable {m : Model}

/-- The image of a variable in the end: the variable with its effective bounds. -/
def boundedVariable (m : Model) (key : Key) : Option Variable :=
  (m.variableOf? (m.preimageOf key)).bind fun v => v.bounded?.toOption

/-- The images of the variables of one name in the end. -/
def boundedContent (m : Model) (name : String) (indices : List (List Value)) : Content :=
  .vars (.tabulate (Value.sortIndices indices) fun row => m.boundedVariable ⟨name, row⟩)

theorem boundedVariable_of_attributes {key : Key} {a : Attributes}
    (taken : m.attributesOf key = some a) : m.boundedVariable key =
      some (if a.fixed then a.toVariable.fixAt a.fixValue else a.toVariable) := by
  obtain ⟨v, there, attributes⟩ := Option.bind_eq_some_iff.mp taken
  simp [boundedVariable, there, Attributes.bounded_of_ok (Success.toOption_eq_some.mp attributes),
    Except.toOption]

/-- What is done to components under their names can be done to the one that is found. -/
theorem find?_map_component {change : Component → Component}
    (named : ∀ c, (change c).name = c.name) (components : List Component) (name : String) :
    (components.map change).find? (fun c => c.name == name) =
      (components.find? fun c => c.name == name).map change := by
  have same : (fun c : Component => c.name == name) ∘ change = fun c => c.name == name :=
    funext fun c => by simp [named]
  rw [List.find?_map, same]

theorem change_component? (name other : String) (f : Content → Content) :
    (m.change name f).component? other = (m.component? other).map fun c =>
      if c.name == name then { c with content := f c.content } else c :=
  find?_map_component (fun c => by split <;> rfl) m.components other

theorem content?_of_mem_contents (names : m.names.Nodup) {name : String} {c : Content}
    (hc : (name, c) ∈ m.contents) {h : Handle} (named : h.component = name) :
    m.content? h = some c := by
  obtain ⟨d, hd, equal⟩ := List.mem_map.mp hc
  cases equal
  have content := content?_of_mem names hd h.position
  rwa [handle, ← named] at content

/-- The variable at a place of a component of variables. -/
def HasVariable (m : Model) (h : Handle) (v : Variable) : Prop :=
  ∃ family, m.content? h = some (.vars family) ∧ family.get? h.position = some v

theorem HasVariable.variableOf? {h : Handle} {v : Variable} (there : m.HasVariable h v) :
    m.variableOf? h = some v := by
  obtain ⟨family, content, here⟩ := there
  simp [Model.variableOf?, content, here]

theorem HasVariable.hasName {h : Handle} {v : Variable} (there : m.HasVariable h v) :
    m.hasName h.component = true := by
  obtain ⟨family, content, -⟩ := there
  obtain ⟨c, found, -⟩ := Option.map_eq_some_iff.mp content
  simp [Model.hasName, found]

/-- Changing a variable changes it and no other. -/
theorem HasVariable.update {h : Handle} {v : Variable} (there : m.HasVariable h v) (other : Handle)
    (f : Variable → Variable) : (m.updateVariable other f).HasVariable h
      (if other.component = h.component ∧ other.position = h.position then f v else v) := by
  obtain ⟨family, content, here⟩ := there
  obtain ⟨c, found, isVars⟩ := Option.map_eq_some_iff.mp content
  have named : c.name = h.component := by
    simpa using List.find?_some (show m.components.find? _ = some c from found)
  unfold updateVariable
  by_cases known : m.hasName other.component = true
  · rw [if_pos known]
    by_cases same : other.component = h.component
    · refine ⟨family.update other.position f, ?_, ?_⟩
      · simp [content?, change_component?, found, named, same, isVars]
      · simp only [Family.get?, Family.update, List.getElem?_modify] at here ⊢
        obtain ⟨⟨index, a⟩, element, rfl⟩ := Option.bind_eq_some_iff.mp here
        by_cases at_ : other.position = h.position <;> simp [element, same, at_]
    · refine ⟨family, ?_, by simpa [same] using here⟩
      simp [content?, change_component?, found, named, Ne.symm same, isVars]
  · rw [if_neg known]
    have same : other.component ≠ h.component := by
      rintro equal
      rw [equal] at known
      exact known (HasVariable.hasName ⟨family, content, here⟩)
    refine ⟨family, ?_, by simpa [same] using here⟩
    rw [content?, component?, find?_map_component fun c => by split <;> rfl,
      show m.components.find? _ = some c from found]
    simp [isVars]

end Model

/-- Fixing variables reaches the listed ones. -/
theorem fixImages_hasVariable {m : Model} {image : Handle} {v : Variable} {value : Value}
    (own : image.model = m.id) (there : m.HasVariable image v) {pending : List (Handle × Value)}
    (only : ∀ e ∈ pending, e.1 = image → e.2 = value) :
    (fixImages pending m).HasVariable image
      (if image ∈ pending.map (·.1) then v.fixAt value else v) := by
  induction pending generalizing m v with
  | nil => simpa [fixImages] using there
  | cons e pending ih =>
      obtain ⟨first, others⟩ := List.forall_mem_cons.mp only
      obtain ⟨h, x⟩ := e
      simp only [fixImages, List.foldl_cons] at ih ⊢
      by_cases equal : h = image
      · subst equal
        obtain rfl : x = value := first rfl
        rw [if_pos own]
        have fixed := there.update h (Variable.fixAt x)
        simp only [and_self, if_true] at fixed
        simpa using ih (by simpa using own) fixed others
      · have apart : (if h.model = m.id then m.updateVariable h (Variable.fixAt x) else m).HasVariable
            image v := by
          split
          · rename_i here
            have different : ¬(h.component = image.component ∧ h.position = image.position) := by
              rintro ⟨component, position⟩
              obtain ⟨_, _, _⟩ := h
              obtain ⟨_, _, _⟩ := image
              exact equal (by simp_all)
            simpa [different] using there.update h (Variable.fixAt x)
          · exact there
        have kept : image.model =
            (if h.model = m.id then m.updateVariable h (Variable.fixAt x) else m).id := by
          split <;> simpa using own
        simp only [List.map_cons, List.mem_cons, Ne.symm equal, false_or]
        exact ih kept apart others

/-- The component with the bounded variables of a model at its indices, if it has variables. -/
def Content.bounded (m : Model) (name : String) : Content → Content
  | .vars family => .vars ⟨family.indexed, family.elements.map fun (index, _) =>
      (index, m.boundedVariable ⟨name, index.toIndex⟩)⟩
  | content => content

theorem Content.bounded_variableContent {m : Model} {name : String} {indices : List (List Value)}
    (rows : Value.AreRows (Value.sortIndices indices)) :
    (m.variableContent name indices).bounded m name = m.boundedContent name indices := by
  simp only [bounded, Model.variableContent, Model.boundedContent, Family.tabulate, List.map_map,
    vars.injEq, Family.mk.injEq, true_and]
  exact List.map_congr_left fun row hr => by simp [(rows.isIndex row hr).2]

theorem eq_map_of_names {l l' : List (String × Content)} {g : String × Content → String × Content}
    (names : l'.map (·.1) = l.map (·.1)) (each : ∀ a ∈ l, ∀ a' ∈ l', a'.1 = a.1 → a' = g a) :
    l' = l.map g := by
  induction l generalizing l' with
  | nil => simpa using names
  | cons a l ih =>
      cases l' with
      | nil => cases names
      | cons a' l' =>
          obtain ⟨named, rest⟩ := List.cons.inj names
          rw [List.map_cons, each a List.mem_cons_self a' List.mem_cons_self named,
            ih rest fun a ha a' ha' => each a (List.mem_cons_of_mem _ ha) a' (List.mem_cons_of_mem _ ha')]

namespace Reformulation

/-- What the target of a block contains in the end. -/
def finalContents (r : Reformulation) (m : Model) (config : Config) (block : Block) :
    List (String × Content) :=
  (r.partition.variablesOf block).map (fun (name, indices) => (name, m.boundedContent name indices)) ++
    constraintContents r.partition r.vars m block ++
      objectiveContents r.objective r.vars config block ++ convexityContents config r.ids block

namespace Trace

variable {first : Nat} {m : Model} {classify : Classify} {config : Config} {r : Reformulation}

/-- What is on the list for an image comes from its own variable. -/
theorem mem_pending (h : r.Trace first m classify config) {b : Block × Nat}
    (hb : b ∈ numbered r.ids) {key : Key} {image : Handle}
    (placed : (key, image) ∈ (r.partition.variablesOf b.1).imagesIn (first + b.2)) (value : Value) :
    (image, value) ∈ r.pending m first ↔ (image, value) ∈ m.fixing image key := by
  have handle_of {image image' : Handle} {key : Key} {value : Value}
      (listed : (image', value) ∈ m.fixing image key) : image' = image := by
    unfold Model.fixing at listed
    split at listed
    · split at listed <;> simp_all
    · simp at listed
  simp only [pending, List.mem_flatMap, pendingOf, Prod.exists]
  constructor
  · rintro ⟨block, number, hb', key', position, place, listed⟩
    obtain rfl := handle_of listed
    obtain ⟨model, -⟩ := Slice.of_mem_imagesIn placed
    obtain rfl : (block, number) = b := List.inj_on_of_nodup_map numbers_nodup hb' hb (by
      simp only at model ⊢
      omega)
    have grouped : (r.partition.variablesOf block).Grouped := by
      rw [h.variablesOf_eq]
      exact Slice.grouped_ofKeys _
    have same := List.inj_on_of_nodup_map (Slice.imagesIn_nodup grouped (first + number))
      (List.mem_map.mpr ⟨(key', position), place, rfl⟩) placed rfl
    simp only [Prod.mk.injEq] at same
    obtain rfl := same.1
    exact listed
  · intro listed
    simp only [Slice.imagesIn, List.mem_map, Prod.exists] at placed
    obtain ⟨_, position, place, equal⟩ := placed
    cases equal
    exact ⟨b.1, b.2, hb, key, position, place, listed⟩

/-- Once everything is fixed, an image is its variable with the effective bounds. -/
theorem fixed_image (h : r.Trace first m classify config) {b : Block × Nat}
    (hb : b ∈ numbered r.ids) {base : Model} (built : Built first b (r.contentsOf m config b.1) base)
    {key : Key} {image : Handle}
    (placed : (key, image) ∈ (r.partition.variablesOf b.1).imagesIn (first + b.2)) :
    ∃ w, m.boundedVariable key = some w ∧
      (fixImages (r.pending m first) base).HasVariable image w := by
  obtain ⟨indices, listed, row, shape⟩ := Slice.row_of_mem_imagesIn placed
  obtain ⟨a, taken⟩ := Option.ne_none_iff_exists'.mp
    (h.attributes b hb key (Slice.mem_keys_of_mem_imagesIn placed))
  -- before anything is fixed, the image has the attributes at its place
  have component : (key.name, m.variableContent key.name indices) ∈ base.contents := by
    rw [built.contents]
    refine List.mem_append_left _ (List.mem_append_left _ ?_)
    exact List.mem_map.mpr ⟨(key.name, indices), listed, rfl⟩
  have before : base.HasVariable image a.toVariable := by
    refine ⟨_, Model.content?_of_mem_contents built.names_nodup component
      (Slice.of_mem_imagesIn placed).2, ?_⟩
    simp [Family.get?, Family.tabulate, row, Model.imageVariable, taken]
  have entries : m.fixing image key = if a.fixed then [(image, a.fixValue)] else [] := by
    simp [Model.fixing, taken]
  have only : ∀ e ∈ r.pending m first, e.1 = image → e.2 = a.fixValue := by
    rintro ⟨_, value⟩ he rfl
    have listed := (h.mem_pending hb placed value).mp he
    rw [entries] at listed
    split at listed
    · exact congrArg Prod.snd (List.mem_singleton.mp listed)
    · cases listed
  have some_entry : image ∈ (r.pending m first).map (·.1) ↔ a.fixed = true := by
    simp only [List.mem_map, Prod.exists, exists_and_right, exists_eq_right,
      h.mem_pending hb placed, entries]
    cases a.fixed <;> simp
  have fixed := fixImages_hasVariable (by rw [shape, built.id]) before only
  simp only [some_entry] at fixed
  exact ⟨_, Model.boundedVariable_of_attributes taken, fixed⟩

/-- The images of the variables of one name, once everything is fixed. -/
theorem fixed_family (h : r.Trace first m classify config) {b : Block × Nat}
    (hb : b ∈ numbered r.ids) {base : Model} (built : Built first b (r.contentsOf m config b.1) base)
    {name : String} {indices : List (List Value)}
    (listed : (name, indices) ∈ r.partition.variablesOf b.1) {family : Family Variable}
    (here : (fixImages (r.pending m first) base).content? (base.handle name 0) = some (.vars family))
    (outlined : (Content.vars family).outline = (m.variableContent name indices).outline) :
    Content.vars family = m.boundedContent name indices := by
  obtain ⟨indexed, elements⟩ := family
  simp only [Content.outline, Model.variableContent, Family.map, Family.tabulate, List.map_map,
    Content.vars.injEq, Family.mk.injEq] at outlined
  obtain ⟨rfl, alike⟩ := outlined
  refine congrArg Content.vars (congrArg (Family.mk _) (List.ext_getElem? fun position => ?_))
  have at_position := congrArg (·[position]?) alike
  simp only [List.getElem?_map] at at_position ⊢
  cases row : (Value.sortIndices indices)[position]? with
  | none => simpa [row] using at_position
  | some own =>
      have placed : (⟨name, own⟩, ⟨first + b.2, name, position⟩) ∈
          (r.partition.variablesOf b.1).imagesIn (first + b.2) :=
        List.mem_map.mpr ⟨(⟨name, own⟩, position), Slice.mem_places_iff.mpr ⟨indices, listed, row⟩, rfl⟩
      obtain ⟨w, bounded, family, content, there⟩ := h.fixed_image hb built placed
      obtain rfl : family = ⟨!isScalarIndex (Value.sortIndices indices), elements⟩ := by
        have same := content.symm.trans here
        simpa using same
      obtain ⟨⟨index, a⟩, element, rfl⟩ := Option.bind_eq_some_iff.mp there
      simp only [element, row, Option.map_some, Function.comp, Option.some.injEq,
        Prod.mk.injEq] at at_position ⊢
      exact ⟨at_position.1, bounded.symm⟩

/-- A component of a base and the one of its name after everything is fixed. -/
theorem fixed_content (h : r.Trace first m classify config) (wf : m.WellFormed) {b : Block × Nat}
    (hb : b ∈ numbered r.ids) {base : Model} (built : Built first b (r.contentsOf m config b.1) base)
    {name : String} {c c' : Content} (hc : (name, c) ∈ base.contents)
    (hc' : (name, c') ∈ (fixImages (r.pending m first) base).contents) :
    c' = c.bounded m name := by
  have names := built.names_nodup
  have outlined : c'.outline = c.outline := by
    have listed : (name, c'.outline) ∈ (fixImages (r.pending m first) base).outline :=
      List.mem_map.mpr ⟨_, hc', rfl⟩
    rw [fixImages_outline] at listed
    obtain ⟨d, hd, equal⟩ := List.mem_map.mp listed
    simp only [Prod.mk.injEq] at equal
    rw [← Model.contents_names] at names
    obtain rfl := List.inj_on_of_nodup_map names hd hc equal.1
    exact equal.2.symm
  have parts := hc
  rw [built.contents, Reformulation.contentsOf, List.append_assoc, List.mem_append] at parts
  rcases parts with ofVariables | others
  · obtain ⟨⟨_, indices⟩, listed, equal⟩ := List.mem_map.mp ofVariables
    cases equal
    have sound := Partition.variablesOf_sound h.assigned h.sound b.1
    rw [← h.partition_eq] at sound
    rw [Content.bounded_variableContent (sound.rows wf listed)]
    cases c' with
    | vars family =>
        refine h.fixed_family hb built listed (Model.content?_of_mem_contents ?_ hc' rfl) outlined
        rwa [← Model.outline_names, fixImages_outline, Model.outline_names]
    | constraints | objectives | parameter | expression | reference | block =>
        simp [Content.outline, Model.variableContent] at outlined
  · -- constraints and objectives are their own outlines
    rcases List.mem_append.mp others with ofConstraints | ofObjective
    · obtain ⟨_, -, equal⟩ := List.mem_map.mp ofConstraints
      cases equal
      cases c' <;> simp_all [Content.outline, Content.bounded, constraintContent]
    · unfold objectiveContents at ofObjective
      split at ofObjective
      · cases ofObjective
      · split at ofObjective
        · cases List.mem_singleton.mp ofObjective
          cases c' <;> simp_all [Content.outline, Content.bounded]
        · cases ofObjective

theorem fixed_contents (h : r.Trace first m classify config) (wf : m.WellFormed) {b : Block × Nat}
    (hb : b ∈ numbered r.ids) {base : Model} (built : Built first b (r.contentsOf m config b.1) base) :
    (fixImages (r.pending m first) base).contents =
      base.contents.map fun (name, c) => (name, c.bounded m name) := by
  refine eq_map_of_names ?_ fun (name, c) hc (name', c') hc' named => ?_
  · rw [Model.contents_names, Model.contents_names, ← Model.outline_names, fixImages_outline,
      Model.outline_names]
  · obtain rfl : name' = name := named
    rw [h.fixed_content wf hb built hc hc']

/-- The model of a block has the images of its variables, then those of its constraints, then its
part of the objective, and in the master the convexity constraints. -/
theorem targets_built (h : r.Trace first m classify config) (wf : m.WellFormed) :
    List.Forall₂ (fun b t => t.1 = b.1 ∧ Built first b (r.finalContents m config b.1) t.2)
      (numbered r.ids) r.targets := by
  refine (((List.forall₂_and_left _ _).mpr ⟨fun _ hb => hb, h.targets⟩)).imp
    fun b t ⟨hb, named, base, built, finished⟩ => ⟨named, ?_⟩
  have sound := Partition.variablesOf_sound h.assigned h.sound b.1
  rw [← h.partition_eq] at sound
  have contents : (fixImages (r.pending m first) base).contents =
      (r.partition.variablesOf b.1).map (fun (name, indices) => (name, m.boundedContent name indices)) ++
        constraintContents r.partition r.vars m b.1 ++
          objectiveContents r.objective r.vars config b.1 := by
    rw [h.fixed_contents wf hb built, built.contents, Reformulation.contentsOf, List.map_append,
      List.map_append]
    refine congrArg₂ _ (congrArg₂ _ ?_ ?_) ?_
    · rw [variableContents, List.map_map]
      exact List.map_congr_left fun entry he =>
        congrArg (Prod.mk entry.1) (Content.bounded_variableContent (sound.rows wf he))
    · rw [constraintContents, List.map_map]
      rfl
    · unfold objectiveContents
      split
      · rfl
      · split <;> rfl
  have names := fixImages_names (r.pending m first) base
  have nodup := names ▸ built.names_nodup
  obtain ⟨block, number⟩ := b
  obtain ⟨_, target⟩ := t
  cases block with
  | subproblem id =>
      obtain rfl : target = _ := finished
      exact ⟨(fixImages_id _ _).trans built.id, (fixImages_name _ _).trans built.name, nodup,
        by simp [contents, finalContents, convexityContents]⟩
  | master =>
      obtain ⟨lowerName, upperName, lowerNamed, upperNamed, different, lowerFresh, upperFresh,
        rfl⟩ := finished
      exact ⟨(fixImages_id _ _).trans built.id, (fixImages_name _ _).trans built.name,
        Convexity.extended_names_nodup lowerFresh upperFresh different nodup,
        by simp [contents, finalContents, convexityContents, Convexity.extended, lowerNamed,
          upperNamed]⟩

/-- A declared variable has an image in the model of its block, which is the variable with its
effective bounds. -/
theorem image_of_declared (h : r.Trace first m classify config) (wf : m.WellFormed) {key : Key}
    {handle : Handle} (hv : (key, handle) ∈ m.vars) : ∃ block target image v w,
      r.vars.image? handle = some image ∧ r.vars.imageOwner? image = some block ∧
        (block, target) ∈ r.targets ∧ m.variableOf? handle = some v ∧ v.bounded? = .ok w ∧
          target.variableOf? image = some w := by
  have listed : key ∈ r.assignment.vars.map (·.1) := by
    rw [(Model.assignment_keys h.assigned).1]
    exact List.mem_map_of_mem (f := (·.1)) hv
  obtain ⟨⟨key, own⟩, he, rfl⟩ := List.mem_map.mp listed
  obtain ⟨b, hb, -, image, placed⟩ := h.vars_covers.exists_image he
  obtain ⟨⟨_, target⟩, ht, rfl, built⟩ := (exists_of_forall₂ (h.targets_built wf)).1 b hb
  have own_slice := placed
  rw [← h.variablesOf_eq] at own_slice
  obtain ⟨indices, listed, row, -⟩ := Slice.row_of_mem_imagesIn own_slice
  obtain ⟨a, taken⟩ := Option.ne_none_iff_exists'.mp
    (h.attributes b hb key (Slice.mem_keys_of_mem_imagesIn own_slice))
  have bounded := Model.boundedVariable_of_attributes taken
  obtain ⟨v, there, attributes⟩ := Option.bind_eq_some_iff.mp bounded
  have component : (key.name, m.boundedContent key.name indices) ∈ target.contents := by
    rw [built.contents, finalContents, List.append_assoc, List.append_assoc]
    exact List.mem_append_left _ (List.mem_map.mpr ⟨(key.name, indices), listed, rfl⟩)
  rw [← Model.preimageOf_of_mem_vars wf hv]
  refine ⟨b.1, target, image, v, _, h.vars_covers.image?_eq hb placed,
    h.vars_covers.imageOwner?_eq hb placed, ht, there, Success.toOption_eq_some.mp attributes,
    Model.HasVariable.variableOf? ⟨_, Model.content?_of_mem_contents built.names_nodup component
      (Slice.of_mem_imagesIn placed).2, ?_⟩⟩
  simp [Family.get?, Family.tabulate, row, bounded]

end Trace

end Reformulation

end BlockAngular
