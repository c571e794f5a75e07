import BlockAngular.Model.Access
import BlockAngular.Proofs.Partition
import BlockAngular.Proofs.Success

/-! # Well-formed models

The names of the components of a model differ, and so do the indices of a component. The
index of an element without one is absent, and an index of several items has no tuples
among them. Under these conditions the key of an element leads back to the element.
-/

namespace BlockAngular

namespace Value

/-- An index as components keep it: absent, a single item, or a tuple of several. -/
structure IsIndex (v : Value) : Prop where
  ofIndex_toIndex : ofIndex v.toIndex = v
  flat : flatIndex v.toIndex = v.toIndex

theorem isIndex_null : IsIndex .null :=
  ⟨rfl, rfl⟩

theorem isKey_null : IsKey .null :=
  ⟨rfl, by simp [same]⟩

theorem isKey_int (n : Int) : IsKey (.int n) :=
  ⟨rfl, by simp [same, sameNumber, number?, real?, Exact.same]⟩

theorem toIndex_areKey {v : Value} (h : v.IsKey) : AreKey v.toIndex := by
  obtain ⟨hashable, same_self⟩ := h
  cases v with
  | null => exact areKey_nil
  | tuple items =>
      rw [Value.hashable] at hashable
      rw [same] at same_self
      exact ⟨hashable, same_self⟩
  | list items | table entries | record fields => simp [Value.hashable] at hashable
  | dots | bool b | int n | float x | nan mark | complex re im | str s | bytes data =>
      exact ⟨by simp [toIndex, allHashable, Value.hashable], by simp [toIndex, sameItems, same_self]⟩

theorem same_ofIndex {as bs : List Value} (h : sameItems as bs = true) :
    (ofIndex as).same (ofIndex bs) = true := by
  match as, bs with
  | [], [] => simp [ofIndex, same]
  | [a], [b] => simpa [ofIndex, sameItems] using h
  | a :: a' :: as, b :: b' :: bs => simpa [ofIndex, same] using h
  | [], _ :: _ | _ :: _, [] => simp [sameItems] at h
  | [a], b :: b' :: bs | a :: a' :: as, [b] => simp [sameItems] at h

/-- Indices that are got back from their items are the same if their items are. -/
theorem same_of_sameItems {a b : Value} (ha : ofIndex a.toIndex = a) (hb : ofIndex b.toIndex = b)
    (h : sameItems a.toIndex b.toIndex = true) : a.same b = true := by
  simpa only [ha, hb] using same_ofIndex h

end Value

namespace Family

variable {α : Type}

/-- A family as declarations make it. -/
structure WellFormed (f : Family α) : Prop where
  sole : f.indexed = false → ∃ a, f.elements = [(.null, a)]
  distinct : Value.Distinct (f.elements.map (·.1))
  indices : ∀ element ∈ f.elements, element.1.IsIndex

/-- A family whose elements are told apart by the items of their indices, and whose indices are
got back from these. -/
structure Faithful (f : Family α) : Prop where
  sole : f.indexed = false → ∃ a, f.elements = [(.null, a)]
  distinct : Value.Distinct (f.elements.map (·.1))
  restored : ∀ element ∈ f.elements, Value.ofIndex element.1.toIndex = element.1

theorem WellFormed.faithful {f : Family α} (wf : f.WellFormed) : f.Faithful :=
  ⟨wf.sole, wf.distinct, fun element he => (wf.indices element he).ofIndex_toIndex⟩

/-- Only the indices matter. -/
theorem WellFormed.of_indices {β : Type} {f : Family α} {g : Family β} (wf : f.WellFormed)
    (indexed : g.indexed = f.indexed) (indices : g.elements.map (·.1) = f.elements.map (·.1)) :
    g.WellFormed where
  sole scalar := by
    obtain ⟨a, alone⟩ := wf.sole (indexed ▸ scalar)
    rw [alone, List.map_singleton, List.map_eq_singleton_iff] at indices
    obtain ⟨⟨index, b⟩, alone', rfl⟩ := indices
    exact ⟨b, alone'⟩
  distinct := indices ▸ wf.distinct
  indices element he := by
    have listed : element.1 ∈ g.elements.map (·.1) := List.mem_map_of_mem he
    rw [indices] at listed
    obtain ⟨own, hown, equal⟩ := List.mem_map.mp listed
    exact equal ▸ wf.indices own hown

theorem mem_present {f : Family α} {index : Value} {position : Nat} {a : α} :
    (index, position, a) ∈ f.present ↔ f.elements[position]? = some (index, some a) := by
  simp only [present, List.mem_filterMap, List.mem_zipIdx_iff_getElem?, Prod.exists,
    Option.map_eq_some_iff]
  constructor
  · rintro ⟨index', b, position', he, a', rfl, equal⟩
    cases equal
    exact he
  · intro he
    exact ⟨index, some a, position, he, a, rfl, rfl⟩

/-- The elements that are there come in the order of their positions. -/
theorem present_positions_ascend (f : Family α) :
    (f.present.map (·.2.1)).Pairwise (· < ·) := by
  have sub : (f.present.map (·.2.1)).Sublist (f.elements.zipIdx.map (·.2)) := by
    unfold present
    generalize f.elements.zipIdx = elements
    induction elements with
    | nil => exact .slnil
    | cons element rest ih =>
        obtain ⟨⟨index, a⟩, position⟩ := element
        cases a with
        | none => simpa using ih.cons position
        | some a => simpa using ih
  rw [List.zipIdx_map_snd] at sub
  exact List.Pairwise.sublist sub (List.pairwise_lt_range' ..)

theorem present_positions_nodup (f : Family α) : (f.present.map (·.2.1)).Nodup :=
  f.present_positions_ascend.imp ne_of_lt

theorem find?_of_getElem? {f : Family α} (distinct : Value.Distinct (f.elements.map (·.1)))
    {index : Value} {position : Nat} {a : Option α}
    (h : f.elements[position]? = some (index, a)) : f.find? index = some position := by
  obtain ⟨within, here⟩ := List.getElem?_eq_some_iff.mp h
  have hkey := distinct.keys index (List.mem_map_of_mem (f := (·.1)) (List.mem_of_getElem? h))
  refine List.findIdx?_eq_some_iff_getElem.mpr ⟨within, by simpa [here] using hkey.same_self, ?_⟩
  intro earlier before
  have different := List.pairwise_iff_getElem.mp distinct.pairwise earlier position
    (by simp; omega) (by simp; omega) before
  simpa [here] using different

end Family

namespace Family

/-- A family without indices is well-formed. -/
theorem optional_wellFormed {α : Type} (a : Option α) : (optional a).WellFormed where
  sole _ := ⟨a, rfl⟩
  distinct := ⟨by simp [optional, Value.isKey_null], by simp [optional]⟩
  indices := by simp [optional, Value.isIndex_null]

end Family

/-- A constraint whose sides have no variables. -/
structure Constraint.HasPlainSides (c : Constraint) : Prop where
  lower : ∀ e ∈ c.lower, e.hasVariables = false
  upper : ∀ e ∈ c.upper, e.hasVariables = false

namespace Content

/-- The indices of a component, each with whether its element is there. -/
def entries : Content → List (Value × Bool)
  | .vars family => family.elements.map fun (index, a) => (index, a.isSome)
  | .constraints _ family => family.elements.map fun (index, a) => (index, a.isSome)
  | .objectives _ family => family.elements.map fun (index, a) => (index, a.isSome)
  | _ => []

/-- A component whose elements are a well-formed family, if it has elements. -/
def WellFormed : Content → Prop
  | .vars family => family.WellFormed
  | .constraints _ family => family.WellFormed
  | .objectives _ family => family.WellFormed
  | _ => True

/-- A component whose elements are a faithful family, if it has elements. -/
def Faithful : Content → Prop
  | .vars family => family.Faithful
  | .constraints _ family => family.Faithful
  | .objectives _ family => family.Faithful
  | _ => True

theorem WellFormed.faithful {content : Content} (wf : content.WellFormed) : content.Faithful := by
  cases content with
  | vars | constraints | objectives => exact Family.WellFormed.faithful wf
  | parameter | expression | reference | block => trivial

/-- A component whose constraints, if it has any, have plain sides. -/
def HasPlainSides : Content → Prop
  | .constraints _ family => ∀ element ∈ family.elements, ∀ c ∈ element.2, c.HasPlainSides
  | _ => True

end Content

namespace Family

variable {α : Type} {f : Family α} {position : Nat} {index : Value} {present : Bool}

theorem Faithful.position? (faithful : f.Faithful)
    (h : (f.elements.map fun (index, a) => (index, a.isSome))[position]? = some (index, present)) :
    f.position? index.toIndex = .ok position ∧ (f.indexed = false → position = 0) := by
  simp only [List.getElem?_map, Option.map_eq_some_iff, Prod.exists, Prod.mk.injEq] at h
  obtain ⟨own, a, here, rfl, -⟩ := h
  have listed := List.mem_of_getElem? here
  unfold Family.position?
  cases indexed : f.indexed with
  | false =>
      obtain ⟨b, alone⟩ := faithful.sole indexed
      have within := (List.getElem?_eq_some_iff.mp here).1
      simp only [alone, List.length_singleton] at within
      simp
      omega
  | true =>
      have hashable : Value.allHashable own.toIndex = true := (Value.toIndex_areKey
        (faithful.distinct.keys own (List.mem_map_of_mem (f := (·.1)) listed))).hashable
      have found : f.find? (Value.ofIndex own.toIndex) = some position := by
        rw [faithful.restored _ listed]
        exact find?_of_getElem? faithful.distinct here
      simp [hashable, found]

end Family

namespace Model

/-- A model as declarations make it. -/
structure WellFormed (m : Model) : Prop where
  names_nodup : (m.components.map (·.name)).Nodup
  contents : ∀ c ∈ m.components, c.content.WellFormed
  sides : ∀ c ∈ m.components, c.content.HasPlainSides

/-- A model whose elements are told apart by their keys. -/
structure Faithful (m : Model) : Prop where
  names_nodup : (m.components.map (·.name)).Nodup
  contents : ∀ c ∈ m.components, c.content.Faithful

theorem WellFormed.faithful {m : Model} (wf : m.WellFormed) : m.Faithful :=
  ⟨wf.names_nodup, fun c hc => (wf.contents c hc).faithful⟩

/-- The element of a component at a position, which is there. -/
structure HasElement (m : Model) (c : Component) (index : Value) (position : Nat) : Prop where
  component : c ∈ m.components
  entry : c.content.entries[position]? = some (index, true)

theorem component?_of_mem {m : Model} (names : (m.components.map (·.name)).Nodup) {c : Component}
    (hc : c ∈ m.components) : m.component? c.name = some c := by
  obtain ⟨id, name, cs⟩ := m
  simp only [component?] at names hc ⊢
  induction cs with
  | nil => simp at hc
  | cons first rest ih =>
      simp only [List.map_cons, List.nodup_cons] at names
      rcases List.mem_cons.mp hc with rfl | hc'
      · simp
      · have other : first.name ≠ c.name := fun equal =>
          names.1 (equal ▸ List.mem_map_of_mem hc')
        simp only [List.find?_cons, beq_eq_false_iff_ne.mpr other]
        exact ih names.2 hc'

theorem component_unique {m : Model} (names : (m.components.map (·.name)).Nodup)
    {c d : Component} (hc : c ∈ m.components) (hd : d ∈ m.components) (named : c.name = d.name) :
    c = d := by
  have := component?_of_mem names hc
  rw [named, component?_of_mem names hd] at this
  exact (Option.some.inj this).symm

theorem content?_of_mem {m : Model} (names : (m.components.map (·.name)).Nodup) {c : Component}
    (hc : c ∈ m.components) (position : Nat) :
    m.content? (m.handle c.name position) = some c.content := by
  simp [content?, handle, component?_of_mem names hc]

/-- The constraints of a well-formed model have plain sides. -/
theorem WellFormed.plainSides {m : Model} (wf : m.WellFormed) {h : Handle} {c : Constraint}
    (there : m.constraintOf? h = some c) : c.HasPlainSides := by
  simp only [constraintOf?, content?, component?] at there
  split at there
  · rename_i active family found
    obtain ⟨component, listed, content⟩ := Option.map_eq_some_iff.mp found
    have plain := wf.sides component (List.mem_of_find?_eq_some listed)
    simp only [content, Content.HasPlainSides] at plain
    obtain ⟨element, here, present⟩ := Option.bind_eq_some_iff.mp there
    exact plain element (List.mem_of_getElem? here) c present
  · cases there

/-- The elements of a kind, and the components that they belong to. -/
theorem mem_vars {m : Model} {key : Key} {h : Handle} :
    (key, h) ∈ m.vars ↔ ∃ c ∈ m.components, ∃ family, c.content = .vars family ∧
      ∃ index position v, family.elements[position]? = some (index, some v) ∧
        key = ⟨c.name, index.toIndex⟩ ∧ h = m.handle c.name position := by
  simp only [vars, List.mem_flatMap]
  refine exists_congr fun c => and_congr_right fun _ => ?_
  split
  · rename_i family content
    simp only [keyed, List.mem_map, Prod.exists, Family.mem_present, content, Content.vars.injEq,
      exists_eq_left', Prod.mk.injEq]
    grind
  · rename_i other
    simp only [List.not_mem_nil, false_iff]
    rintro ⟨family, content, -⟩
    exact other family content

theorem mem_constraints {m : Model} {key : Key} {h : Handle} :
    (key, h) ∈ m.constraints ↔ ∃ c ∈ m.components, ∃ family, c.content = .constraints true family ∧
      ∃ index position row, family.elements[position]? = some (index, some row) ∧
        row.active = true ∧ key = ⟨c.name, index.toIndex⟩ ∧ h = m.handle c.name position := by
  simp only [constraints, List.mem_flatMap]
  refine exists_congr fun c => and_congr_right fun _ => ?_
  split
  · rename_i family content
    simp only [List.mem_map, List.mem_filter, Prod.exists, Family.mem_present, content,
      Content.constraints.injEq, true_and, exists_eq_left', Prod.mk.injEq]
    grind
  · rename_i other
    simp only [List.not_mem_nil, false_iff]
    rintro ⟨family, content, -⟩
    exact other family content

theorem hasElement_of_mem_vars {m : Model} {key : Key} {h : Handle} (hk : (key, h) ∈ m.vars) :
    ∃ c index position, m.HasElement c index position ∧ key = ⟨c.name, index.toIndex⟩ ∧
      h = m.handle c.name position := by
  obtain ⟨c, hc, family, content, index, position, v, here, rfl, rfl⟩ := mem_vars.mp hk
  exact ⟨c, index, position, ⟨hc, by simp [content, Content.entries, here]⟩, rfl, rfl⟩

theorem hasElement_of_mem_constraints {m : Model} {key : Key} {h : Handle}
    (hk : (key, h) ∈ m.constraints) :
    ∃ c index position, m.HasElement c index position ∧ key = ⟨c.name, index.toIndex⟩ ∧
      h = m.handle c.name position := by
  obtain ⟨c, hc, family, content, index, position, row, here, -, rfl, rfl⟩ := mem_constraints.mp hk
  exact ⟨c, index, position, ⟨hc, by simp [content, Content.entries, here]⟩, rfl, rfl⟩

namespace HasElement

variable {m : Model} {c : Component} {index : Value} {position : Nat}

/-- An element is found by the name of its component and its index. -/
theorem found (h : m.HasElement c index position) (names : (m.components.map (·.name)).Nodup)
    (faithful : c.content.Faithful) :
    m.element c.name index.toIndex = .ok (m.handle c.name position) := by
  obtain ⟨hc, entry⟩ := h
  simp only [Model.element, component?_of_mem names hc]
  cases content : c.content <;> rw [content] at faithful entry <;>
    simp only [Content.entries, List.getElem?_nil, reduceCtorEq] at entry
  all_goals
    obtain ⟨found, sole⟩ := Family.Faithful.position? faithful entry
    split
    · rename_i indexed
      simp only [isIndexed] at indexed
      simp [item, behind, content, isIndexed, indexed, positionIn, found, Except.map,
        Except.mapError]
    · rename_i scalar
      simp only [isIndexed, Bool.not_eq_true] at scalar
      rw [sole scalar]

theorem element (h : m.HasElement c index position) (names : (m.components.map (·.name)).Nodup)
    (wf : c.content.WellFormed) :
    m.element c.name index.toIndex = .ok (m.handle c.name position) :=
  h.found names wf.faithful

theorem hasElement (h : m.HasElement c index position)
    (names : (m.components.map (·.name)).Nodup) :
    m.hasElement (m.handle c.name position) = true := by
  obtain ⟨hc, entry⟩ := h
  simp only [Model.hasElement, content?_of_mem names hc]
  cases content : c.content <;> rw [content] at entry <;>
    simp only [Content.entries] at entry <;>
    simp_all [Family.get?, handle, Option.map_eq_some_iff]
  all_goals
    obtain ⟨a, here, present⟩ := entry
    simp [here, present]

/-- The index of an element. -/
theorem indexOf (there : m.HasElement c index position)
    (names : (m.components.map (·.name)).Nodup) :
    m.indexOf (m.handle c.name position) = index := by
  obtain ⟨hc, entry⟩ := there
  rw [Model.indexOf, content?_of_mem names hc]
  cases content : c.content <;> rw [content] at entry <;>
    simp only [Content.entries, List.getElem?_map, Option.map_eq_some_iff, Prod.exists,
      Prod.mk.injEq, List.getElem?_nil, reduceCtorEq] at entry
  all_goals
    obtain ⟨own, a, here, rfl, -⟩ := entry
    simp [indexAt, Family.indexAt, handle, here]

end HasElement

/-- An element that is there needs not be made. -/
theorem settle_of_hasElement {m : Model} {h : Handle} (there : m.hasElement h = true) :
    settle h m = .ok () m := by
  have made : m.isUnmade h = false := by simp [isUnmade, there]
  suffices ∀ bound, settleWithin bound h m = .ok () m from this m.size
  intro bound
  cases bound <;> simp [settleWithin, made]

/-- Asking for an element that is there changes nothing. -/
theorem reachElement_of_element {m : Model} {name : String} {index : List Value} {h : Handle}
    (found : m.element name index = .ok h) (there : m.hasElement h = true) :
    reachElement name index m = .ok h m := by
  have settled := settle_of_hasElement there
  simp [reachElement, obtain, found, settled]

/-- An element is known by its handle. -/
theorem HasElement.key_unique {m : Model} (names : (m.components.map (·.name)).Nodup)
    {c d : Component} {index index' : Value} {position position' : Nat}
    (h : m.HasElement c index position) (h' : m.HasElement d index' position')
    (equal : m.handle c.name position = m.handle d.name position') : c = d ∧ index = index' := by
  simp only [handle, Handle.mk.injEq, true_and] at equal
  obtain ⟨named, rfl⟩ := equal
  obtain rfl := component_unique names h.component h'.component named
  have := h.entry.symm.trans h'.entry
  simp only [Option.some.injEq, Prod.mk.injEq, and_true] at this
  exact ⟨rfl, this⟩

end Model

theorem Family.entries_indices {α : Type} (f : Family α) :
    (f.elements.map fun (index, a) => (index, a.isSome)).map (·.1) = f.elements.map (·.1) := by
  rw [List.map_map]
  rfl

namespace Content

/-- The indices of a well-formed component differ. -/
theorem WellFormed.entries {content : Content} (wf : content.WellFormed) :
    Value.Distinct (content.entries.map (·.1)) ∧
      ∀ index ∈ content.entries.map (·.1), index.IsIndex := by
  cases content with
  | vars family | constraints _ family | objectives _ family =>
      simp only [Content.entries, Family.entries_indices]
      refine ⟨Family.WellFormed.distinct wf, fun index hi => ?_⟩
      obtain ⟨element, he, rfl⟩ := List.mem_map.mp hi
      exact Family.WellFormed.indices wf element he
  | parameter | expression | reference | block => exact ⟨.nil, by simp [Content.entries]⟩

/-- The indices of a faithful component differ. -/
theorem Faithful.entries {content : Content} (faithful : content.Faithful) :
    Value.Distinct (content.entries.map (·.1)) ∧
      ∀ index ∈ content.entries.map (·.1), Value.ofIndex index.toIndex = index := by
  cases content with
  | vars family | constraints _ family | objectives _ family =>
      simp only [Content.entries, Family.entries_indices]
      refine ⟨Family.Faithful.distinct faithful, fun index hi => ?_⟩
      obtain ⟨element, he, rfl⟩ := List.mem_map.mp hi
      exact Family.Faithful.restored faithful element he
  | parameter | expression | reference | block => exact ⟨.nil, by simp [Content.entries]⟩

end Content

namespace Model

theorem keys_distinct_of_indices {name : String} {indices : List Value}
    (distinct : Value.Distinct indices)
    (restored : ∀ index ∈ indices, Value.ofIndex index.toIndex = index) :
    Key.Distinct (indices.map fun index => ⟨name, index.toIndex⟩) := by
  refine ⟨?_, ?_⟩
  · simp only [List.mem_map]
    rintro _ ⟨index, hi, rfl⟩
    exact Value.toIndex_areKey (distinct.keys index hi)
  · rw [List.pairwise_map]
    refine distinct.pairwise.imp_of_mem fun {a b} ha hb different => ?_
    by_contra same
    obtain ⟨-, items⟩ := Key.same_iff.mp (by simpa using same)
    have := Value.same_of_sameItems (restored a ha) (restored b hb) items
    simp [this] at different

/-- Keys that are taken from the components, one component after the other, differ. -/
theorem Faithful.keys_distinct {m : Model} (faithful : m.Faithful)
    {select : Component → List (Key × Handle)}
    (selected : ∀ c ∈ m.components, ∃ indices : List Value,
      (select c).map (·.1) = indices.map (fun index => ⟨c.name, index.toIndex⟩) ∧
        indices.Sublist (c.content.entries.map (·.1))) :
    Key.Distinct ((m.components.flatMap select).map (·.1)) := by
  have within : ∀ c ∈ m.components, Key.Distinct ((select c).map (·.1)) := by
    intro c hc
    obtain ⟨indices, equal, sub⟩ := selected c hc
    obtain ⟨distinct, restored⟩ := (faithful.contents c hc).entries
    rw [equal]
    exact keys_distinct_of_indices
      ⟨fun v hv => distinct.keys v (sub.subset hv), distinct.pairwise.sublist sub⟩
      fun v hv => restored v (sub.subset hv)
  rw [List.map_flatMap]
  refine ⟨?_, List.pairwise_flatMap.mpr ⟨fun c hc => (within c hc).pairwise, ?_⟩⟩
  · simp only [List.mem_flatMap]
    rintro key ⟨c, hc, hk⟩
    exact (within c hc).index_areKey key hk
  · have names := List.pairwise_map.mp faithful.names_nodup
    refine names.imp_of_mem fun {c d} hc hd different a ha b hb => ?_
    obtain ⟨indices, equal, -⟩ := selected c hc
    obtain ⟨indices', equal', -⟩ := selected d hd
    rw [equal] at ha
    rw [equal'] at hb
    obtain ⟨index, -, rfl⟩ := List.mem_map.mp ha
    obtain ⟨index', -, rfl⟩ := List.mem_map.mp hb
    simp [Key.same, different]

end Model

namespace Family

variable {α : Type}

theorem present_indices_sublist (f : Family α) :
    (f.present.map (·.1)).Sublist (f.elements.map (·.1)) := by
  unfold present
  generalize 0 = start
  induction f.elements generalizing start with
  | nil => exact .slnil
  | cons element rest ih =>
      obtain ⟨index, a⟩ := element
      cases a with
      | none => simpa using (ih (start + 1)).cons index
      | some a => simpa using ih (start + 1)

end Family

namespace Model

variable {m : Model}

/-- The declared variables have different keys. -/
theorem Faithful.variableKeys_distinct (faithful : m.Faithful) : Key.Distinct m.variableKeys := by
  refine faithful.keys_distinct fun c _ => ?_
  split
  · rename_i family content
    refine ⟨family.present.map (·.1), by simp [keyed], ?_⟩
    simp only [content, Content.entries, Family.entries_indices]
    exact family.present_indices_sublist
  · exact ⟨[], rfl, List.nil_sublist _⟩

/-- The declared constraints have different keys. -/
theorem Faithful.constraintKeys_distinct (faithful : m.Faithful) :
    Key.Distinct m.constraintKeys := by
  refine faithful.keys_distinct fun c _ => ?_
  split
  · rename_i family content
    refine ⟨(family.present.filter fun e => e.2.2.active).map (·.1), by simp, ?_⟩
    simp only [content, Content.entries, Family.entries_indices]
    exact (List.filter_sublist.map _).trans family.present_indices_sublist
  · exact ⟨[], rfl, List.nil_sublist _⟩

theorem WellFormed.variableKeys_distinct (wf : m.WellFormed) : Key.Distinct m.variableKeys :=
  wf.faithful.variableKeys_distinct

theorem WellFormed.constraintKeys_distinct (wf : m.WellFormed) : Key.Distinct m.constraintKeys :=
  wf.faithful.constraintKeys_distinct

end Model

end BlockAngular
