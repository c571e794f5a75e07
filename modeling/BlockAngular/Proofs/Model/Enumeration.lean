import BlockAngular.Proofs.Model.WellFormed

/-! # Enumeration and look-up

The declared variables and constraints are enumerated with their keys, and later found again by
these. An index of several items may have tuples among them, and the indices of one component may
differ in length: what counts is that an index is got back from the index tuple in the key.
-/

namespace BlockAngular

/-- An index of one element among several: a single item that is there, or a tuple of at least two
items. -/
def Value.IsElementIndex : Value → Prop
  | .null => False
  | .tuple items => 2 ≤ items.length
  | _ => True

/-- An index is got back from its index tuple. -/
theorem Value.IsElementIndex.restored {index : Value} (h : index.IsElementIndex) :
    ofIndex index.toIndex = index := by
  cases index with
  | null => exact h.elim
  | tuple items =>
      match items, h with
      | [], h => simp [IsElementIndex] at h
      | [_], h => simp [IsElementIndex] at h
      | _ :: _ :: _, _ => rfl
  | dots | bool _ | int _ | float _ | nan _ | complex _ _ | str _ | bytes _ | list _ | table _
  | record _ => rfl

/-- A single element without an index, or elements under different indices of their own. -/
structure Family.IsTable {α : Type} (f : Family α) : Prop where
  sole : f.indexed = false → ∃ a, f.elements = [(.null, a)]
  distinct : Value.Distinct (f.elements.map (·.1))
  indices : f.indexed = true → ∀ element ∈ f.elements, element.1.IsElementIndex

theorem Family.IsTable.faithful {α : Type} {f : Family α} (table : f.IsTable) : f.Faithful where
  sole := table.sole
  distinct := table.distinct
  restored element listed := by
    cases indexed : f.indexed with
    | true => exact (table.indices indexed element listed).restored
    | false =>
        obtain ⟨a, alone⟩ := table.sole indexed
        rw [alone, List.mem_singleton] at listed
        rw [listed]
        rfl

/-- A component whose elements, if it has any, are a table. -/
def Content.IsTable : Content → Prop
  | .vars family => family.IsTable
  | .constraints _ family => family.IsTable
  | .objectives _ family => family.IsTable
  | _ => True

theorem Content.IsTable.faithful {content : Content} (table : content.IsTable) :
    content.Faithful := by
  cases content with
  | vars | constraints | objectives => exact Family.IsTable.faithful table
  | parameter | expression | reference | block => trivial

namespace Model

/-- A model whose components have different names and are tables. -/
structure IsTables (m : Model) : Prop where
  names_nodup : (m.components.map (·.name)).Nodup
  contents : ∀ c ∈ m.components, c.content.IsTable

theorem IsTables.faithful {m : Model} (tables : m.IsTables) : m.Faithful :=
  ⟨tables.names_nodup, fun c hc => (tables.contents c hc).faithful⟩

/-- A key leads to an element and back. -/
structure Locates (m : Model) (key : Key) (h : Handle) : Prop where
  /-- The element is found by the key, and nothing is changed. -/
  found : reachElement key.name key.index m = .ok h m
  /-- The key is that of the element. -/
  keyed : m.keyOf h = key
  /-- The index of the element is got back from the key. -/
  restored : Value.ofIndex key.index = m.indexOf h

variable {m : Model} {c : Component} {index : Value} {position : Nat}

theorem HasElement.restored (there : m.HasElement c index position) (faithful : m.Faithful) :
    Value.ofIndex index.toIndex = index := by
  obtain ⟨hc, entry⟩ := there
  exact (faithful.contents c hc).entries.2 index
    (List.mem_map_of_mem (f := (·.1)) (List.mem_of_getElem? entry))

theorem Faithful.locates (faithful : m.Faithful) (there : m.HasElement c index position) :
    m.Locates ⟨c.name, index.toIndex⟩ (m.handle c.name position) := by
  have names := faithful.names_nodup
  have own := there.indexOf names
  constructor
  · exact reachElement_of_element (there.found names (faithful.contents c there.component))
      (there.hasElement names)
  · rw [keyOf, own]
    rfl
  · rw [own]
    exact there.restored faithful

/-- The keys of the declared variables differ, and so do those of the declared constraints. Each
of them leads to the very element that it is listed with. -/
theorem enumeration_agrees_with_lookup (tables : m.IsTables) :
    (Key.Distinct (m.vars.map (·.1)) ∧ ∀ key h, (key, h) ∈ m.vars →
        m.Locates key h ∧ ∃ v, m.variableOf? h = some v) ∧
      Key.Distinct (m.constraints.map (·.1)) ∧ ∀ key h, (key, h) ∈ m.constraints →
        m.Locates key h ∧ ∃ row, m.constraintOf? h = some row ∧ row.active = true := by
  have faithful := tables.faithful
  have names := faithful.names_nodup
  refine ⟨⟨faithful.variableKeys_distinct, ?_⟩, faithful.constraintKeys_distinct, ?_⟩
  · intro key h listed
    obtain ⟨c, hc, family, content, index, position, v, here, rfl, rfl⟩ := mem_vars.mp listed
    refine ⟨faithful.locates ⟨hc, by simp [content, Content.entries, here]⟩, v, ?_⟩
    rw [variableOf?, content?_of_mem names hc, content]
    simp [Family.get?, handle, here]
  · intro key h listed
    obtain ⟨c, hc, family, content, index, position, row, here, active, rfl, rfl⟩ :=
      mem_constraints.mp listed
    refine ⟨faithful.locates ⟨hc, by simp [content, Content.entries, here]⟩, row, ?_, active⟩
    rw [constraintOf?, content?_of_mem names hc, content]
    simp [Family.get?, handle, here]

end Model

/-- A model with a variable without an index, with indices of one and of several items in one
component, with a reference, and with an inactive constraint. -/
def jaggedlyDeclared : Model where
  id := 0
  name := "jaggedly_declared"
  components := [
    ⟨"z", .vars (.scalar .free), []⟩,
    ⟨"x", .vars ⟨true, [(.int 1, some .free), (.int 2, none), (.tuple [.int 1, .str "a"], some .free),
      (.tuple [.int 1, .tuple [.int 2, .int 3]], some .free)]⟩, []⟩,
    ⟨"alias", .reference "x", []⟩,
    ⟨"row", .constraints true ⟨true, [
      (.int 1, some ⟨.variable ⟨0, "x", 0⟩, none, none, false, false⟩),
      (.int 2, some ⟨.variable ⟨0, "x", 0⟩, none, none, false, true⟩)]⟩, []⟩]

theorem jaggedlyDeclared_isTables : jaggedlyDeclared.IsTables where
  names_nodup := by decide
  contents := by
    simp only [jaggedlyDeclared, List.forall_mem_cons, Content.IsTable]
    have columns : Value.Distinct [.int 1, .int 2, .tuple [.int 1, .str "a"],
        .tuple [.int 1, .tuple [.int 2, .int 3]]] := ⟨by decide +kernel, by decide +kernel⟩
    have rows : Value.Distinct [.int 1, .int 2] := ⟨by decide +kernel, by decide +kernel⟩
    refine ⟨?scalar, ⟨by simp, columns, by simp [Value.IsElementIndex]⟩, trivial,
      ⟨by simp, rows, by simp [Value.IsElementIndex]⟩, by simp⟩
    case scalar =>
      exact ⟨by simp [Family.scalar], ⟨by simp [Family.scalar, Value.isKey_null],
        by simp [Family.scalar]⟩, by simp [Family.scalar]⟩

/-- The keys of the second row, and of a variable with a tuple in its index. -/
theorem jaggedlyDeclared_located : jaggedlyDeclared.IsTables ∧
    jaggedlyDeclared.Locates ⟨"x", [.int 1, .tuple [.int 2, .int 3]]⟩ ⟨0, "x", 3⟩ ∧
      jaggedlyDeclared.Locates ⟨"row", [.int 2]⟩ ⟨0, "row", 1⟩ := by
  have ⟨⟨_, columns⟩, _, rows⟩ := Model.enumeration_agrees_with_lookup jaggedlyDeclared_isTables
  refine ⟨jaggedlyDeclared_isTables, (columns _ _ ?_).1, (rows _ _ ?_).1⟩
  · simp [Model.vars, jaggedlyDeclared, Model.keyed, Family.present, Family.scalar, Value.toIndex,
      Model.handle]
  · simp [Model.constraints, jaggedlyDeclared, Family.present, Value.toIndex, Model.handle]

end BlockAngular
