import BlockAngular.Decomposition.Images
import BlockAngular.Proofs.Model.Declare

/-! # Slices of a model

The slices that a decomposition works on hold keys of declared elements. Under one name
they hold rows of indices from which a component can be declared that has the same keys,
and the key of a slice leads back to its element.
-/

namespace BlockAngular

namespace Value

/-- The same index has the same items. -/
theorem sameItems_toIndex {v w : Value} (hv : v.hashable = true) (hw : w.hashable = true)
    (h : v.same w = true) : sameItems v.toIndex w.toIndex = true := by
  have back := same_symm hv h
  cases v with
  | null =>
      obtain rfl := eq_of_same h hv rfl (by simp)
      simp [toIndex, sameItems]
  | tuple items =>
      obtain ⟨items', rfl, same⟩ := tuple_of_same h
      exact same
  | list items | table entries | record fields => simp [hashable] at hv
  | dots | bool b | int n | float x | nan mark | complex re im | str s | bytes data =>
      cases w with
      | null => cases eq_of_same back hw rfl (by simp)
      | tuple items =>
          obtain ⟨items', equal, -⟩ := tuple_of_same back
          cases equal
      | list items | table entries | record fields => simp [hashable] at hw
      | dots | bool b | int n | float x | nan mark | complex re im | str s | bytes data =>
          simpa [toIndex, sameItems] using h

/-- Rows of indices that a component can be declared from as they stand. -/
structure AreRows (rows : List (List Value)) : Prop where
  isIndex : ∀ row ∈ rows, (ofIndex row).IsIndex ∧ (ofIndex row).toIndex = row
  distinct : Distinct (rows.map ofIndex)

namespace AreRows

variable {rows : List (List Value)}

theorem flat (h : AreRows rows) {row : List Value} (hr : row ∈ rows) : flatIndex row = row := by
  have isIndex := h.isIndex row hr
  rw [← isIndex.2]
  exact isIndex.1.flat

end AreRows

end Value

namespace Family

variable {α : Type}

/-- The family of some rows of indices, or the one without an index for the empty row. -/
def tabulate (rows : List (List Value)) (element : List Value → Option α) : Family α :=
  ⟨!isScalarIndex rows, rows.map fun row => (Value.ofIndex row, element row)⟩

theorem isScalarIndex_iff {rows : List (List Value)} : isScalarIndex rows = true ↔ rows = [[]] := by
  unfold isScalarIndex
  split <;> simp_all

/-- A family of rows is well-formed. -/
theorem tabulate_wellFormed {rows : List (List Value)} (h : Value.AreRows rows)
    (element : List Value → Option α) : (tabulate rows element).WellFormed where
  sole scalar := by
    obtain rfl := isScalarIndex_iff.mp (by simpa [tabulate] using scalar)
    exact ⟨element [], rfl⟩
  distinct := by simpa [tabulate, Function.comp_def] using h.distinct
  indices := by
    simp only [tabulate, List.mem_map]
    rintro _ ⟨row, hr, rfl⟩
    exact (h.isIndex row hr).1

theorem indicesOf_rowsOf (rows : List (List Value)) :
    indicesOf (rowsOf rows) = rows.map Value.ofIndex := by
  unfold rowsOf
  split
  · rename_i scalar
    obtain rfl := isScalarIndex_iff.mp scalar
    rfl
  · rfl

theorem rowsOf_isSome (rows : List (List Value)) : (rowsOf rows).isSome = !isScalarIndex rows := by
  unfold rowsOf
  split <;> simp_all

end Family

namespace Model

/-- Whether a key is that of an element that is there. -/
def Declares (m : Model) (key : Key) : Prop :=
  ∃ c index position, m.HasElement c index position ∧ key = ⟨c.name, index.toIndex⟩

/-- The element of a key. -/
def preimageOf (m : Model) (key : Key) : Handle :=
  ((m.element key.name key.index).toOption).getD default

variable {m : Model}

theorem Declares.element (wf : m.WellFormed) {key : Key} (h : m.Declares key) :
    m.element key.name key.index = .ok (m.preimageOf key) := by
  obtain ⟨c, index, position, there, rfl⟩ := h
  have found := there.element wf.names_nodup (wf.contents c there.component)
  simp [preimageOf, found, Except.toOption]

theorem Declares.hasElement (wf : m.WellFormed) {key : Key} (h : m.Declares key) :
    m.hasElement (m.preimageOf key) = true := by
  obtain ⟨c, index, position, there, rfl⟩ := h
  have found := there.element wf.names_nodup (wf.contents c there.component)
  simp only [preimageOf, found, Except.toOption, Option.getD_some]
  exact there.hasElement wf.names_nodup

/-- Different keys have different elements. -/
theorem Declares.key_unique (wf : m.WellFormed) {key key' : Key} (h : m.Declares key)
    (h' : m.Declares key') (equal : m.preimageOf key = m.preimageOf key') : key = key' := by
  obtain ⟨c, index, position, there, rfl⟩ := h
  obtain ⟨c', index', position', there', rfl⟩ := h'
  have found := there.element wf.names_nodup (wf.contents c there.component)
  have found' := there'.element wf.names_nodup (wf.contents c' there'.component)
  simp only [preimageOf, found, found', Except.toOption, Option.getD_some] at equal
  obtain ⟨rfl, rfl⟩ := there.key_unique wf.names_nodup there' equal
  rfl

theorem declares_of_mem_vars {key : Key} {h : Handle} (hk : (key, h) ∈ m.vars) :
    m.Declares key := by
  obtain ⟨c, index, position, there, rfl, -⟩ := hasElement_of_mem_vars hk
  exact ⟨c, index, position, there, rfl⟩

theorem declares_of_mem_constraints {key : Key} {h : Handle} (hk : (key, h) ∈ m.constraints) :
    m.Declares key := by
  obtain ⟨c, index, position, there, rfl, -⟩ := hasElement_of_mem_constraints hk
  exact ⟨c, index, position, there, rfl⟩

theorem preimageOf_of_mem_vars (wf : m.WellFormed) {key : Key} {h : Handle}
    (hk : (key, h) ∈ m.vars) : m.preimageOf key = h := by
  obtain ⟨c, index, position, there, rfl, rfl⟩ := hasElement_of_mem_vars hk
  have found := there.element wf.names_nodup (wf.contents c there.component)
  simp [preimageOf, found, Except.toOption]

theorem preimageOf_of_mem_constraints (wf : m.WellFormed) {key : Key} {h : Handle}
    (hk : (key, h) ∈ m.constraints) : m.preimageOf key = h := by
  obtain ⟨c, index, position, there, rfl, rfl⟩ := hasElement_of_mem_constraints hk
  have found := there.element wf.names_nodup (wf.contents c there.component)
  simp [preimageOf, found, Except.toOption]

end Model

namespace Slice

/-- A slice of different keys of elements of a model. -/
structure Sound (m : Model) (slice : Slice) : Prop where
  declared : ∀ key ∈ slice.keys, m.Declares key
  distinct : Key.Distinct slice.keys
  grouped : slice.Grouped

theorem mem_keys_of_mem_sorted {slice : Slice} {name : String} {indices : List (List Value)}
    (he : (name, indices) ∈ slice) {row : List Value} (hr : row ∈ Value.sortIndices indices) :
    ⟨name, row⟩ ∈ slice.keys :=
  List.mem_flatMap.mpr ⟨_, he,
    List.mem_map_of_mem ((Value.sortIndices_perm indices).mem_iff.mp hr)⟩

theorem places_cons (entry : String × List (List Value)) (slice : Slice) :
    places (entry :: slice) = places [entry] ++ places slice := by
  simp [places]

theorem keys_cons (entry : String × List (List Value)) (slice : Slice) :
    keys (entry :: slice) = entry.2.map (⟨entry.1, ·⟩) ++ keys slice := by
  simp [keys]

theorem mem_places_iff {slice : Slice} {key : Key} {position : Nat} :
    (key, position) ∈ slice.places ↔ ∃ indices, (key.name, indices) ∈ slice ∧
      (Value.sortIndices indices)[position]? = some key.index := by
  simp only [places, List.mem_flatMap, List.mem_map, Prod.exists, List.mem_zipIdx_iff_getElem?]
  constructor
  · rintro ⟨name, indices, he, index, position', here, equal⟩
    cases equal
    exact ⟨indices, he, here⟩
  · rintro ⟨indices, he, here⟩
    exact ⟨key.name, indices, he, key.index, position, here, rfl⟩

namespace Sound

variable {m : Model} {slice : Slice}

theorem tail {entry : String × List (List Value)} (h : Sound m (entry :: slice)) :
    Sound m slice where
  declared key hk := h.declared key (by
    rw [keys_cons, List.mem_append]
    exact .inr hk)
  distinct := h.distinct.sublist (by simp [keys_cons])
  grouped := ⟨(List.nodup_cons.mp h.grouped.names_nodup).2,
    fun e he => h.grouped.nonempty e (List.mem_cons_of_mem _ he)⟩

/-- What a slice has under one name are rows that a component can be declared from. -/
theorem rows (h : Sound m slice) (wf : m.WellFormed) {name : String}
    {indices : List (List Value)} (he : (name, indices) ∈ slice) :
    Value.AreRows (Value.sortIndices indices) := by
  have sorted := Value.sortIndices_perm indices
  have keyed : (indices.map (⟨name, ·⟩ : List Value → Key)).Sublist slice.keys := by
    obtain ⟨before, after, rfl⟩ := List.append_of_mem he
    simp only [keys, List.flatMap_append, List.flatMap_cons]
    exact (List.sublist_append_left _ _).trans (List.sublist_append_right _ _)
  have indexed : ∀ row ∈ indices, ∃ index : Value, index.IsKey ∧ index.IsIndex ∧
      row = index.toIndex := by
    intro row hr
    obtain ⟨c, index, position, there, equal⟩ :=
      h.declared ⟨name, row⟩ (keyed.subset (List.mem_map_of_mem hr))
    simp only [Key.mk.injEq] at equal
    obtain ⟨distinct, flat⟩ := (wf.contents c there.component).entries
    have listed : index ∈ c.content.entries.map (·.1) :=
      List.mem_map_of_mem (f := (·.1)) (List.mem_of_getElem? there.entry)
    exact ⟨index, distinct.keys index listed, flat index listed, equal.2⟩
  refine ⟨fun row hr => ?_, Value.Distinct.perm ⟨?_, ?_⟩ (sorted.map _).symm⟩
  · obtain ⟨index, -, isIndex, rfl⟩ := indexed row (sorted.mem_iff.mp hr)
    rw [isIndex.ofIndex_toIndex]
    exact ⟨isIndex, rfl⟩
  · simp only [List.mem_map]
    rintro _ ⟨row, hr, rfl⟩
    obtain ⟨index, isKey, isIndex, rfl⟩ := indexed row hr
    rwa [isIndex.ofIndex_toIndex]
  · rw [List.pairwise_map]
    have different := List.pairwise_map.mp (h.distinct.sublist keyed).pairwise
    refine different.imp_of_mem fun {a b} ha hb other => ?_
    obtain ⟨index, isKey, isIndex, rfl⟩ := indexed a ha
    obtain ⟨index', isKey', isIndex', rfl⟩ := indexed b hb
    simp only [Key.same, beq_self_eq_true, Bool.true_and] at other
    rw [isIndex.ofIndex_toIndex, isIndex'.ofIndex_toIndex]
    by_contra same
    rw [Value.sameItems_toIndex isKey.hashable isKey'.hashable (by simpa using same)] at other
    cases other

end Sound

end Slice

namespace Model

/-- Whether no component with indices has one that is absent. -/
def NoNullIndex (m : Model) : Prop :=
  ∀ c ∈ m.components, isIndexed c.content = true → ∀ entry ∈ c.content.entries, entry.1 ≠ .null

end Model

theorem Value.IsIndex.toIndex_ne_nil {v : Value} (h : v.IsIndex) (there : v ≠ .null) :
    v.toIndex ≠ [] := fun empty => there (by rw [← h.ofIndex_toIndex, empty, ofIndex])

/-- A component without indices has at most one element. -/
theorem Content.WellFormed.entry_of_scalar {content : Content} (wf : content.WellFormed)
    (scalar : Model.isIndexed content = false) {entry : Value × Bool}
    (h : entry ∈ content.entries) : entry.1 = .null := by
  cases content with
  | vars family | constraints _ family | objectives _ family =>
      obtain ⟨a, alone⟩ := Family.WellFormed.sole wf scalar
      simp only [Content.entries, alone, List.map_cons, List.map_nil, List.mem_singleton] at h
      rw [h]
  | parameter | expression | reference | block => simp [Content.entries] at h

/-- Different rows without items are one row. -/
theorem Value.AreRows.eq_singleton {rows : List (List Value)} (h : Value.AreRows rows)
    (nonempty : rows ≠ []) (empty : ∀ row ∈ rows, row = []) : rows = [[]] := by
  match rows with
  | [] => exact absurd rfl nonempty
  | [row] => rw [empty row List.mem_cons_self]
  | row :: row' :: others =>
      have different := h.distinct.pairwise
      rw [empty row (by simp), empty row' (by simp)] at different
      simp [Value.ofIndex, Value.same] at different

/-- The rows of a slice belong to a declaration without an index if their component has none. -/
theorem Slice.Sound.isIndexed_eq {m : Model} {slice : Slice} (h : slice.Sound m)
    (wf : m.WellFormed) (noNull : m.NoNullIndex) {name : String} {indices : List (List Value)}
    (he : (name, indices) ∈ slice) :
    (m.component? name).map (Model.isIndexed ·.content) =
      some (!isScalarIndex (Value.sortIndices indices)) := by
  have areRows := h.rows wf he
  have sorted := Value.sortIndices_perm indices
  have declared : ∀ row ∈ Value.sortIndices indices, ∃ c index position,
      m.HasElement c index position ∧ name = c.name ∧ row = index.toIndex := by
    intro row hr
    obtain ⟨c, index, position, there, equal⟩ := h.declared ⟨name, row⟩
      (Slice.mem_keys_of_mem_sorted he hr)
    simp only [Key.mk.injEq] at equal
    exact ⟨c, index, position, there, equal⟩
  obtain ⟨row, hrow⟩ := List.exists_mem_of_ne_nil _ fun empty =>
    h.grouped.nonempty _ he (List.perm_nil.mp (empty ▸ sorted.symm))
  obtain ⟨c, index, position, there, rfl, rfl⟩ := declared row hrow
  have entry := List.mem_of_getElem? there.entry
  simp only [Model.component?_of_mem wf.names_nodup there.component, Option.map_some,
    Option.some.injEq]
  cases indexed : Model.isIndexed c.content with
  | true =>
      have isIndex := (wf.contents c there.component).entries.2 index (List.mem_map_of_mem entry)
      have filled := isIndex.toIndex_ne_nil (noNull c there.component indexed _ entry)
      suffices isScalarIndex (Value.sortIndices indices) = false by simp [this]
      by_contra scalar
      have only := Family.isScalarIndex_iff.mp (by simpa using scalar)
      rw [only, List.mem_singleton] at hrow
      exact filled hrow
  | false =>
      have empty : ∀ row ∈ Value.sortIndices indices, row = [] := by
        intro row hr
        obtain ⟨c', index', position', there', named, rfl⟩ := declared row hr
        obtain rfl := Model.component_unique wf.names_nodup there.component there'.component named
        have absent := (wf.contents c there.component).entry_of_scalar indexed
          (List.mem_of_getElem? there'.entry)
        simp only at absent
        rw [absent, Value.toIndex]
      simp [areRows.eq_singleton (List.ne_nil_of_mem hrow) empty, isScalarIndex]

end BlockAngular
