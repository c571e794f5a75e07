import BlockAngular.Assignment
import BlockAngular.Proofs.Value.Sorting
import BlockAngular.Proofs.Value.Tables
import Mathlib.Data.List.Nodup

/-! # Partitions are total

Each key of a table of blocks lies in the slice of one block, and a slice holds nothing
but keys of the table. The slice of a block is what the keys with this block are grouped
into, so that a slice can be read as a list of keys.
-/

namespace BlockAngular

namespace Key

/-- Keys of different elements: their indices can be keys, and no two are equal. -/
structure Distinct (keys : List Key) : Prop where
  index_areKey : ∀ k ∈ keys, Value.AreKey k.index
  pairwise : keys.Pairwise fun a b => a.same b = false

instance (keys : List Key) : Decidable (Distinct keys) :=
  decidable_of_iff ((∀ k ∈ keys, Value.AreKey k.index) ∧ keys.Pairwise fun a b => a.same b = false)
    ⟨fun h => ⟨h.1, h.2⟩, fun h => ⟨h.1, h.2⟩⟩

theorem same_iff {a b : Key} :
    a.same b = true ↔ a.name = b.name ∧ Value.sameItems a.index b.index = true := by
  simp [same]

theorem same_symm {a b : Key} (ha : Value.allHashable a.index = true) (h : a.same b = true) :
    b.same a = true := by
  obtain ⟨names, indices⟩ := same_iff.mp h
  exact same_iff.mpr ⟨names.symm, Value.sameItems_symm ha indices⟩

namespace Distinct

theorem nil : Distinct [] :=
  ⟨by simp, .nil⟩

theorem same_self {keys : List Key} (h : Distinct keys) {k : Key} (hk : k ∈ keys) :
    k.same k = true :=
  same_iff.mpr ⟨rfl, (h.index_areKey k hk).same_self⟩

theorem sublist {keys others : List Key} (h : Distinct keys) (sub : others.Sublist keys) :
    Distinct others :=
  ⟨fun k hk => h.index_areKey k (sub.subset hk), h.pairwise.sublist sub⟩

theorem init {keys : List Key} {k : Key} (h : Distinct (keys ++ [k])) : Distinct keys :=
  h.sublist (List.sublist_append_left _ _)

theorem last_ne {keys : List Key} {k : Key} (h : Distinct (keys ++ [k])) :
    ∀ other ∈ keys, other.same k = false := fun other ho =>
  (List.pairwise_append.mp h.pairwise).2.2 other ho k (by simp)

theorem nodup {keys : List Key} (h : Distinct keys) : keys.Nodup := by
  refine h.pairwise.imp_of_mem fun {a b} ha _ different equal => ?_
  rw [← equal, h.same_self ha] at different
  cases different

/-- Equal keys of the list are one key. -/
theorem eq_of_same {keys : List Key} (h : Distinct keys) {a b : Key} (ha : a ∈ keys)
    (hb : b ∈ keys) (same : a.same b = true) : a = b := by
  induction keys with
  | nil => simp at ha
  | cons k keys ih =>
      obtain ⟨first, -⟩ := List.pairwise_cons.mp h.pairwise
      have rest := h.sublist (List.sublist_cons_self k keys)
      rcases List.mem_cons.mp ha with rfl | ha' <;> rcases List.mem_cons.mp hb with rfl | hb'
      · rfl
      · simp [first b hb'] at same
      · have := same_symm (h.index_areKey a ha).hashable same
        simp [first a ha'] at this
      · exact ih rest ha' hb'

end Distinct

end Key

namespace Slice

/-- The slice that keys are grouped into. -/
def ofKeys (keys : List Key) : Slice :=
  keys.foldl insert []

/-- The keys of a slice, name by name. -/
def keys (slice : Slice) : List Key :=
  slice.flatMap fun (name, indices) => indices.map (⟨name, ·⟩)

/-- The keys of a slice in the order in which their images are declared, each with its
    position in its component. -/
def places (slice : Slice) : List (Key × Nat) :=
  slice.flatMap fun (name, indices) =>
    (Value.sortIndices indices).zipIdx.map fun (index, position) => (⟨name, index⟩, position)

/-- A slice as grouping makes it: a name has one entry, which is not empty. -/
structure Grouped (slice : Slice) : Prop where
  names_nodup : (slice.map (·.1)).Nodup
  nonempty : ∀ entry ∈ slice, entry.2 ≠ []

theorem ofKeys_concat (keys : List Key) (k : Key) :
    ofKeys (keys ++ [k]) = (ofKeys keys).insert k := by
  simp [ofKeys]

theorem holdsIndex_eq_false {indices : List (List Value)} {index : List Value}
    (absent : ∀ other ∈ indices, Value.sameItems other index = false) :
    holdsIndex indices index = false := by
  simpa [holdsIndex] using absent

/-- A new key is added to the keys of a slice. -/
theorem keys_insert_perm {slice : Slice} {k : Key} (new : ∀ other ∈ slice.keys, other.same k = false) :
    (slice.insert k).keys.Perm (k :: slice.keys) := by
  induction slice with
  | nil => exact .refl _
  | cons entry rest ih =>
      obtain ⟨name, indices⟩ := entry
      simp only [keys, List.flatMap_cons, List.mem_append, List.mem_map] at new
      simp only [insert]
      split
      · rename_i named
        obtain rfl := beq_iff_eq.mp named
        have absent : holdsIndex indices k.index = false := by
          refine holdsIndex_eq_false fun other ho => ?_
          simpa [Key.same] using new ⟨k.name, other⟩ (.inl ⟨other, ho, rfl⟩)
        simp only [addIndex, absent, keys, List.flatMap_cons, Bool.false_eq_true, if_false,
          List.map_append, List.map_cons, List.map_nil, List.append_assoc, List.cons_append,
          List.nil_append]
        exact List.perm_middle
      · have rest_perm := ih fun other ho => new other (.inr (by simpa [keys] using ho))
        simp only [keys, List.flatMap_cons] at rest_perm ⊢
        exact (rest_perm.append_left _).trans List.perm_middle

/-- Grouping different keys loses none and adds none. -/
theorem keys_ofKeys_perm {ks : List Key} (distinct : Key.Distinct ks) :
    (ofKeys ks).keys.Perm ks := by
  induction ks using List.reverseRecOn with
  | nil => exact .refl _
  | append_singleton ks k ih =>
      have old := ih distinct.init
      rw [ofKeys_concat]
      refine (keys_insert_perm fun other ho => distinct.last_ne other (old.mem_iff.mp ho)).trans ?_
      exact (old.cons k).trans (List.perm_append_singleton k ks).symm

theorem insert_names (slice : Slice) (k : Key) :
    (slice.insert k).map (·.1) =
      if k.name ∈ slice.map (·.1) then slice.map (·.1) else slice.map (·.1) ++ [k.name] := by
  induction slice with
  | nil => rfl
  | cons entry rest ih =>
      obtain ⟨name, indices⟩ := entry
      simp only [insert]
      by_cases named : name = k.name
      · simp [named]
      · simp only [beq_iff_eq, named, if_false, List.map_cons, ih, List.mem_cons,
          Ne.symm named, false_or]
        split <;> rfl

theorem insert_nonempty {slice : Slice} (k : Key) (h : ∀ entry ∈ slice, entry.2 ≠ []) :
    ∀ entry ∈ slice.insert k, entry.2 ≠ [] := by
  induction slice with
  | nil => simp [insert]
  | cons entry rest ih =>
      obtain ⟨name, indices⟩ := entry
      have rest_nonempty := ih fun entry he => h entry (List.mem_cons_of_mem _ he)
      have first := h (name, indices) List.mem_cons_self
      simp only [insert]
      split
      · simp only [List.forall_mem_cons, addIndex]
        refine ⟨?_, fun entry he => h entry (List.mem_cons_of_mem _ he)⟩
        split
        · exact first
        · simp
      · simp only [List.forall_mem_cons]
        exact ⟨first, rest_nonempty⟩

theorem grouped_ofKeys (ks : List Key) : Grouped (ofKeys ks) := by
  induction ks using List.reverseRecOn with
  | nil => exact ⟨.nil, by simp [ofKeys]⟩
  | append_singleton ks k ih =>
      rw [ofKeys_concat]
      refine ⟨?_, insert_nonempty k ih.nonempty⟩
      rw [insert_names]
      split
      · exact ih.names_nodup
      · rename_i new
        exact List.Nodup.append ih.names_nodup (List.nodup_singleton _) (by simpa using new)

theorem places_keys (slice : Slice) :
    slice.places.map (·.1) =
      slice.flatMap fun (name, indices) => (Value.sortIndices indices).map (⟨name, ·⟩) := by
  simp only [places, List.map_flatMap, List.map_map]
  refine List.flatMap_congr fun entry _ => ?_
  obtain ⟨name, indices⟩ := entry
  show (Value.sortIndices indices).zipIdx.map ((⟨name, ·⟩ : List Value → Key) ∘ Prod.fst) = _
  rw [← List.map_map, List.zipIdx_map_fst]

theorem places_keys_perm (slice : Slice) : (slice.places.map (·.1)).Perm slice.keys := by
  rw [places_keys, keys]
  exact List.Perm.flatMap_left _ fun entry _ => (Value.sortIndices_perm entry.2).map _

/-- Different places have different names or positions. -/
theorem places_nodup {slice : Slice} (grouped : Grouped slice) :
    (slice.places.map fun (key, position) => (key.name, position)).Nodup := by
  have names := grouped.names_nodup
  clear grouped
  induction slice with
  | nil => exact .nil
  | cons entry rest ih =>
      obtain ⟨name, indices⟩ := entry
      simp only [List.map_cons, List.nodup_cons] at names
      simp only [places, List.flatMap_cons, List.map_append, List.map_map] at ih ⊢
      refine List.Nodup.append ?_ (ih names.2) ?_
      · refine List.Nodup.of_map (·.2) ?_
        rw [List.map_map]
        show ((Value.sortIndices indices).zipIdx.map Prod.snd).Nodup
        rw [List.zipIdx_map_snd]
        exact List.nodup_range'
      · simp only [List.disjoint_left, List.mem_map, List.mem_flatMap]
        rintro _ ⟨⟨index, position⟩, -, rfl⟩ ⟨_, ⟨entry, he, ⟨index', position'⟩, -, rfl⟩, equal⟩
        simp only [Function.comp, Prod.mk.injEq] at equal
        exact names.1 (List.mem_map.mpr ⟨entry, he, equal.1⟩)

end Slice

namespace Block

/-- A block that can be found again: the master, or one whose id can be a key. -/
def IsKey : Block → Prop
  | .master => True
  | .subproblem id => id.IsKey

instance (b : Block) : Decidable b.IsKey :=
  match b with
  | .master => .isTrue trivial
  | .subproblem id => inferInstanceAs (Decidable id.IsKey)

theorem same_self {b : Block} (h : b.IsKey) : b.same b = true := by
  cases b with
  | master => rfl
  | subproblem id => exact h.same_self

theorem same_symm {a b : Block} (ha : a.IsKey) (h : a.same b = true) : b.same a = true := by
  cases a <;> cases b <;> simp only [same, Bool.false_eq_true] at h ⊢
  exact Value.same_symm ha.hashable h

theorem same_trans {a b c : Block} (ha : a.IsKey) (h : a.same b = true) (h' : b.same c = true) :
    a.same c = true := by
  cases a <;> cases b <;> cases c <;> simp only [same, Bool.false_eq_true] at h h' ⊢
  exact Value.same_trans ha.hashable h h'

/-- Equal blocks are equal to the same blocks. -/
theorem same_congr {a b c : Block} (ha : a.IsKey) (hb : b.IsKey) (h : a.same b = true) :
    a.same c = b.same c :=
  Bool.eq_iff_iff.mpr ⟨same_trans hb (same_symm ha h), same_trans ha h⟩

end Block

namespace KeyTable

/-- The keys of a block, in the order of the table. -/
def keysOf (table : KeyTable) (block : Block) : List Key :=
  (table.filter fun entry => entry.2.same block).map (·.1)

/-- A table of the blocks of different keys, all of which can be found again. -/
structure Sound (table : KeyTable) : Prop where
  keys : Key.Distinct (table.map (·.1))
  blocks : ∀ entry ∈ table, entry.2.IsKey

instance (table : KeyTable) : Decidable table.Sound :=
  decidable_of_iff (Key.Distinct (table.map (·.1)) ∧ ∀ entry ∈ table, entry.2.IsKey)
    ⟨fun h => ⟨h.1, h.2⟩, fun h => ⟨h.1, h.2⟩⟩

theorem mem_keysOf {table : KeyTable} {block : Block} {key : Key} :
    key ∈ table.keysOf block ↔ ∃ own, (key, own) ∈ table ∧ own.same block = true := by
  simp [keysOf]

theorem mem_ids {table : KeyTable} {id : Value} :
    id ∈ ids table ↔ ∃ key, (key, Block.subproblem id) ∈ table := by
  simp only [ids, List.mem_filterMap]
  constructor
  · rintro ⟨⟨key, block⟩, he, equal⟩
    cases block <;> cases equal
    exact ⟨key, he⟩
  · rintro ⟨key, he⟩
    exact ⟨_, he, rfl⟩

theorem keysOf_concat (table : KeyTable) (key : Key) (own block : Block) :
    keysOf (table ++ [(key, own)]) block =
      if own.same block then table.keysOf block ++ [key] else table.keysOf block := by
  by_cases h : own.same block = true <;> simp [keysOf, h]

theorem ids_concat (table : KeyTable) (key : Key) (own : Block) :
    ids (table ++ [(key, own)]) =
      match own with
      | .master => ids table
      | .subproblem id => ids table ++ [id] := by
  cases own <;> simp [ids]

namespace Sound

variable {table : KeyTable}

theorem init {entry : Key × Block} (h : Sound (table ++ [entry])) : Sound table :=
  ⟨h.keys.sublist ((List.sublist_append_left table [entry]).map _),
    fun e he => h.blocks e (by simp [he])⟩

theorem keysOf_distinct (h : table.Sound) (block : Block) : Key.Distinct (table.keysOf block) :=
  h.keys.sublist (List.filter_sublist.map _)

theorem ids_isKey (h : table.Sound) : ∀ id ∈ ids table, id.IsKey := fun id hid => by
  obtain ⟨key, he⟩ := mem_ids.mp hid
  exact h.blocks _ he

/-- A key has one block. -/
theorem block_unique (h : table.Sound) {key : Key} {a b : Block} (ha : (key, a) ∈ table)
    (hb : (key, b) ∈ table) : a = b := by
  have nodup := h.keys.nodup
  have := List.inj_on_of_nodup_map nodup ha hb rfl
  cases this
  rfl

end Sound

end KeyTable

theorem masterSlice_eq (table : KeyTable) :
    masterSlice table = Slice.ofKeys (table.keysOf .master) := by
  induction table using List.reverseRecOn with
  | nil => rfl
  | append_singleton table entry ih =>
      obtain ⟨key, own⟩ := entry
      rw [KeyTable.keysOf_concat]
      simp only [masterSlice, List.foldl_append, List.foldl_cons, List.foldl_nil] at ih ⊢
      cases own with
      | master => simp [ih, Block.same, Slice.ofKeys_concat]
      | subproblem id => simp [ih, Block.same]

theorem insertById_ids (slices : List (Value × Slice)) (id : Value) (key : Key) :
    (insertById slices id key).map (·.1) = Value.insertNew id (slices.map (·.1)) := by
  induction slices with
  | nil => rfl
  | cons entry rest ih =>
      obtain ⟨other, slice⟩ := entry
      simp only [insertById]
      by_cases equal : other.same id = true
      · simp [equal, Value.insertNew, Value.memberOf]
      · simp only [equal, Bool.false_eq_true, if_false, List.map_cons, ih]
        have elsewhere : Value.memberOf id (other :: rest.map (·.1)) =
            Value.memberOf id (rest.map (·.1)) := by
          simp [Value.memberOf, equal]
        simp only [Value.insertNew, elsewhere]
        by_cases member : Value.memberOf id (rest.map (·.1)) = true <;> simp [member]

/-- A key that is put into the slice of an id changes what equal ids find, and nothing
    else. -/
theorem lookup?_insertById {slices : List (Value × Slice)} {id : Value} (key : Key) (b : Value)
    (hashable : ∀ entry ∈ slices, entry.1.hashable = true) (hid : id.hashable = true) :
    Value.lookup? b (insertById slices id key) =
      if id.same b then some (((Value.lookup? b slices).getD []).insert key)
      else Value.lookup? b slices := by
  induction slices with
  | nil => simp [insertById, Value.lookup?]
  | cons entry rest ih =>
      obtain ⟨other, slice⟩ := entry
      have ho : other.hashable = true := hashable (other, slice) List.mem_cons_self
      have hrest := ih fun entry he => hashable entry (List.mem_cons_of_mem _ he)
      simp only [insertById]
      by_cases equal : other.same id = true
      · have congr := Value.same_congr (c := b) ho hid equal
        by_cases found : other.same b = true <;> simp_all [Value.lookup?]
      · by_cases found : other.same b = true
        · have missed : id.same b = false := by
            by_contra same
            exact equal (Value.same_trans ho found
              (Value.same_symm hid (by simpa using same)))
          simp [equal, Value.lookup?, found, missed]
        · simp only [equal, Value.lookup?, found, Bool.false_eq_true, if_false, hrest]

theorem subproblemSlices_concat (table : KeyTable) (key : Key) (own : Block) :
    subproblemSlices (table ++ [(key, own)]) =
      match own with
      | .master => subproblemSlices table
      | .subproblem id => insertById (subproblemSlices table) id key := by
  cases own <;> simp [subproblemSlices]

theorem subproblemSlices_ids (table : KeyTable) :
    (subproblemSlices table).map (·.1) = Value.distinctOf (KeyTable.ids table) := by
  induction table using List.reverseRecOn with
  | nil => rfl
  | append_singleton table entry ih =>
      obtain ⟨key, own⟩ := entry
      rw [subproblemSlices_concat, KeyTable.ids_concat]
      cases own with
      | master => exact ih
      | subproblem id => simp only [insertById_ids, ih, Value.distinctOf_concat]

/-- The slice of an id is what the keys with this id are grouped into. -/
theorem lookup?_subproblemSlices {table : KeyTable} (sound : table.Sound) (id : Value) :
    (Value.lookup? id (subproblemSlices table)).getD [] =
      Slice.ofKeys (table.keysOf (.subproblem id)) := by
  induction table using List.reverseRecOn with
  | nil => rfl
  | append_singleton table entry ih =>
      obtain ⟨key, own⟩ := entry
      have old := ih sound.init
      rw [subproblemSlices_concat, KeyTable.keysOf_concat]
      cases own with
      | master => simpa [Block.same] using old
      | subproblem other =>
          have hashable : ∀ entry ∈ subproblemSlices table, entry.1.hashable = true := by
            intro entry he
            have listed := List.mem_map_of_mem (f := (·.1)) he
            rw [subproblemSlices_ids] at listed
            exact (sound.init.ids_isKey _ (Value.mem_of_mem_distinctOf listed)).hashable
          have hother : other.IsKey := sound.blocks (key, .subproblem other) (by simp)
          simp only [lookup?_insertById key id hashable hother.hashable, Block.same]
          by_cases found : other.same id = true
          · simp [found, old, Slice.ofKeys_concat]
          · simp [found, old]

namespace Assignment

/-- An assignment whose tables are sound. -/
structure Sound (a : Assignment) : Prop where
  vars : a.vars.Sound
  constraints : a.constraints.Sound

end Assignment

namespace Partition

variable {a : Assignment}

/-- The slice of a block holds the variables that are assigned to the block. -/
theorem variablesOf_ofAssignment (sound : a.Sound) (block : Block) :
    (ofAssignment a).variablesOf block = Slice.ofKeys (a.vars.keysOf block) := by
  cases block with
  | master => exact masterSlice_eq a.vars
  | subproblem id => exact lookup?_subproblemSlices sound.vars id

/-- The slice of a block holds the constraints that are assigned to the block. -/
theorem constraintsOf_ofAssignment (sound : a.Sound) (block : Block) :
    (ofAssignment a).constraintsOf block = Slice.ofKeys (a.constraints.keysOf block) := by
  cases block with
  | master => exact masterSlice_eq a.constraints
  | subproblem id => exact lookup?_subproblemSlices sound.constraints id

theorem subproblemIds_perm (a : Assignment) :
    (ofAssignment a).subproblemIds.Perm (Value.distinctOf
      (Value.distinctOf (KeyTable.ids a.vars) ++ Value.distinctOf (KeyTable.ids a.constraints))) := by
  refine (Value.sortIds_perm _).trans ?_
  rw [List.map_append]
  simp only [ofAssignment, subproblemSlices_ids]
  exact .refl _

theorem mem_of_mem_subproblemIds {id : Value} (h : id ∈ (ofAssignment a).subproblemIds) :
    id ∈ KeyTable.ids a.vars ∨ id ∈ KeyTable.ids a.constraints := by
  have listed := Value.mem_of_mem_distinctOf ((subproblemIds_perm a).mem_iff.mp h)
  rw [List.mem_append] at listed
  exact listed.imp Value.mem_of_mem_distinctOf Value.mem_of_mem_distinctOf

/-- The ids of the subproblems are different keys. -/
theorem subproblemIds_distinct (sound : a.Sound) :
    Value.Distinct (ofAssignment a).subproblemIds := by
  refine Value.Distinct.perm (Value.distinctOf_distinct fun id hid => ?_) (subproblemIds_perm a).symm
  rcases List.mem_append.mp hid with h | h
  · exact sound.vars.ids_isKey id (Value.mem_of_mem_distinctOf h)
  · exact sound.constraints.ids_isKey id (Value.mem_of_mem_distinctOf h)

/-- Every id that is assigned is among the ids of the subproblems, in one spelling. -/
theorem exists_same_subproblemIds (sound : a.Sound) {id : Value}
    (h : id ∈ KeyTable.ids a.vars ∨ id ∈ KeyTable.ids a.constraints) :
    ∃ own ∈ (ofAssignment a).subproblemIds, own.same id = true := by
  have hid : id.IsKey := h.elim (sound.vars.ids_isKey id) (sound.constraints.ids_isKey id)
  have spelled : ∃ first ∈ Value.distinctOf (KeyTable.ids a.vars) ++
      Value.distinctOf (KeyTable.ids a.constraints), first.same id = true := by
    simp only [List.mem_append]
    rcases h with h | h
    · obtain ⟨first, hfirst, same⟩ := Value.exists_same_distinctOf h hid
      exact ⟨first, .inl hfirst, same⟩
    · obtain ⟨first, hfirst, same⟩ := Value.exists_same_distinctOf h hid
      exact ⟨first, .inr hfirst, same⟩
  obtain ⟨first, hfirst, same⟩ := spelled
  have hkeys : ∀ v ∈ Value.distinctOf (KeyTable.ids a.vars) ++
      Value.distinctOf (KeyTable.ids a.constraints), v.IsKey := by
    intro v hv
    rcases List.mem_append.mp hv with h | h
    · exact sound.vars.ids_isKey v (Value.mem_of_mem_distinctOf h)
    · exact sound.constraints.ids_isKey v (Value.mem_of_mem_distinctOf h)
  obtain ⟨own, hown, same'⟩ := Value.exists_same_distinctOf hfirst (hkeys first hfirst)
  have howns := (Value.distinctOf_distinct hkeys).keys own hown
  exact ⟨own, (subproblemIds_perm a).mem_iff.mpr hown,
    Value.same_trans howns.hashable same' same⟩

end Partition

end BlockAngular
