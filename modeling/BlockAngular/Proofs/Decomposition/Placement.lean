import BlockAngular.Proofs.Decomposition.Targets

/-! # Where images are placed

The keys of a table of blocks are grouped by block, and each group has its images in the
model of its block. A registry that covers the table has these images and no others, so
that it maps the elements of the keys one to one onto the places in the models.
-/

namespace BlockAngular

namespace Slice

/-- The keys of a slice with their images in the model of a number. -/
def imagesIn (slice : Slice) (id : Nat) : List (Key × Handle) :=
  slice.places.map fun (key, position) => (key, ⟨id, key.name, position⟩)

variable {slice : Slice} {id : Nat}

theorem imagesIn_keys (slice : Slice) (id : Nat) :
    (slice.imagesIn id).map (·.1) = slice.places.map (·.1) := by
  simp [imagesIn, Function.comp_def]

theorem mem_keys_of_mem_imagesIn {key : Key} {image : Handle}
    (h : (key, image) ∈ slice.imagesIn id) : key ∈ slice.keys := by
  rw [← (places_keys_perm slice).mem_iff, ← imagesIn_keys slice id]
  exact List.mem_map_of_mem (f := (·.1)) h

theorem exists_image_of_mem_keys {key : Key} (h : key ∈ slice.keys) (id : Nat) :
    ∃ image, (key, image) ∈ slice.imagesIn id := by
  rw [← (places_keys_perm slice).mem_iff, ← imagesIn_keys slice id] at h
  obtain ⟨⟨_, image⟩, he, rfl⟩ := List.mem_map.mp h
  exact ⟨image, he⟩

/-- An image is in the component that its key names. -/
theorem of_mem_imagesIn {key : Key} {image : Handle} (h : (key, image) ∈ slice.imagesIn id) :
    image.model = id ∧ image.component = key.name := by
  simp only [imagesIn, List.mem_map, Prod.exists] at h
  obtain ⟨_, position, -, equal⟩ := h
  cases equal
  exact ⟨rfl, rfl⟩

theorem imagesIn_nodup (grouped : Grouped slice) (id : Nat) :
    ((slice.imagesIn id).map (·.2)).Nodup := by
  have placed : (slice.imagesIn id).map (·.2) =
      (slice.places.map fun place => (place.1.name, place.2)).map
        fun place => ⟨id, place.1, place.2⟩ := by
    simp [imagesIn, Function.comp_def]
  rw [placed]
  refine (places_nodup grouped).map fun a b equal => ?_
  simp only [Handle.mk.injEq, true_and] at equal
  exact Prod.ext equal.1 equal.2

end Slice

namespace KeyTable

/-- The slice of a block. -/
def sliceOf (table : KeyTable) (block : Block) : Slice :=
  Slice.ofKeys (table.keysOf block)

theorem Sound.mem_sliceOf {table : KeyTable} (h : table.Sound) {block : Block} {key : Key} :
    key ∈ (table.sliceOf block).keys ↔ ∃ own, (key, own) ∈ table ∧ own.same block = true := by
  rw [sliceOf, (Slice.keys_ofKeys_perm (h.keysOf_distinct block)).mem_iff, mem_keysOf]

end KeyTable

/-- Where all members of a list but one contribute nothing. -/
theorem flatMap_eq_of_only {α β : Type} {l : List α} (nodup : l.Nodup) {a : α} (ha : a ∈ l)
    {f : α → List β} (only : ∀ b ∈ l, b ≠ a → f b = []) : l.flatMap f = f a := by
  obtain ⟨before, after, rfl⟩ := List.append_of_mem ha
  obtain ⟨-, rest, apart⟩ := List.nodup_append.mp nodup
  have first : before.flatMap f = [] := List.flatMap_eq_nil_iff.mpr fun b hb =>
    only b (by simp [hb]) (apart b hb a List.mem_cons_self)
  have last : after.flatMap f = [] := List.flatMap_eq_nil_iff.mpr fun b hb =>
    only b (by simp [hb]) fun equal => (List.nodup_cons.mp rest).1 (equal ▸ hb)
  simp [first, last]

namespace Decomposition

variable {ids : List Value}

theorem mem_numbered {b : Block × Nat} : b ∈ numbered ids ↔ (blocks ids)[b.2]? = some b.1 :=
  List.mem_zipIdx_iff_getElem?

theorem master_numbered (ids : List Value) : (Block.master, 0) ∈ numbered ids :=
  mem_numbered.mpr rfl

theorem numbers_nodup : ((numbered ids).map (·.2)).Nodup := by
  rw [numbered, List.zipIdx_map_snd]
  exact List.nodup_range'

theorem numbered_nodup : (numbered ids).Nodup :=
  numbers_nodup.of_map

theorem exists_number {block : Block} (h : block ∈ blocks ids) :
    ∃ number, (block, number) ∈ numbered ids := by
  obtain ⟨number, here⟩ := List.getElem?_of_mem h
  exact ⟨number, mem_numbered.mpr here⟩

theorem blocks_isKey (distinct : Value.Distinct ids) {block : Block} (h : block ∈ blocks ids) :
    block.IsKey := by
  simp only [blocks, List.mem_cons, List.mem_map] at h
  rcases h with rfl | ⟨id, hid, rfl⟩
  · trivial
  · exact distinct.keys id hid

theorem block_mem {b : Block × Nat} (h : b ∈ numbered ids) : b.1 ∈ blocks ids :=
  List.mem_of_getElem? (mem_numbered.mp h)

theorem blocks_pairwise (distinct : Value.Distinct ids) :
    (blocks ids).Pairwise fun a b => a.same b = false := by
  refine List.pairwise_cons.mpr ⟨?_, ?_⟩
  · simp only [List.mem_map]
    rintro _ ⟨id, -, rfl⟩
    rfl
  · exact List.pairwise_map.mpr distinct.pairwise

/-- Equal blocks have one number. -/
theorem numbered_unique (distinct : Value.Distinct ids) {b b' : Block × Nat}
    (h : b ∈ numbered ids) (h' : b' ∈ numbered ids) (same : b.1.same b'.1 = true) : b = b' := by
  have earlier : ∀ {b b' : Block × Nat}, b ∈ numbered ids → b' ∈ numbered ids → b.2 < b'.2 →
      b.1.same b'.1 = false := by
    intro b b' h h' before
    obtain ⟨within, here⟩ := List.getElem?_eq_some_iff.mp (mem_numbered.mp h)
    obtain ⟨within', here'⟩ := List.getElem?_eq_some_iff.mp (mem_numbered.mp h')
    rw [← here, ← here']
    exact List.pairwise_iff_getElem.mp (blocks_pairwise distinct) b.2 b'.2 within within' before
  rcases Nat.lt_trichotomy b.2 b'.2 with before | equal | after
  · simp [earlier h h' before] at same
  · refine Prod.ext ?_ equal
    have here := mem_numbered.mp h
    rw [equal, mem_numbered.mp h'] at here
    exact (Option.some.inj here).symm
  · have back := Block.same_symm (blocks_isKey distinct (block_mem h)) same
    simp [earlier h' h after] at back

/-- The registrations for the keys of a table, block by block. -/
def placements (first : Nat) (m : Model) (ids : List Value) (table : KeyTable) :
    List Registration :=
  (numbered ids).flatMap fun b => ((table.sliceOf b.1).imagesIn (first + b.2)).map
    fun (key, image) => ⟨m.preimageOf key, image, b.1⟩

/-- The images of the keys of a table, block by block. -/
def imagesFor (first : Nat) (ids : List Value) (table : KeyTable) : List (Key × Handle) :=
  (numbered ids).flatMap fun b => (table.sliceOf b.1).imagesIn (first + b.2)

end Decomposition

open Decomposition

namespace Registry

/-- A registry that is a bijection between some preimages and some images. -/
structure IsBijection (r : Registry) (preimages images : List Handle) : Prop where
  total : ∀ preimage, preimage ∈ preimages ↔ ∃ image, r.image? preimage = some image
  onto : ∀ image, image ∈ images ↔ ∃ preimage, r.image? preimage = some image
  injective : ∀ preimage preimage' image, r.image? preimage = some image →
    r.image? preimage' = some image → preimage = preimage'

/-- A registry that has the images for a table of blocks and nothing else. -/
structure Covers (r : Registry) (first : Nat) (m : Model) (ids : List Value) (table : KeyTable) :
    Prop where
  sound : table.Sound
  ids_distinct : Value.Distinct ids
  blocks : ∀ entry ∈ table, ∃ block ∈ Decomposition.blocks ids, block.same entry.2 = true
  registered : Extends (placements first m ids table) .empty r

namespace Covers

variable {r : Registry} {first : Nat} {m : Model} {ids : List Value} {table : KeyTable}

theorem mem_registrations (h : r.Covers first m ids table) {e : Registration} :
    e ∈ r.registrations ↔ ∃ b ∈ numbered ids, ∃ key image,
      (key, image) ∈ (table.sliceOf b.1).imagesIn (first + b.2) ∧
        e = ⟨m.preimageOf key, image, b.1⟩ := by
  rw [h.registered.registrations]
  simp [empty, placements, eq_comm]

theorem images_nodup (h : r.Covers first m ids table) :
    (r.registrations.map (·.image)).Nodup := by
  have listed : r.registrations.map (·.image) = (numbered ids).flatMap fun b =>
      ((table.sliceOf b.1).imagesIn (first + b.2)).map (·.2) := by
    rw [h.registered.registrations]
    simp [empty, placements, List.map_flatMap, Function.comp_def]
  rw [listed]
  refine List.nodup_flatMap.mpr
    ⟨fun b _ => Slice.imagesIn_nodup (Slice.grouped_ofKeys _) _, ?_⟩
  refine (List.pairwise_map.mp numbers_nodup).imp fun {b b'} different => ?_
  simp only [Function.onFun, List.disjoint_left, List.mem_map, Prod.exists, exists_eq_right]
  rintro image ⟨key, he⟩ ⟨key', he'⟩
  have model := (Slice.of_mem_imagesIn he).1
  rw [(Slice.of_mem_imagesIn he').1] at model
  exact different (by omega)

theorem faithful (h : r.Covers first m ids table) : r.Faithful :=
  (h.registered.grown grown_empty).faithful h.images_nodup

theorem imagesOf_nodup (h : r.Covers first m ids table) (block : Block) :
    (r.imagesOf block).Nodup := by
  rw [h.faithful.imagesOf_eq]
  exact h.images_nodup.sublist (List.filter_sublist.map _)

/-- A key of the table has one image, in the model of its block. -/
theorem exists_image (h : r.Covers first m ids table) {key : Key} {own : Block}
    (he : (key, own) ∈ table) : ∃ b ∈ numbered ids, b.1.same own = true ∧ ∃ image,
      (key, image) ∈ (table.sliceOf b.1).imagesIn (first + b.2) := by
  obtain ⟨block, hblock, same⟩ := h.blocks _ he
  obtain ⟨number, hb⟩ := exists_number hblock
  have back := Block.same_symm (blocks_isKey h.ids_distinct hblock) same
  exact ⟨(block, number), hb, same,
    Slice.exists_image_of_mem_keys (h.sound.mem_sliceOf.mpr ⟨own, he, back⟩) _⟩

section Place

variable {b : Block × Nat} {key : Key} {image : Handle}

theorem image?_eq (h : r.Covers first m ids table) (hb : b ∈ numbered ids)
    (he : (key, image) ∈ (table.sliceOf b.1).imagesIn (first + b.2)) :
    r.image? (m.preimageOf key) = some image :=
  h.faithful.image?_iff.mpr
    ⟨_, h.mem_registrations.mpr ⟨b, hb, key, image, he, rfl⟩, rfl, rfl⟩

theorem owner?_eq (h : r.Covers first m ids table) (hb : b ∈ numbered ids)
    (he : (key, image) ∈ (table.sliceOf b.1).imagesIn (first + b.2)) :
    r.owner? (m.preimageOf key) = some b.1 :=
  h.faithful.owner?_iff.mpr
    ⟨_, h.mem_registrations.mpr ⟨b, hb, key, image, he, rfl⟩, rfl, rfl⟩

theorem imageOwner?_eq (h : r.Covers first m ids table) (hb : b ∈ numbered ids)
    (he : (key, image) ∈ (table.sliceOf b.1).imagesIn (first + b.2)) :
    r.imageOwner? image = some b.1 :=
  h.faithful.imageOwner?_iff.mpr
    ⟨_, h.mem_registrations.mpr ⟨b, hb, key, image, he, rfl⟩, rfl, rfl⟩

/-- An image lives in a block if its own block is that one. -/
theorem image_of_owner (h : r.Covers first m ids table) {block : Block}
    (owned : r.imageOwner? image = some block) : ∃ b ∈ numbered ids, b.1 = block ∧ ∃ key,
      (key, image) ∈ (table.sliceOf b.1).imagesIn (first + b.2) := by
  obtain ⟨e, he, rfl, rfl⟩ := h.faithful.imageOwner?_iff.mp owned
  obtain ⟨b, hb, key, image, listed, rfl⟩ := h.mem_registrations.mp he
  exact ⟨b, hb, rfl, key, listed⟩

end Place

/-- The registry maps the elements of the table onto their places, one to one. -/
theorem isBijection (h : r.Covers first m ids table) :
    r.IsBijection (table.map fun entry => m.preimageOf entry.1)
      ((imagesFor first ids table).map (·.2)) where
  total preimage := by
    constructor
    · intro listed
      obtain ⟨⟨key, own⟩, he, rfl⟩ := List.mem_map.mp listed
      obtain ⟨b, hb, -, image, placed⟩ := h.exists_image he
      exact ⟨image, h.image?_eq hb placed⟩
    · rintro ⟨image, found⟩
      obtain ⟨e, he, rfl, -⟩ := h.faithful.image?_iff.mp found
      obtain ⟨b, hb, key, image, placed, rfl⟩ := h.mem_registrations.mp he
      obtain ⟨own, listed, -⟩ := h.sound.mem_sliceOf.mp (Slice.mem_keys_of_mem_imagesIn placed)
      exact List.mem_map.mpr ⟨(key, own), listed, rfl⟩
  onto image := by
    simp only [imagesFor, List.mem_map, List.mem_flatMap, Prod.exists, exists_eq_right]
    constructor
    · rintro ⟨key, block, number, hb, placed⟩
      exact ⟨_, h.image?_eq hb placed⟩
    · rintro ⟨preimage, found⟩
      obtain ⟨e, he, -, rfl⟩ := h.faithful.image?_iff.mp found
      obtain ⟨⟨block, number⟩, hb, key, image, placed, rfl⟩ := h.mem_registrations.mp he
      exact ⟨key, block, number, hb, placed⟩
  injective _ _ _ ha hb := h.faithful.image?_injective ha hb

/-- The images in a block are those of the slice of the block, in the order of the slice. -/
theorem imagesOf_eq (h : r.Covers first m ids table) {b : Block × Nat} (hb : b ∈ numbered ids)
    {block : Block} (same : b.1.same block = true) :
    r.imagesOf block = ((table.sliceOf b.1).imagesIn (first + b.2)).map (·.2) := by
  have listed (b' : Block × Nat) : ((((table.sliceOf b'.1).imagesIn (first + b'.2)).map
      fun (key, image) => (⟨m.preimageOf key, image, b'.1⟩ : Registration)).filter
        fun e => e.block.same block).map (·.image) =
          if b'.1.same block then ((table.sliceOf b'.1).imagesIn (first + b'.2)).map (·.2)
          else [] := by
    rw [List.filter_map, List.map_map]
    by_cases own : b'.1.same block = true <;> simp [own, Function.comp_def]
  have only : ∀ b' ∈ numbered ids, b' ≠ b → b'.1.same block = false := by
    intro b' hb' other
    by_contra own
    exact other (numbered_unique h.ids_distinct hb' hb (Block.same_trans
      (blocks_isKey h.ids_distinct (block_mem hb')) (by simpa using own)
      (Block.same_symm (blocks_isKey h.ids_distinct (block_mem hb)) same)))
  rw [h.faithful.imagesOf_eq, h.registered.registrations]
  simp only [empty, List.nil_append, placements, List.filter_flatMap, List.map_flatMap, listed]
  rw [flatMap_eq_of_only numbered_nodup hb fun b' hb' other => by simp [only b' hb' other]]
  simp [same]

/-- A block that is none of the blocks has no images. -/
theorem imagesOf_eq_nil (h : r.Covers first m ids table) {block : Block}
    (none : ∀ own ∈ Decomposition.blocks ids, own.same block = false) : r.imagesOf block = [] := by
  rw [h.faithful.imagesOf_eq, List.map_eq_nil_iff, List.filter_eq_nil_iff]
  intro e he
  obtain ⟨b, hb, key, image, -, rfl⟩ := h.mem_registrations.mp he
  simp [none b.1 (block_mem hb)]

end Covers

end Registry

namespace Partition

variable {a : Assignment} {first : Nat} {m : Model} {r : Registry}

/-- Every assigned block is one of the blocks of the partition, in one spelling. -/
theorem exists_block (sound : a.Sound) {key : Key} {own : Block}
    (he : (key, own) ∈ a.vars ∨ (key, own) ∈ a.constraints) :
    ∃ block ∈ blocks (ofAssignment a).subproblemIds, block.same own = true := by
  cases own with
  | master => exact ⟨.master, by simp [blocks], rfl⟩
  | subproblem id =>
      obtain ⟨own, hown, same⟩ := exists_same_subproblemIds sound
        (he.imp (fun he => KeyTable.mem_ids.mpr ⟨key, he⟩) fun he => KeyTable.mem_ids.mpr ⟨key, he⟩)
      exact ⟨.subproblem own, by simp [blocks, hown], same⟩

/-- Registering the variables block by block covers the table of the variables. -/
theorem vars_cover (sound : a.Sound)
    (h : Registry.Extends ((numbered (ofAssignment a).subproblemIds).flatMap fun b =>
      m.registrations (first + b.2) b.1 ((ofAssignment a).variablesOf b.1).places) .empty r) :
    r.Covers first m (ofAssignment a).subproblemIds a.vars where
  sound := sound.vars
  ids_distinct := subproblemIds_distinct sound
  blocks _ he := exists_block sound (.inl he)
  registered := by
    simp only [variablesOf_ofAssignment sound] at h
    simpa [placements, Slice.imagesIn, Model.registrations, KeyTable.sliceOf, Function.comp_def]
      using h

/-- Registering the constraints block by block covers the table of the constraints. -/
theorem constraints_cover (sound : a.Sound)
    (h : Registry.Extends ((numbered (ofAssignment a).subproblemIds).flatMap fun b =>
      m.registrations (first + b.2) b.1 ((ofAssignment a).constraintsOf b.1).places) .empty r) :
    r.Covers first m (ofAssignment a).subproblemIds a.constraints where
  sound := sound.constraints
  ids_distinct := subproblemIds_distinct sound
  blocks _ he := exists_block sound (.inr he)
  registered := by
    simp only [constraintsOf_ofAssignment sound] at h
    simpa [placements, Slice.imagesIn, Model.registrations, KeyTable.sliceOf, Function.comp_def]
      using h

end Partition

namespace Reformulation.Trace

variable {first : Nat} {m : Model} {classify : Classify} {config : Config} {r : Reformulation}

theorem ids_distinct (h : r.Trace first m classify config) : Value.Distinct r.ids := by
  rw [h.ids_eq, h.partition_eq]
  exact Partition.subproblemIds_distinct h.sound

theorem variablesOf_eq (h : r.Trace first m classify config) (block : Block) :
    r.partition.variablesOf block = r.assignment.vars.sliceOf block := by
  rw [h.partition_eq]
  exact Partition.variablesOf_ofAssignment h.sound block

theorem constraintsOf_eq (h : r.Trace first m classify config) (block : Block) :
    r.partition.constraintsOf block = r.assignment.constraints.sliceOf block := by
  rw [h.partition_eq]
  exact Partition.constraintsOf_ofAssignment h.sound block

/-- What goes to a block is declared. -/
theorem declared_column (h : r.Trace first m classify config) {block : Block} {key : Key}
    (hk : key ∈ (r.assignment.vars.sliceOf block).keys) : key ∈ m.variableKeys := by
  obtain ⟨own, he, -⟩ := h.sound.vars.mem_sliceOf.mp hk
  rw [← (Model.assignment_keys h.assigned).1]
  exact List.mem_map_of_mem (f := (·.1)) he

theorem declared_row (h : r.Trace first m classify config) {block : Block} {key : Key}
    (hk : key ∈ (r.assignment.constraints.sliceOf block).keys) : key ∈ m.constraintKeys := by
  obtain ⟨own, he, -⟩ := h.sound.constraints.mem_sliceOf.mp hk
  rw [← (Model.assignment_keys h.assigned).2]
  exact List.mem_map_of_mem (f := (·.1)) he

/-- Every assigned block is one of the blocks of the decomposition, in one spelling. -/
theorem exists_block (h : r.Trace first m classify config) {key : Key} {own : Block}
    (he : (key, own) ∈ r.assignment.vars ∨ (key, own) ∈ r.assignment.constraints) :
    ∃ block ∈ blocks r.ids, block.same own = true := by
  rw [h.ids_eq, h.partition_eq]
  exact Partition.exists_block h.sound he

theorem vars_covers (h : r.Trace first m classify config) :
    r.vars.Covers first m r.ids r.assignment.vars := by
  have listed := h.vars
  rw [h.ids_eq, h.partition_eq] at listed ⊢
  exact Partition.vars_cover h.sound listed

theorem constraints_covers (h : r.Trace first m classify config) :
    r.constraints.Covers first m r.ids r.assignment.constraints := by
  have listed := h.constraints
  rw [h.ids_eq, h.partition_eq] at listed ⊢
  exact Partition.constraints_cover h.sound listed

end Reformulation.Trace

end BlockAngular
