import BlockAngular.Proofs.Decomposition.Shares

/-! # Slices tell the table

The slices of an assignment neither lose a key nor hold one twice, and what they hold are keys of
the assignment. So the blocks of all keys can be read off the slices again, but for the spelling
of the ids.
-/

namespace BlockAngular

namespace Slice

/-- Whether a slice holds a key that is equal to this one. -/
def holds (slice : Slice) (key : Key) : Bool :=
  slice.any fun entry => entry.1 == key.name && holdsIndex entry.2 key.index

theorem holds_iff {slice : Slice} {key : Key} :
    slice.holds key = true ↔ ∃ own ∈ slice.keys, own.same key = true := by
  simp only [holds, holdsIndex, keys, List.any_eq_true, Bool.and_eq_true, beq_iff_eq,
    List.mem_flatMap, List.mem_map, Key.same_iff]
  constructor
  · rintro ⟨entry, he, named, index, hi, same⟩
    exact ⟨_, ⟨entry, he, index, hi, rfl⟩, named, same⟩
  · rintro ⟨_, ⟨entry, he, index, hi, rfl⟩, named, same⟩
    exact ⟨entry, he, named, index, hi, same⟩

end Slice

namespace Partition

/-- The slices of the variables with their blocks. -/
def variableSlices (p : Partition) : List (Block × Slice) :=
  (.master, p.masterVariables) :: p.subproblemVariables.map fun e => (.subproblem e.1, e.2)

/-- The slices of the constraints with their blocks. -/
def constraintSlices (p : Partition) : List (Block × Slice) :=
  (.master, p.masterConstraints) :: p.subproblemConstraints.map fun e => (.subproblem e.1, e.2)

end Partition

namespace KeyTable

/-- The table that slices with their blocks make. -/
def ofSlices (slices : List (Block × Slice)) : KeyTable :=
  slices.flatMap fun part => part.2.keys.map (·, part.1)

/-- Two tables of the same keys that give them equal blocks. -/
structure Agrees (table other : KeyTable) : Prop where
  keys : (table.map (·.1)).Perm (other.map (·.1))
  blocks : ∀ key own block, (key, own) ∈ table → (key, block) ∈ other → own.same block = true

/-- Slices with their blocks that a table is split into; `sliceOf` tells the slice of a block. -/
structure SplitsInto (table : KeyTable) (slices : List (Block × Slice))
    (sliceOf : Block → Slice) : Prop where
  /-- Each key lies in one slice and in no other one, and that slice is the one of its block. -/
  placed : ∀ key own, (key, own) ∈ table → ∃ block, own.same block = true ∧
    slices.filter (fun part => part.2.holds key) = [(block, sliceOf own)]
  /-- No slice holds an index twice, or one that is not a key of the table. -/
  known : ∀ part ∈ slices, Key.Distinct part.2.keys ∧
    ∀ key, part.2.holds key = true → ∃ own ∈ table.map (·.1), own.same key = true
  /-- The table can be rebuilt from the slices. -/
  rebuilt : (ofSlices slices).Sound ∧ table.Agrees (ofSlices slices)

variable {table : KeyTable}

/-- The blocks that are told apart among those of a table, and the master. -/
def ownBlocks (table : KeyTable) : List Block :=
  Decomposition.blocks (Value.distinctOf (ids table))

namespace Sound

theorem ids_distinct (h : table.Sound) : Value.Distinct (Value.distinctOf (ids table)) :=
  Value.distinctOf_distinct h.ids_isKey

theorem ownBlocks_nodup (h : table.Sound) : table.ownBlocks.Nodup :=
  (Decomposition.blocks_pairwise h.ids_distinct).imp_of_mem fun {a b} ha _ apart equal => by
    rw [← equal, Block.same_self (Decomposition.blocks_isKey h.ids_distinct ha)] at apart
    cases apart

/-- A block of the table is told apart from all of them but one. -/
theorem exists_ownBlock (h : table.Sound) {key : Key} {own : Block} (he : (key, own) ∈ table) :
    ∃ block ∈ table.ownBlocks, own.same block = true ∧
      ∀ other ∈ table.ownBlocks, own.same other = true → other = block := by
  have isKey := h.blocks _ he
  cases own with
  | master =>
      refine ⟨.master, List.mem_cons_self, rfl, fun other _ same => ?_⟩
      cases other with
      | master => rfl
      | subproblem id => cases same
  | subproblem id =>
      obtain ⟨first, listed, same⟩ := Value.exists_same_distinctOf (mem_ids.mpr ⟨key, he⟩) isKey
      have firstIsKey := h.ids_distinct.keys first listed
      refine ⟨.subproblem first, List.mem_cons_of_mem _ (List.mem_map_of_mem listed),
        Value.same_symm firstIsKey.hashable same, fun other ho equal => ?_⟩
      rcases List.mem_cons.mp ho with rfl | ho
      · cases equal
      · obtain ⟨id', listed', rfl⟩ := List.mem_map.mp ho
        rw [h.ids_distinct.unique listed' listed (Value.same_symm isKey.hashable equal) same]

/-- The slices that grouping makes are those of the blocks. -/
theorem slices_eq (h : table.Sound) :
    (Block.master, masterSlice table) ::
        (subproblemSlices table).map (fun e => (Block.subproblem e.1, e.2)) =
      table.ownBlocks.map fun block => (block, table.sliceOf block) := by
  have own : ∀ e ∈ subproblemSlices table, e.2 = table.sliceOf (.subproblem e.1) := by
    intro e he
    have distinct := h.ids_distinct
    rw [← subproblemSlices_ids] at distinct
    have isKey := distinct.keys e.1 (List.mem_map_of_mem he)
    have found := Value.lookup?_of_mem distinct he isKey.same_self
    have slice := lookup?_subproblemSlices h e.1
    rwa [found] at slice
  rw [ownBlocks, Decomposition.blocks, List.map_cons, List.map_map, ← subproblemSlices_ids, List.map_map,
    masterSlice_eq]
  congr 1
  exact List.map_congr_left fun e he => congrArg (Block.subproblem e.1, ·) (own e he)

/-- The slice of a block holds the keys with this block. -/
theorem sliceOf_holds (h : table.Sound) {key : Key} {own : Block} (he : (key, own) ∈ table)
    (block : Block) : (table.sliceOf block).holds key = own.same block := by
  have listed := List.mem_map_of_mem (f := (·.1)) he
  rw [Bool.eq_iff_iff, Slice.holds_iff]
  constructor
  · rintro ⟨key', hk, same⟩
    obtain ⟨own', he', there⟩ := h.mem_sliceOf.mp hk
    obtain rfl := h.keys.eq_of_same (List.mem_map_of_mem (f := (·.1)) he') listed same
    rwa [h.block_unique he he']
  · exact fun there => ⟨key, h.mem_sliceOf.mpr ⟨own, he, there⟩, h.keys.same_self listed⟩

/-- Equal blocks have one slice. -/
theorem sliceOf_congr (h : table.Sound) {key : Key} {own block : Block} (he : (key, own) ∈ table)
    (same : own.same block = true) :
    table.sliceOf block = table.sliceOf own := by
  have alike : ∀ e ∈ table, e.2.same block = e.2.same own := fun e hmem => by
    rw [Bool.eq_iff_iff]
    have there := h.blocks e hmem
    exact ⟨fun equal => Block.same_trans there equal (Block.same_symm (h.blocks _ he) same),
      fun equal => Block.same_trans there equal same⟩
  rw [sliceOf, sliceOf, keysOf, keysOf, List.filter_congr alike]

theorem placed (h : table.Sound) {key : Key} {own : Block} (he : (key, own) ∈ table) :
    ∃ block, own.same block = true ∧
      (table.ownBlocks.map fun block => (block, table.sliceOf block)).filter
        (fun part => part.2.holds key) = [(block, table.sliceOf own)] := by
  obtain ⟨block, listed, same, only⟩ := h.exists_ownBlock he
  have one : table.ownBlocks.filter (own.same ·) = [block] := by
    refine List.perm_singleton.mp ((List.perm_ext_iff_of_nodup (h.ownBlocks_nodup.filter _)
      (List.nodup_singleton block)).mpr fun other => ?_)
    rw [List.mem_filter, List.mem_singleton]
    exact ⟨fun there => only other there.1 there.2, fun equal => equal ▸ ⟨listed, same⟩⟩
  refine ⟨block, same, ?_⟩
  simp only [List.filter_map, Function.comp_def, h.sliceOf_holds he, one, List.map_cons,
    List.map_nil, h.sliceOf_congr he same]

theorem ofSlices_keys (h : table.Sound) :
    (table.map (·.1)).Perm
      ((ofSlices (table.ownBlocks.map fun block => (block, table.sliceOf block))).map (·.1)) := by
  have grouped : table.Perm (table.ownBlocks.flatMap fun block =>
      table.filter fun entry => entry.2.same block) :=
    perm_flatMap_filter h.ownBlocks_nodup fun entry he => h.exists_ownBlock he
  refine (grouped.map (·.1)).trans ?_
  rw [ofSlices, List.flatMap_map, List.map_flatMap, List.map_flatMap]
  refine List.Perm.flatMap_left _ fun block _ => ?_
  rw [List.map_map]
  exact (Slice.keys_ofKeys_perm (h.keysOf_distinct block)).symm.trans (.of_eq (List.map_id _).symm)

/-- A sound table is split into the slices of its blocks. -/
theorem splitsInto (h : table.Sound) : table.SplitsInto
    (table.ownBlocks.map fun block => (block, table.sliceOf block)) table.sliceOf := by
  refine ⟨fun key own he => h.placed he, fun part hp => ?_, ?_, h.ofSlices_keys, ?_⟩
  · obtain ⟨block, -, rfl⟩ := List.mem_map.mp hp
    refine ⟨(h.keysOf_distinct block).perm (Slice.keys_ofKeys_perm (h.keysOf_distinct block)).symm,
      fun key held => ?_⟩
    obtain ⟨own, hk, same⟩ := Slice.holds_iff.mp held
    obtain ⟨_, he, -⟩ := h.mem_sliceOf.mp hk
    exact ⟨own, List.mem_map_of_mem (f := (·.1)) he, same⟩
  · refine ⟨h.keys.perm h.ofSlices_keys, fun entry he => ?_⟩
    simp only [ofSlices, List.flatMap_map, List.mem_flatMap, List.mem_map] at he
    obtain ⟨block, listed, key, -, rfl⟩ := he
    exact Decomposition.blocks_isKey h.ids_distinct listed
  · intro key own block he hr
    simp only [ofSlices, List.flatMap_map, List.mem_flatMap, List.mem_map, Prod.mk.injEq] at hr
    obtain ⟨_, -, key, hk, rfl, rfl⟩ := hr
    obtain ⟨own', he', same⟩ := h.mem_sliceOf.mp hk
    rwa [h.block_unique he he']

end Sound

end KeyTable

namespace Partition

variable {a : Assignment}

/-- The slices of an assignment hold each key in the slice of its block and nowhere else, the
subproblems are those with a key, and the assignment can be rebuilt from the slices. -/
theorem recovers (sound : a.Sound) : ∃ p, ofAssignment? a = .ok p ∧
    a.vars.SplitsInto p.variableSlices p.variablesOf ∧
    a.constraints.SplitsInto p.constraintSlices p.constraintsOf ∧
    Value.Distinct p.subproblemIds ∧
    (∀ id ∈ p.subproblemIds, id ∈ a.ids) ∧
    ∀ id ∈ a.ids, ∃ own ∈ p.subproblemIds, own.same id = true := by
  have hashable : Value.allHashable a.ids = true := Value.allHashable_iff.mpr fun id hid =>
    ((List.mem_append.mp hid).elim (sound.vars.ids_isKey id) (sound.constraints.ids_isKey id)).hashable
  refine ⟨ofAssignment a, if_pos hashable, ?_, ?_, subproblemIds_distinct sound,
    fun id hid => List.mem_append.mpr (mem_of_mem_subproblemIds hid),
    fun id hid => exists_same_subproblemIds sound (List.mem_append.mp hid)⟩
  · have slices : (ofAssignment a).variableSlices = _ := sound.vars.slices_eq
    have own : (ofAssignment a).variablesOf = _ := funext (variablesOf_ofAssignment sound)
    rw [slices, own]
    exact sound.vars.splitsInto
  · have slices : (ofAssignment a).constraintSlices = _ := sound.constraints.slices_eq
    have own : (ofAssignment a).constraintsOf = _ := funext (constraintsOf_ofAssignment sound)
    rw [slices, own]
    exact sound.constraints.splitsInto

end Partition

/-- Two variables and a constraint with one id in three spellings, and a variable of the master. -/
def spelledThrice : Assignment where
  vars := [(⟨"x", [.int 1]⟩, .subproblem (.tuple [.int 1])), (⟨"y", []⟩, .master),
    (⟨"x", [.str "a", .null]⟩, .subproblem (.tuple [.bool true]))]
  constraints := [(⟨"c", []⟩, .subproblem (.tuple [.float 1.0]))]

theorem spelledThrice_recovers : spelledThrice.Sound ∧
    ∃ p, Partition.ofAssignment? spelledThrice = .ok p ∧
      spelledThrice.vars.SplitsInto p.variableSlices p.variablesOf ∧
      spelledThrice.constraints.SplitsInto p.constraintSlices p.constraintsOf ∧
      ∀ id ∈ p.subproblemIds, id ∈ spelledThrice.ids := by
  have sound : spelledThrice.Sound := ⟨by decide +kernel, by decide +kernel⟩
  obtain ⟨p, grouped, vars, constraints, -, known, -⟩ := Partition.recovers sound
  exact ⟨sound, p, grouped, vars, constraints, known⟩

example : (Partition.ofAssignment spelledThrice).subproblemIds.length = 1 := by decide +kernel

end BlockAngular
