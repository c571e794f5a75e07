import BlockAngular.Proofs.Decomposition.Slices

/-! # Assignments of well-formed models

The tables of an assignment list the declared keys with the blocks that the annotation
function gives them. Ids that can be keys are found again, once their NaNs bear marks.
-/

namespace BlockAngular

namespace Value

theorem allHashable_iff {vs : List Value} :
    allHashable vs = true ↔ ∀ v ∈ vs, v.hashable = true := by
  induction vs with
  | nil => simp [allHashable]
  | cons v vs ih => simp [allHashable, ih]

end Value

theorem Block.marked_isKey (mark : Nat) {b : Block}
    (h : ∀ id, b = .subproblem id → id.hashable = true) : (b.marked mark).IsKey := by
  cases b with
  | master => trivial
  | subproblem id => exact Value.marked_isKey mark (h id rfl)

namespace Classify

/-- The table of some keys lists them with the blocks that they are given. -/
theorem table_ok {classify : Classify} {mark : Nat} {keys : List Key} {table : KeyTable}
    (h : classify.table mark keys = .ok table) :
    table.map (·.1) = keys ∧ ∀ key block, (key, block) ∈ table →
      ∃ own mark', classify.resolve key = .ok own ∧ block = own.marked mark' := by
  induction keys generalizing mark table with
  | nil =>
      obtain rfl := Except.ok.inj h
      exact ⟨rfl, by simp⟩
  | cons key rest ih =>
      simp only [Classify.table, Success.bind_ok, Success.pure_ok] at h
      obtain ⟨own, resolved, others, tabled, rfl⟩ := h
      obtain ⟨keys, blocks⟩ := ih tabled
      refine ⟨by simp [keys], fun key' block he => ?_⟩
      rcases List.mem_cons.mp he with first | later
      · cases first
        exact ⟨own, mark, resolved, rfl⟩
      · exact blocks key' block later

/-- A table whose ids can be keys is sound if its keys differ. -/
theorem table_sound {classify : Classify} {mark : Nat} {keys : List Key} {table : KeyTable}
    (h : classify.table mark keys = .ok table) (distinct : Key.Distinct keys)
    (hashable : ∀ id ∈ KeyTable.ids table, id.hashable = true) : table.Sound := by
  obtain ⟨listed, blocks⟩ := table_ok h
  refine ⟨by rwa [listed], fun ⟨key, block⟩ he => ?_⟩
  obtain ⟨own, mark', -, rfl⟩ := blocks key block he
  refine Block.marked_isKey mark' fun id equal => ?_
  subst equal
  have := hashable (id.marked mark') (KeyTable.mem_ids.mpr ⟨key, he⟩)
  simpa using this

end Classify

namespace Assignment

/-- The ids of an assignment, as often as they are given. -/
def ids (a : Assignment) : List Value :=
  KeyTable.ids a.vars ++ KeyTable.ids a.constraints

variable {a : Assignment} {key : Key}

theorem mem_ids_of_vars {own : Block} (he : (key, own) ∈ a.vars) :
    ∀ id, own = .subproblem id → id ∈ a.ids := by
  rintro id rfl
  exact List.mem_append_left _ (KeyTable.mem_ids.mpr ⟨key, he⟩)

theorem mem_ids_of_constraints {own : Block} (he : (key, own) ∈ a.constraints) :
    ∀ id, own = .subproblem id → id ∈ a.ids := by
  rintro id rfl
  exact List.mem_append_right _ (KeyTable.mem_ids.mpr ⟨key, he⟩)

end Assignment

namespace Model

variable {m : Model} {classify : Classify} {a : Assignment}

theorem assignment_ok (h : m.assignment classify = .ok a) :
    (∃ mark, classify.table mark m.variableKeys = .ok a.vars) ∧
      ∃ mark, classify.table mark m.constraintKeys = .ok a.constraints := by
  simp only [assignment, Success.bind_ok, Success.pure_ok] at h
  obtain ⟨vars, tabled, constraints, tabled', rfl⟩ := h
  exact ⟨⟨_, tabled⟩, _, tabled'⟩

/-- The keys that are assigned are the declared ones. -/
theorem assignment_keys (h : m.assignment classify = .ok a) :
    a.vars.map (·.1) = m.variableKeys ∧ a.constraints.map (·.1) = m.constraintKeys := by
  obtain ⟨⟨_, vars⟩, _, constraints⟩ := assignment_ok h
  exact ⟨(Classify.table_ok vars).1, (Classify.table_ok constraints).1⟩

/-- The declared variables are the elements of their keys. -/
theorem vars_elements (wf : m.WellFormed) :
    m.vars.map (·.2) = m.variableKeys.map m.preimageOf := by
  simp only [variableKeys, List.map_map]
  exact List.map_congr_left fun ⟨key, handle⟩ hv => (preimageOf_of_mem_vars wf hv).symm

/-- The declared constraints are the elements of their keys. -/
theorem constraints_elements (wf : m.WellFormed) :
    m.constraints.map (·.2) = m.constraintKeys.map m.preimageOf := by
  simp only [constraintKeys, List.map_map]
  exact List.map_congr_left fun ⟨key, handle⟩ hc => (preimageOf_of_mem_constraints wf hc).symm

theorem declares_of_mem_variableKeys {key : Key} (hk : key ∈ m.variableKeys) : m.Declares key := by
  obtain ⟨entry, he, rfl⟩ := List.mem_map.mp hk
  exact declares_of_mem_vars he

theorem declares_of_mem_constraintKeys {key : Key} (hk : key ∈ m.constraintKeys) :
    m.Declares key := by
  obtain ⟨entry, he, rfl⟩ := List.mem_map.mp hk
  exact declares_of_mem_constraints he

/-- The declared variables are the elements of the keys that are assigned. -/
theorem vars_handles (wf : m.WellFormed) (h : m.assignment classify = .ok a) :
    m.vars.map (·.2) = a.vars.map fun entry => m.preimageOf entry.1 := by
  rw [vars_elements wf, ← (assignment_keys h).1, List.map_map]
  rfl

/-- The declared constraints are the elements of the keys that are assigned. -/
theorem constraints_handles (wf : m.WellFormed) (h : m.assignment classify = .ok a) :
    m.constraints.map (·.2) = a.constraints.map fun entry => m.preimageOf entry.1 := by
  rw [constraints_elements wf, ← (assignment_keys h).2, List.map_map]
  rfl

/-- The assignment of a well-formed model is sound if its ids can be keys. -/
theorem assignment_sound (wf : m.WellFormed) (h : m.assignment classify = .ok a)
    (hashable : Value.allHashable (KeyTable.ids a.vars ++ KeyTable.ids a.constraints) = true) :
    a.Sound := by
  obtain ⟨⟨_, vars⟩, _, constraints⟩ := assignment_ok h
  rw [Value.allHashable_iff] at hashable
  exact ⟨Classify.table_sound vars wf.variableKeys_distinct fun id hid =>
      hashable id (List.mem_append_left _ hid),
    Classify.table_sound constraints wf.constraintKeys_distinct fun id hid =>
      hashable id (List.mem_append_right _ hid)⟩

end Model

namespace Key

/-- The order of the keys does not matter. -/
theorem Distinct.perm {keys others : List Key} (h : Distinct keys) (p : keys.Perm others) :
    Distinct others := by
  refine ⟨fun k hk => h.index_areKey k (p.mem_iff.mpr hk), ?_⟩
  have nodup := p.nodup_iff.mp h.nodup
  refine nodup.imp_of_mem fun {a b} ha hb different => ?_
  by_contra same
  exact different (h.eq_of_same (p.mem_iff.mpr ha) (p.mem_iff.mpr hb) (by simpa using same))

end Key

namespace Slice

/-- What declared keys are grouped into is a sound slice. -/
theorem ofKeys_sound {m : Model} {keys : List Key} (distinct : Key.Distinct keys)
    (declared : ∀ key ∈ (ofKeys keys).keys, m.Declares key) : (ofKeys keys).Sound m where
  declared := declared
  distinct := distinct.perm (keys_ofKeys_perm distinct).symm
  grouped := grouped_ofKeys keys

end Slice

namespace Partition

variable {m : Model} {classify : Classify} {a : Assignment}

/-- The slices of the variables hold declared variables. -/
theorem mem_variableKeys (h : m.assignment classify = .ok a) (sound : a.Sound) (block : Block)
    {key : Key} (hk : key ∈ ((ofAssignment a).variablesOf block).keys) : key ∈ m.variableKeys := by
  rw [variablesOf_ofAssignment sound,
    (Slice.keys_ofKeys_perm (sound.vars.keysOf_distinct block)).mem_iff] at hk
  obtain ⟨own, he, -⟩ := KeyTable.mem_keysOf.mp hk
  rw [← (Model.assignment_keys h).1]
  exact List.mem_map_of_mem (f := (·.1)) he

/-- The slices of the constraints hold declared constraints. -/
theorem mem_constraintKeys (h : m.assignment classify = .ok a) (sound : a.Sound) {block : Block}
    {key : Key} (hk : key ∈ ((ofAssignment a).constraintsOf block).keys) :
    key ∈ m.constraintKeys := by
  rw [constraintsOf_ofAssignment sound,
    (Slice.keys_ofKeys_perm (sound.constraints.keysOf_distinct block)).mem_iff] at hk
  obtain ⟨own, he, -⟩ := KeyTable.mem_keysOf.mp hk
  rw [← (Model.assignment_keys h).2]
  exact List.mem_map_of_mem (f := (·.1)) he

/-- The slices of the variables are sound. -/
theorem variablesOf_sound (h : m.assignment classify = .ok a) (sound : a.Sound) (block : Block) :
    ((ofAssignment a).variablesOf block).Sound m := by
  have declared : ∀ key ∈ ((ofAssignment a).variablesOf block).keys, m.Declares key := by
    intro key hk
    obtain ⟨⟨key', handle⟩, hv, rfl⟩ := List.mem_map.mp (mem_variableKeys h sound _ hk)
    exact Model.declares_of_mem_vars hv
  rw [variablesOf_ofAssignment sound] at declared ⊢
  exact Slice.ofKeys_sound (sound.vars.keysOf_distinct block) declared

/-- The slices of the constraints are sound. -/
theorem constraintsOf_sound (h : m.assignment classify = .ok a) (sound : a.Sound)
    (block : Block) : ((ofAssignment a).constraintsOf block).Sound m := by
  have declared : ∀ key ∈ ((ofAssignment a).constraintsOf block).keys, m.Declares key := by
    intro key hk
    obtain ⟨⟨key', handle⟩, hc, rfl⟩ := List.mem_map.mp (mem_constraintKeys h sound hk)
    exact Model.declares_of_mem_constraints hc
  rw [constraintsOf_ofAssignment sound] at declared ⊢
  exact Slice.ofKeys_sound (sound.constraints.keysOf_distinct block) declared

/-- A name in the slice of the variables is that of a component with variables. -/
theorem content_of_variables (h : m.assignment classify = .ok a) (sound : a.Sound) {block : Block}
    {name : String} (hn : name ∈ ((ofAssignment a).variablesOf block).map (·.1)) :
    ∃ c ∈ m.components, c.name = name ∧ ∃ family, c.content = .vars family := by
  obtain ⟨⟨_, indices⟩, he, rfl⟩ := List.mem_map.mp hn
  obtain ⟨row, hr⟩ := List.exists_mem_of_ne_nil _
    ((variablesOf_sound h sound block).grouped.nonempty _ he)
  obtain ⟨⟨key, handle⟩, hv, named⟩ := List.mem_map.mp (mem_variableKeys h sound block
    (List.mem_flatMap.mpr ⟨_, he, List.mem_map_of_mem hr⟩))
  obtain ⟨c, component, family, content, _, _, _, -, rfl, -⟩ := Model.mem_vars.mp hv
  exact ⟨c, component, (Key.mk.inj named).1, family, content⟩

/-- A name in the slice of the constraints is that of a component with constraints. -/
theorem content_of_constraints (h : m.assignment classify = .ok a) (sound : a.Sound)
    {block : Block} {name : String}
    (hn : name ∈ ((ofAssignment a).constraintsOf block).map (·.1)) :
    ∃ c ∈ m.components, c.name = name ∧ ∃ active family, c.content = .constraints active family := by
  obtain ⟨⟨_, indices⟩, he, rfl⟩ := List.mem_map.mp hn
  obtain ⟨row, hr⟩ := List.exists_mem_of_ne_nil _
    ((constraintsOf_sound h sound block).grouped.nonempty _ he)
  obtain ⟨⟨key, handle⟩, hc, named⟩ := List.mem_map.mp (mem_constraintKeys h sound
    (List.mem_flatMap.mpr ⟨_, he, List.mem_map_of_mem hr⟩))
  obtain ⟨c, component, family, content, _, _, _, -, -, rfl, -⟩ := Model.mem_constraints.mp hc
  exact ⟨c, component, (Key.mk.inj named).1, true, family, content⟩

/-- No name has both variables and constraints. -/
theorem names_apart (wf : m.WellFormed) (h : m.assignment classify = .ok a) (sound : a.Sound)
    (block : Block) : (((ofAssignment a).variablesOf block).map (·.1) ++
      ((ofAssignment a).constraintsOf block).map (·.1)).Nodup := by
  refine List.nodup_append.mpr ⟨(variablesOf_sound h sound block).grouped.names_nodup,
    (constraintsOf_sound h sound block).grouped.names_nodup, ?_⟩
  rintro _ hv _ hc rfl
  obtain ⟨c, component, named, family, content⟩ := content_of_variables h sound hv
  obtain ⟨c', component', named', active, family', content'⟩ := content_of_constraints h sound hc
  obtain rfl := Model.component_unique wf.names_nodup component component' (named.trans named'.symm)
  cases content.symm.trans content'

end Partition

end BlockAngular
