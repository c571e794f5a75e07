import BlockAngular.Proofs.Assignment

/-! # New ids

The ids of an assignment can be replaced by others. If equal ids get equal ones, every key
moves from its block to the block of the new id, and blocks that get the same id become one.
-/

namespace BlockAngular

namespace Block

/-- A block with a new id. -/
def relabel (f : Value → Value) : Block → Block
  | .master => .master
  | .subproblem id => .subproblem (f id)

@[simp] theorem relabel_same_master (f : Value → Value) (b : Block) :
    (b.relabel f).same .master = b.same .master := by
  cases b <;> rfl

end Block

/-- An annotation function that answers with new ids. -/
def Classify.relabel (f : Value → Value) (classify : Classify) : Classify := fun key =>
  match classify key with
  | .ok (.block b) => .ok (.block (b.relabel f))
  | answer => answer

/-- The table with the new ids. -/
def KeyTable.relabel (f : Value → Value) (table : KeyTable) : KeyTable :=
  table.map fun (key, block) => (key, block.relabel f)

/-- The assignment with the new ids. -/
def Assignment.relabel (f : Value → Value) (a : Assignment) : Assignment :=
  ⟨a.vars.relabel f, a.constraints.relabel f⟩

/-- New ids for some ids. Equal ids get equal ones, and a new id can be a key of a table and of
a component; it has no NaN, and the marks on those of the old ids do not matter. -/
structure NewIds (f : Value → Value) (ids : List Value) : Prop where
  congr : ∀ id ∈ ids, ∀ id' ∈ ids, id.same id' = true → (f id).same (f id') = true
  hashable : ∀ id ∈ ids, (f id).hashable = true
  ordinary : ∀ id ∈ ids, f id ≠ .dots
  unmarked : ∀ id ∈ ids, ∀ mark, (f id).marked mark = f id
  unseen : ∀ v mark, f (v.marked mark) = f v

variable {f : Value → Value}

namespace Classify

variable {classify : Classify} {key : Key}

theorem resolve_relabel {b : Block} (h : classify.resolve key = .ok b) :
    (classify.relabel f).resolve key = .ok (b.relabel f) := by
  unfold resolve at h
  unfold resolve relabel
  split at h
  · rename_i own answer
    rw [answer]
    obtain rfl := Except.ok.inj h
    rfl
  · cases h
  · cases h
  · cases h
  · split at h <;> cases h
  · cases h

end Classify

namespace KeyTable

theorem ids_relabel (f : Value → Value) (table : KeyTable) :
    KeyTable.ids (table.relabel f) = (KeyTable.ids table).map f := by
  rw [KeyTable.ids, relabel, List.filterMap_map, KeyTable.ids, List.map_filterMap]
  refine List.filterMap_congr fun entry _ => ?_
  obtain ⟨key, block⟩ := entry
  cases block <;> rfl

/-- A block that takes over all keys of another one, and no others. -/
def Follows (f : Value → Value) (table : KeyTable) (block block' : Block) : Prop :=
  ∀ entry ∈ table, (entry.2.relabel f).same block' = entry.2.same block

theorem follows_master (f : Value → Value) (table : KeyTable) : table.Follows f .master .master :=
  fun _ _ => Block.relabel_same_master f _

theorem Follows.keysOf {table : KeyTable} {block block' : Block} (h : table.Follows f block block') :
    (table.relabel f).keysOf block' = table.keysOf block := by
  simp only [KeyTable.keysOf, relabel, List.filter_map, List.map_map]
  exact congrArg _ (List.filter_congr h)

end KeyTable

theorem Assignment.ids_relabel (f : Value → Value) (a : Assignment) :
    (a.relabel f).ids = a.ids.map f := by
  simp only [ids, relabel, KeyTable.ids_relabel, List.map_append]

namespace NewIds

variable {ids : List Value}

theorem isKey (new : NewIds f ids) {id : Value} (h : id ∈ ids) : (f id).IsKey := by
  rw [← new.unmarked id h 0]
  exact Value.marked_isKey 0 (new.hashable id h)

/-- The keys of a table get the new ids. -/
theorem table_relabel (new : NewIds f ids) {classify : Classify} {mark : Nat} {keys : List Key}
    {table : KeyTable} (h : classify.table mark keys = .ok table)
    (within : KeyTable.ids table ⊆ ids) :
    (classify.relabel f).table mark keys = .ok (table.relabel f) := by
  induction keys generalizing mark table with
  | nil =>
      obtain rfl := Except.ok.inj h
      rfl
  | cons key rest ih =>
      simp only [Classify.table, Success.bind_ok, Success.pure_ok] at h
      obtain ⟨own, resolved, others, tabled, rfl⟩ := h
      have later : KeyTable.ids others ⊆ ids := fun id hid => within (by
        simp only [KeyTable.ids] at hid ⊢
        exact (List.sublist_cons_self _ _).filterMap _ |>.subset hid)
      have marks : (own.relabel f).marked mark = (own.marked mark).relabel f := by
        cases own with
        | master => rfl
        | subproblem id =>
            have listed : id.marked mark ∈ ids := within (KeyTable.mem_ids.mpr ⟨key, by
              simp [Block.marked]⟩)
            have plain := new.unmarked _ listed mark
            rw [new.unseen] at plain
            simp only [Block.relabel, Block.marked, new.unseen, plain]
      simp only [Classify.table, Classify.resolve_relabel resolved, ih tabled later, bind,
        Except.bind, marks]
      rfl

/-- So do the declared keys of a model. -/
theorem assignment_relabel {a : Assignment} (new : NewIds f a.ids) {m : Model} {classify : Classify}
    (h : m.assignment classify = .ok a) :
    m.assignment (classify.relabel f) = .ok (a.relabel f) := by
  simp only [Model.assignment, Success.bind_ok, Success.pure_ok] at h
  obtain ⟨vars, tabled, constraints, tabled', rfl⟩ := h
  have length : (vars.relabel f).length = vars.length := by simp [KeyTable.relabel]
  simp only [Model.assignment, new.table_relabel tabled (List.subset_append_left _ _), bind,
    Except.bind, length, new.table_relabel tabled' (List.subset_append_right _ _)]
  rfl

/-- Equal blocks get equal blocks. -/
theorem relabel_same (new : NewIds f ids) {a b : Block} (ha : ∀ id, a = .subproblem id → id ∈ ids)
    (hb : ∀ id, b = .subproblem id → id ∈ ids) (same : a.same b = true) :
    (a.relabel f).same (b.relabel f) = true := by
  cases a <;> cases b <;> simp only [Block.same, Bool.false_eq_true] at same
  · rfl
  · exact new.congr _ (ha _ rfl) _ (hb _ rfl) same

theorem relabel_isKey (new : NewIds f ids) {b : Block} (hb : ∀ id, b = .subproblem id → id ∈ ids) :
    (b.relabel f).IsKey := by
  cases b with
  | master => trivial
  | subproblem id => exact new.isKey (hb id rfl)

/-- Where different ids get different ones, the block of the new id takes over the keys. -/
theorem follows (new : NewIds f ids)
    (injective : ∀ id ∈ ids, ∀ id' ∈ ids, (f id).same (f id') = true → id.same id' = true)
    {table : KeyTable} (within : KeyTable.ids table ⊆ ids) {id id' : Value} (hid : id ∈ ids)
    (same : (f id).same id' = true) :
    table.Follows f (.subproblem id) (.subproblem id') := by
  rintro ⟨key, own⟩ he
  cases own with
  | master => rfl
  | subproblem own =>
      have hown : own ∈ ids := within (KeyTable.mem_ids.mpr ⟨key, he⟩)
      refine Bool.eq_iff_iff.mpr ⟨fun moved => injective own hown id hid ?_, fun there => ?_⟩
      · exact Value.same_trans (new.hashable own hown) moved
          (Value.same_symm (new.hashable id hid) same)
      · exact Value.same_trans (new.hashable own hown) (new.congr own hown id hid there) same

end NewIds

end BlockAngular
