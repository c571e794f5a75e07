import BlockAngular.Proofs.Decomposition.Origins
import BlockAngular.Proofs.Relabel

/-! # Decomposing with new ids

What a decomposition asks of the variables and constraints of a model does not depend on the
blocks that they go to. With new ids that can be written it succeeds again, and every element
moves from its block to the block of the new id.
-/

namespace BlockAngular

open Decomposition

namespace NewIds

variable {f : Value → Value}

/-- With new ids that can be written, a decomposition succeeds again. -/
theorem decompose_relabel {first : Nat} {m : Model} {classify : Classify} {config : Config}
    {r : Reformulation} (new : NewIds f r.assignment.ids) (regular : m.Regular)
    (writable : ∀ id ∈ r.assignment.ids, (f id).isWritable = true)
    (h : decompose first m classify config = .ok r) :
    ∃ r', decompose first m (classify.relabel f) config = .ok r' := by
  have assigned := (decompose_trace regular.toWellFormed h).assigned
  refine decompose_reassigned regular ⟨r, h⟩ (new.assignment_relabel assigned) ?_ fun used => ?_
  · rw [Assignment.ids_relabel]
    intro _ moved
    obtain ⟨id, hid, rfl⟩ := List.mem_map.mp moved
    exact ⟨new.hashable id hid, new.ordinary id hid, writable id hid⟩
  · -- where there is a new id there is an old one
    rw [Assignment.ids_relabel] at used
    exact sides_of_decompose regular ⟨r, h⟩ assigned fun none => used (by rw [none]; rfl)

end NewIds

namespace Registry.Covers

variable {vars : Registry} {first : Nat} {m : Model} {ids : List Value} {table : KeyTable}

/-- An element is registered for the block that it is annotated with, in some spelling. -/
theorem owner_same (h : vars.Covers first m ids table) {key : Key} {own : Block}
    (he : (key, own) ∈ table) : ∃ owner, vars.owner? (m.preimageOf key) = some owner ∧
      ∀ block, owner.same block = own.same block := by
  obtain ⟨b, hb, same, image, placed⟩ := h.exists_image he
  exact ⟨b.1, h.owner?_eq hb placed, fun block => Block.same_congr
    (blocks_isKey h.ids_distinct (block_mem hb)) (h.sound.blocks _ he) same⟩

end Registry.Covers

namespace Reformulation.Trace

variable {first : Nat} {m : Model} {classify : Classify} {config : Config} {r r' : Reformulation}

theorem mem_assignment_ids (h : r.Trace first m classify config) {id : Value} (hid : id ∈ r.ids) :
    id ∈ r.assignment.ids := by
  rw [h.ids_eq, h.partition_eq] at hid
  exact List.mem_append.mpr (Partition.mem_of_mem_subproblemIds hid)

/-- Every id that is given is one of the ids, in some spelling. -/
theorem exists_id (h : r.Trace first m classify config) {id : Value}
    (hid : id ∈ r.assignment.ids) : ∃ own ∈ r.ids, own.same id = true := by
  rw [h.ids_eq, h.partition_eq]
  exact Partition.exists_same_subproblemIds h.sound (List.mem_append.mp hid)

/-- A declared variable is an element of the table. -/
theorem exists_annotated (h : r.Trace first m classify config) (wf : m.WellFormed) {v : Handle}
    (hv : v ∈ m.vars.map (·.2)) : ∃ key own, (key, own) ∈ r.assignment.vars ∧
      v = m.preimageOf key := by
  rw [Model.vars_handles wf h.assigned] at hv
  obtain ⟨⟨key, own⟩, he, rfl⟩ := List.mem_map.mp hv
  exact ⟨key, own, he, rfl⟩

section TwoRuns

variable {f : Value → Value} (h : r.Trace first m classify config)
  (h' : r'.Trace first m (classify.relabel f) config) (new : NewIds f r.assignment.ids)
include h h' new

theorem relabel_assignment : r'.assignment = r.assignment.relabel f :=
  Except.ok.inj (h'.assigned.symm.trans (new.assignment_relabel h.assigned))

/-- The new ids are those of the old ones. -/
theorem relabel_ids : (∀ s ∈ r.ids, ∃ t ∈ r'.ids, (f s).same t = true) ∧
    ∀ t ∈ r'.ids, ∃ s ∈ r.ids, (f s).same t = true := by
  have listed : r'.assignment.ids = r.assignment.ids.map f := by
    simp only [h.relabel_assignment h' new, Assignment.relabel, Assignment.ids,
      KeyTable.ids_relabel, List.map_append]
  constructor
  · intro s hs
    have used := h.mem_assignment_ids hs
    have moved : f s ∈ r'.assignment.ids := by rw [listed]; exact List.mem_map_of_mem used
    obtain ⟨t, ht, same⟩ := h'.exists_id moved
    exact ⟨t, ht, Value.same_symm (h'.ids_distinct.keys t ht).hashable same⟩
  · intro t ht
    have used := h'.mem_assignment_ids ht
    rw [listed] at used
    obtain ⟨id, hid, rfl⟩ := List.mem_map.mp used
    obtain ⟨s, hs, same⟩ := h.exists_id hid
    exact ⟨s, hs, new.congr s (h.mem_assignment_ids hs) id hid same⟩

theorem mem_relabel_vars {key : Key} {own : Block} (he : (key, own) ∈ r.assignment.vars) :
    (key, own.relabel f) ∈ r'.assignment.vars := by
  rw [h.relabel_assignment h' new]
  exact List.mem_map.mpr ⟨(key, own), he, rfl⟩

/-- A variable goes where its annotation goes. -/
theorem sends_relabel {key : Key} {own : Block} (he : (key, own) ∈ r.assignment.vars)
    (block : Block) : r.vars.sends block (m.preimageOf key) = own.same block ∧
      r'.vars.sends block (m.preimageOf key) = (own.relabel f).same block := by
  obtain ⟨owner, owned, same⟩ := h.vars_covers.owner_same he
  obtain ⟨owner', owned', same'⟩ := h'.vars_covers.owner_same (h.mem_relabel_vars h' new he)
  simp [Registry.sends, owned, owned', same, same']

end TwoRuns

end Reformulation.Trace

end BlockAngular
