import BlockAngular.Proofs.GeneralizedAssignment.Sums
import BlockAngular.Proofs.Decomposition.Relisting

/-! # Annotations by machines

Every key of a model that is annotated by machines belongs to the master or to one of some
machines. Such a model is decomposed as soon as its parts can be read, and there is one
subproblem for each machine that something belongs to.
-/

namespace BlockAngular

open Decomposition

namespace GeneralizedAssignment

theorem resolve_machine (machine : Value) (rest : List Value) :
    byMachine.resolve ⟨"x", machine :: rest⟩ = .ok (.subproblem machine) ∧
      byMachine.resolve ⟨"capacity", machine :: rest⟩ = .ok (.subproblem machine) ∧
        byMachine.resolve ⟨"overtime", machine :: rest⟩ = .ok (.subproblem machine) :=
  ⟨rfl, rfl, rfl⟩

theorem resolve_master (index : List Value) :
    byMachine.resolve ⟨"assignment", index⟩ = .ok .master ∧
      byMachine.resolve ⟨"penalty", index⟩ = .ok .master ∧
        byMachine.resolve ⟨"shifts", index⟩ = .ok .master ∧
          byMachine.resolve ⟨"overtime_budget", index⟩ = .ok .master :=
  ⟨rfl, rfl, rfl, rfl⟩

/-- Every key of a model belongs to the master or to one of some machines. -/
structure IsSplit (m : Model) (machines : List Value) : Prop where
  labels : ∀ machine ∈ machines, machine.IsLabel
  simple : ∀ key ∈ m.variableKeys ++ m.constraintKeys, Value.allSimple key.index = true
  resolved : ∀ key ∈ m.variableKeys ++ m.constraintKeys, byMachine.resolve key = .ok .master ∨
    ∃ machine ∈ machines, byMachine.resolve key = .ok (.subproblem machine)

namespace IsSplit

variable {m : Model} {machines : List Value} (split : IsSplit m machines)
include split

theorem machine_of_resolve {key : Key} (hk : key ∈ m.variableKeys ++ m.constraintKeys) {id : Value}
    (there : byMachine.resolve key = .ok (.subproblem id)) : id ∈ machines := by
  obtain master | ⟨machine, hm, resolved⟩ := split.resolved key hk
  · rw [master] at there
    cases there
  · rw [resolved] at there
    cases there
    exact hm

theorem isSimple : IsSimple m byMachine where
  indices := split.simple
  ids _ hk id there := (split.labels id (split.machine_of_resolve hk there)).isSimple

/-- A model that is annotated by machines is decomposed if its parts can be read and the names of
the convexity constraints are free. -/
theorem exists_decompose (regular : m.Regular) (columns : m.variableKeys ≠ [])
    (rows : m.constraintKeys ≠ []) {id : Nat} {o : Objective}
    (inForce : m.objectiveInForce? = .ok (some (⟨id, "objective", 0⟩, o)))
    (formed : ∃ form, m.formOf "objective" o.body = .ok form)
    (bounded : ∀ key ∈ m.variableKeys, ∃ v a, m.variableAt (m.preimageOf key) = .ok v ∧
      Attributes.ofVariable? v = .ok a)
    (read : ∀ key ∈ m.constraintKeys, ∃ read, m.readConstraint key = .ok read ∧
      read.2.relatable = .ok ())
    (free : m.hasName "convexity_lb" = false ∧ m.hasName "convexity_ub" = false) (first : Nat) :
    ∃ r, decompose first m byMachine .standard = .ok r := by
  refine (exists_decompose_iff_isDecomposable regular split.isSimple).mpr
    ⟨fun key hk => ?_, fun key hk id there => ⟨?_, rfl, rfl⟩, ⟨columns, rows⟩,
      ⟨_, inForce, ?_, ?_, ?_⟩, fun key hk => ?_, fun key hk => ?_, ⟨rfl, rfl⟩, rfl⟩
  · obtain master | ⟨machine, -, resolved⟩ := split.resolved key hk
    · exact ⟨_, master⟩
    · exact ⟨_, resolved⟩
  · exact (split.labels id (split.machine_of_resolve hk there)).isWritable
  · simp [clashDemands, newName, ownName, Config.objectiveNameFor, Config.standard, Value.isGiven,
      Model.uses, free, Value.same]
  · obtain ⟨form, formed⟩ := formed
    simp [objectiveDemands, formed]
  · simp [newName, Config.objectiveNameFor, Config.standard, Value.isGiven]
    rfl
  · obtain ⟨v, a, there, attributes⟩ := bounded key hk
    simp [Model.boundsDemand, there, attributes, Except.mapError, bind, Except.bind]
  · obtain ⟨read, there, relatable⟩ := read key hk
    simp [Model.limitsDemand, there, relatable, bind, Except.bind]

/-- The ids are the sorted machines, if each has a capacity. -/
theorem ids_eq {r : Reformulation} {first : Nat} (h : r.Trace first m byMachine .standard)
    (nodup : machines.Nodup)
    (capacities : ∀ machine ∈ machines, ⟨"capacity", [machine]⟩ ∈ m.constraintKeys) :
    r.ids = Value.sortIds machines :=
  h.ids_eq_sortIds split.isSimple nodup
    (fun a ha b hb same => (split.labels a ha).eq_of_same (split.labels b hb) same)
    fun id =>
      ⟨fun hid => ⟨_, List.mem_append_right _ (capacities id hid), (resolve_machine id []).2.1⟩, fun ⟨_, hk, there⟩ => split.machine_of_resolve hk there⟩

end IsSplit

theorem blockOf_of_resolve {key : Key} {block : Block}
    (resolved : byMachine.resolve key = .ok block) : byMachine.blockOf key = block := by
  simp [Classify.blockOf, resolved, Except.toOption]

/-- What belongs to a machine goes to its block and to no other one. -/
theorem same_machine {key : Key} {machine id : Value} (hm : machine.IsLabel) (hi : id.IsLabel)
    (resolved : byMachine.resolve key = .ok (.subproblem machine)) :
    (byMachine.blockOf key).same (.subproblem id) = true ↔ machine = id := by
  rw [blockOf_of_resolve resolved, Block.same]
  exact ⟨hm.eq_of_same hi, fun equal => equal ▸ hm.isKey.same_self⟩

/-- What belongs to a machine goes to its subproblem. -/
theorem goes_of_resolve {key : Key} {machine : Value} (label : machine.IsLabel)
    (resolved : byMachine.resolve key = .ok (.subproblem machine)) :
    (byMachine.blockOf key).same (.subproblem machine) = true :=
  (same_machine label label resolved).mpr rfl

theorem id_mem {r : Reformulation} {machines : List Value} (ids : r.ids = Value.sortIds machines)
    {s : Subproblem} (hs : s ∈ r.subproblems) : s.id ∈ machines := by
  rw [← (Value.sortIds_perm machines).mem_iff, ← ids]
  exact List.mem_map_of_mem hs

theorem target_mem {r : Reformulation} {s : Subproblem} (hs : s ∈ r.subproblems) :
    (Block.subproblem s.id, s.model) ∈ r.targets :=
  List.mem_cons_of_mem _ (List.mem_map_of_mem (f := fun s => (Block.subproblem s.id, s.model)) hs)

/-- Keys that go to a block, listed in another way. -/
theorem keysFor_perm {keys expected : List Key} {block : Block} (nodup : keys.Nodup)
    (distinct : expected.Nodup)
    (listed : ∀ key, key ∈ expected ↔ key ∈ keys ∧ (byMachine.blockOf key).same block = true) :
    (keysFor byMachine block keys).Perm expected :=
  (List.perm_ext_iff_of_nodup (nodup.filter _) distinct).mpr fun key =>
    List.mem_filter.trans (listed key).symm

end GeneralizedAssignment

end BlockAngular
