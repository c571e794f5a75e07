import BlockAngular.Proofs.Model.Progress

/-! # Declaring under a free name

A declaration whose name is free and not reserved, and whose parts are settled, succeeds. All
that it does is to put one component with all its elements at the end of the model.
-/

namespace BlockAngular

namespace Content

/-- Variables of one kind, by rows of indices or without an index. -/
def ofVariables (rows : Option (List (List Value))) (v : Variable) : Content :=
  .vars ⟨rows.isSome, (Family.indicesOf rows).map fun index => (index, some v)⟩

/-- Constraints by rows of indices. -/
def ofConstraints (rows : List (List Value × Constraint)) : Content :=
  .constraints true ⟨true, rows.map fun row => (Value.ofIndex row.1, some row.2)⟩

/-- One constraint without an index. -/
def ofConstraint (c : Constraint) : Content :=
  .constraints true (Family.optional (some c))

/-- One objective without an index. -/
def ofObjective (body : Expression) (sense : Sense) : Content :=
  .objectives true (Family.optional (some ⟨body, sense, true⟩))

end Content

namespace Model

variable {name : String}

/-- A stage that puts a component under a name at the end of a model without one. -/
def Appends (stage : Stage Model Unit) (name : String) (content : Content) : Prop :=
  ∀ m : Model, name ∉ m.names → ∃ recipes, stage m = .ok () (m.append ⟨name, content, recipes⟩)

/-- Variables of one kind, by rows of different indices of one length or without an index. -/
theorem addVariables_appends {rows : Option (List (List Value))} {v : Variable}
    (storable : v.value.isStorable = true) (unreserved : Reserved.inModel name = false)
    (flat : ∀ row ∈ rows.getD [], Value.flatIndex row = row)
    (distinct : Value.Distinct (Family.indicesOf rows))
    (uniform : Family.Uniform (Family.indicesOf rows)) :
    Appends (addVariables name rows v) name (.ofVariables rows v) := by
  intro m fresh
  obtain ⟨_, m', done⟩ := Stage.verdict_eq_ok.mp (addVariables_verdict storable fresh unreserved flat
    (fun index hi => (distinct.keys index hi).hashable) uniform)
  obtain ⟨-, recipes, rfl⟩ := addVariables_ok storable flat distinct done
  exact ⟨recipes, done⟩

/-- Settled constraints by rows of different indices of one length. -/
theorem addConstraints_appends {rows : List (List Value × Constraint)}
    (unreserved : Reserved.inModel name = false)
    (flat : ∀ row ∈ rows, Value.flatIndex row.1 = row.1)
    (distinct : Value.Distinct (rows.map fun row => Value.ofIndex row.1))
    (uniform : Family.Uniform (rows.map fun row => Value.ofIndex row.1)) :
    Appends (addConstraints name (rows.map fun row => (row.1, .constraint (.ok row.2)))) name
      (.ofConstraints rows) := by
  intro m fresh
  let given : List (List Value × Except Fault Constraint) := rows.map fun row => (row.1, .ok row.2)
  have settled : rows.map (fun row => (row.1, Recipe.constraint (.ok row.2))) =
      given.map fun row => (row.1, .constraint row.2) := by
    simp [given, Function.comp_def]
  have flat' : ∀ row ∈ given, Value.flatIndex row.1 = row.1 := List.forall_mem_map.mpr flat
  have indices : given.map (fun row => Value.ofIndex row.1) =
      rows.map fun row => Value.ofIndex row.1 := by
    simp [given, Function.comp_def]
  rw [← indices] at distinct uniform
  have accepted : Verdict.all (given.map fun row => .of (row.2.mapError .fault)) = .ok () :=
    Verdict.all_eq_ok.mpr (List.forall_mem_map.mpr (List.forall_mem_map.mpr fun _ _ => rfl))
  obtain ⟨_, m', done⟩ := Stage.verdict_eq_ok.mp
    ((addConstraints_settled_verdict given fresh unreserved flat' distinct uniform).trans accepted)
  obtain ⟨-, made, recipes, each, rfl⟩ := addConstraints_settled_ok flat' distinct done
  rw [settled]
  refine ⟨recipes, done.trans ?_⟩
  have made_eq : made = rows.map (·.2) := by
    have same : List.Forall₂ (fun row c => row.2 = c) rows made :=
      (List.forall₂_map_left_iff.mp each).imp fun _ _ equal => Except.ok.inj equal
    rw [← List.forall₂_eq_eq_eq, List.forall₂_map_right_iff]
    exact same.flip.imp fun _ _ equal => equal.symm
  simp [Content.ofConstraints, made_eq, indices, List.zip_map', Function.comp_def]

/-- A constraint without an index by what it states. -/
theorem addStatement_appends {statement : Statement} {c : Constraint}
    (unreserved : Reserved.inModel name = false) (made : statement.constraint = .ok c) :
    Appends (addStatement name (some statement)) name (.ofConstraint c) := by
  intro m fresh
  refine ⟨[], ?_⟩
  rw [addStatement, Stage.bind_of_ok (declare_of_fresh fresh unreserved)]
  simp only [made]
  rw [Stage.bind_of_ok (Stage.ofFault_ok.mpr ⟨rfl, rfl⟩)]
  refine Stage.modify_ok.mpr ?_
  simp [Content.ofConstraint, putConstraint, change_append (c := ⟨name, _, []⟩) fresh,
    Family.setAt, Family.optional]

/-- An objective without an index by an expression. -/
theorem addObjectiveOf_appends {body : Expression} {sense : Sense}
    (unreserved : Reserved.inModel name = false) :
    Appends (addObjectiveOf name (.expr body) sense) name (.ofObjective body sense) := by
  intro m fresh
  obtain ⟨_, m', done⟩ := Stage.verdict_eq_ok.mp
    ((addObjectiveOf_verdict fresh).trans (Verdict.require_eq_ok.mpr unreserved))
  obtain ⟨-, rfl⟩ := addObjectiveOf_ok done
  exact ⟨[], done⟩

end Model

end BlockAngular
