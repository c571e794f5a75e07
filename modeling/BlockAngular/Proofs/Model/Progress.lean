import BlockAngular.Proofs.Model.Declare
import BlockAngular.Proofs.Verdict

/-! # When declarations are refused

A declaration under a free name is refused if the name is reserved. Rows of different indices
which all have one length can be declared, and free variables are made without further ado;
constraints that are settled already are refused one by one.
-/

namespace BlockAngular

namespace Stage

variable {σ α : Type}

/-- Steps that are done whenever an invariant holds, which they keep, are done in a row. -/
theorem verdict_forM_of_invariant {f : α → Stage σ PUnit} {as : List α} (inv : σ → Prop)
    (step : ∀ a ∈ as, ∀ s, inv s → ∃ t, f a s = .ok ⟨⟩ t ∧ inv t) {s : σ} (start : inv s) :
    (as.forM f).verdict s = .ok () := by
  induction as generalizing s with
  | nil => rfl
  | cons a as ih =>
      obtain ⟨t, done, kept⟩ := step a List.mem_cons_self s start
      refine (verdict_bind_of_ok done).trans ?_
      exact ih (fun b hb => step b (List.mem_cons_of_mem _ hb)) kept

end Stage

namespace Family

variable {α : Type}

/-- Indices of one length. -/
def Uniform (indices : List Value) : Prop :=
  ∀ a ∈ indices, ∀ b ∈ indices, arity a = arity b

theorem Uniform.of_subset {indices others : List Value} (h : Uniform indices)
    (sub : others ⊆ indices) : Uniform others :=
  fun a ha b hb => h a (sub ha) b (sub hb)

/-- Rows of indices of one length that can be keys make a family. -/
theorem exists_ofRows? (rows : List (List Value × α))
    (flat : ∀ row ∈ rows, Value.flatIndex row.1 = row.1)
    (hashable : ∀ row ∈ rows, (Value.ofIndex row.1).hashable = true)
    (uniform : Uniform (rows.map fun row => Value.ofIndex row.1)) : ∃ f, ofRows? rows = .ok f := by
  have elements : rows.map (fun row => (Value.ofIndex (Value.flatIndex row.1), row.2)) =
      rows.map fun row => (Value.ofIndex row.1, row.2) :=
    List.map_congr_left fun row hr => by simp [flat row hr]
  have each : ∀ row ∈ rows.map fun row => (Value.ofIndex row.1, row.2), row.1.hashable = true := by
    intro element he
    obtain ⟨row, hr, rfl⟩ := List.mem_map.mp he
    exact hashable row hr
  simp only [ofRows?, elements]
  rw [if_neg (Bool.eq_false_iff.mp ?keys)]
  case keys => exact (congrArg not (List.all_eq_true.mpr each)).trans rfl
  split
  · exact ⟨_, rfl⟩
  · rename_i first a rest listed
    have alike : ∀ row ∈ rows.map fun row => (Value.ofIndex row.1, row.2),
        (arity row.1 == arity first) = true := by
      intro element he
      have within : ∀ e ∈ rows.map fun row => (Value.ofIndex row.1, row.2),
          e.1 ∈ rows.map fun row => Value.ofIndex row.1 := by
        intro e he
        obtain ⟨row, hr, rfl⟩ := List.mem_map.mp he
        exact List.mem_map_of_mem hr
      simpa using uniform _ (within _ he) _ (within (first, a) (by simp [listed]))
    exact ⟨_, if_pos (List.all_eq_true.mpr (listed ▸ alike))⟩

end Family

namespace Model

/-- A well-formed model under whose names components can be declared again, with the same
indices. -/
structure Regular (m : Model) : Prop extends WellFormed m where
  unreserved : ∀ c ∈ m.components, Reserved.inModel c.name = false
  uniform : ∀ c ∈ m.components, Family.Uniform (c.content.entries.map (·.1))

variable {m : Model} {name : String} {c : Component}

theorem declare_verdict (content : Content) (recipes : List Recipe) (fresh : name ∉ m.names) :
    (declare name content recipes).verdict m =
      .require (Reserved.inModel name = false) (.fault .badValue) := by
  have free := hasName_eq_false (c := ⟨name, content, recipes⟩) fresh
  simp only at free
  simp only [declare, Stage.verdict_get_bind, Stage.verdict_ofFault_bind, Stage.verdict_set, add]
  cases Reserved.inModel name <;> simp [free, Verdict.require, Except.mapError, bind, Except.bind]

theorem declare_of_fresh {content : Content} {recipes : List Recipe} (fresh : name ∉ m.names)
    (unreserved : Reserved.inModel name = false) :
    declare name content recipes m = .ok () (m.append ⟨name, content, recipes⟩) := by
  obtain ⟨u, m', done⟩ := Stage.verdict_eq_ok.mp
    ((declare_verdict content recipes fresh).trans
      (Verdict.require_eq_ok.mpr unreserved))
  rw [done, (declare_ok done).2]

@[simp] theorem change_recipe? (f : Content → Content) (h : Handle) :
    (m.change name f).recipe? h = m.recipe? h := by
  simp only [recipe?, component?, change, List.find?_map, Option.bind_map]
  have named : ((fun c : Component => c.name == h.component) ∘ fun c =>
      if c.name == name then { c with content := f c.content } else c) =
        fun c => c.name == h.component := by
    funext c
    simp only [Function.comp]
    split <;> rfl
  rw [named]
  cases m.components.find? (fun c => c.name == h.component) with
  | none => rfl
  | some c =>
      simp only [Option.bind_some, Function.comp]
      split <;> rfl

/-- A variable that has a description and can keep its value can be made. -/
theorem makeAt_of_variable {position : Nat} {v : Variable}
    (described : m.recipe? (m.handle name position) = some (.variable v none)) :
    ∃ t, makeAt name position m = .ok () t ∧ t.id = m.id ∧ ∀ h, t.recipe? h = m.recipe? h := by
  rw [makeAt, Stage.bind_of_ok (Stage.get_ok.mpr ⟨rfl, rfl⟩)]
  cases there : m.hasElement (m.handle name position) with
  | true => exact ⟨m, by simp, rfl, fun _ => rfl⟩
  | false =>
      refine ⟨putVariable (m.handle name position) v m, ?_, rfl, fun h => by simp [putVariable]⟩
      simp only [Bool.not_false, if_true, make]
      rw [Stage.bind_of_ok (Stage.get_ok.mpr ⟨rfl, rfl⟩)]
      simp [described]

theorem makeAll_verdict_of_variables {v : Variable} {count : Nat}
    (described : ∀ position < count, m.recipe? (m.handle name position) = some (.variable v none)) :
    (makeAll name count).verdict m = .ok () := by
  refine Stage.verdict_forM_of_invariant (fun s => ∀ position < count,
    s.recipe? (s.handle name position) = some (.variable v none)) ?_ described
  intro position hp s alike
  obtain ⟨t, done, id, same⟩ := makeAt_of_variable (alike position (List.mem_range.mp hp))
  refine ⟨t, done, fun other ho => ?_⟩
  rw [same, show t.handle name other = s.handle name other by rw [handle, id, handle]]
  exact alike other ho

theorem makeAt_constraint_verdict {position : Nat} {row : Except Fault Constraint}
    (fresh : c.name ∉ m.names)
    (unmade : (m.append c).hasElement (m.handle c.name position) = false)
    (described : c.recipes[position]? = some (.constraint row)) :
    (makeAt c.name position).verdict (m.append c) = .of (row.mapError .fault) := by
  have recipe : (m.append c).recipe? (m.handle c.name position) = some (.constraint row) := by
    simp [recipe?, component?_append fresh, described]
  rw [makeAt, Stage.verdict_get_bind]
  simp only [append_handle, unmade, Bool.not_false, if_true, make, Stage.verdict_get_bind, recipe]
  cases row <;> rfl

/-- Constraints that are settled already are put in their places unless one is refused. -/
theorem makeAll_constraints_verdict (recipes : List Recipe)
    (rest : List (Value × Except Fault Constraint)) (made : List (Value × Constraint))
    (fresh : name ∉ m.names)
    (described : ∀ offset, recipes[made.length + offset]? =
      rest[offset]?.map fun (_, row) => .constraint row) :
    ((List.range' made.length rest.length).forM (makeAt name)).verdict
      (m.append ⟨name, .constraints true (.underWay true made (rest.map (·.1))), recipes⟩) =
        .all (rest.map fun e => .of (e.2.mapError .fault)) := by
  induction rest generalizing made with
  | nil => rfl
  | cons e rest ih =>
      obtain ⟨index, row⟩ := e
      have unmade : (m.append ⟨name, .constraints true
          (.underWay true made (index :: rest.map (·.1))), recipes⟩).hasElement
            (m.handle name made.length) = false := by
        simp [hasElement, content?_append (c := ⟨name, _, recipes⟩) fresh, Family.get?_underWay]
      have here : recipes[made.length]? = some (.constraint row) := by simpa using described 0
      have first := makeAt_constraint_verdict (c := ⟨name, _, recipes⟩) fresh unmade here
      simp only at first
      simp only [List.length_cons, List.range'_succ, List.map_cons, Verdict.all_cons]
      rw [← first]
      refine Stage.verdict_bind _ fun _ t step => ?_
      obtain ⟨a, -, put⟩ := makeAt_constraint_ok (c := ⟨name, _, recipes⟩) fresh unmade here step
      simp only [putConstraint, handle_component, handle_position,
        change_append (c := ⟨name, _, recipes⟩) fresh, Family.setAt_underWay] at put
      subst put
      have := ih (made ++ [(index, a)]) fun offset => by
        have next := described (offset + 1)
        simpa [Nat.add_assoc, Nat.add_comm, Nat.add_left_comm] using next
      simpa using this

/-- Variables of one kind can be declared by rows of different indices of one length. -/
theorem addVariables_verdict {rows : Option (List (List Value))} {v : Variable}
    (storable : v.value.isStorable = true) (fresh : name ∉ m.names)
    (unreserved : Reserved.inModel name = false)
    (flat : ∀ row ∈ rows.getD [], Value.flatIndex row = row)
    (hashable : ∀ index ∈ Family.indicesOf rows, index.hashable = true)
    (uniform : Family.Uniform (Family.indicesOf rows)) :
    (addVariables name rows v).verdict m = .ok () := by
  have noValues := givenKeys_of_storable storable
  have made (shape : Family Unit) : (do
      declare name (.vars shape.cleared)
        (shape.elements.map fun element => v.recipe element.1)
      v.value.givenKeys.forM fun key => do
        makeAt name (← Stage.ofFault (shape.keyPosition key))
      makeAll name (shape.elements.map fun element => v.recipe element.1).length :
        Stage Model Unit).verdict m = .ok () := by
    have described : (shape.elements.map fun element => v.recipe element.1) =
        shape.elements.map fun _ => .variable v none := by
      simp [recipe_of_storable storable]
    rw [Stage.verdict_bind_of_ok (declare_of_fresh fresh unreserved), noValues]
    refine makeAll_verdict_of_variables (v := v) fun position hp => ?_
    rw [described] at hp ⊢
    simp only [recipe?, append_handle, handle_component, handle_position,
      component?_append (c := ⟨name, _, _⟩) fresh, Option.bind_some]
    rw [List.getElem?_eq_getElem hp, List.getElem_map]
  cases rows with
  | none => exact made (Family.scalar ())
  | some rows =>
      obtain ⟨shape, shaped⟩ := Family.exists_ofRows? (rows.map fun row => (row, ()))
        (by simpa using flat) (by simpa [Family.indicesOf] using hashable)
        (by simpa [Family.indicesOf, Function.comp_def] using uniform)
      simp only [addVariables, shaped]
      exact made shape

/-- Settled constraints are declared by rows of indices unless one is refused. -/
theorem addConstraints_settled_verdict (rows : List (List Value × Except Fault Constraint))
    (fresh : name ∉ m.names) (unreserved : Reserved.inModel name = false)
    (flat : ∀ row ∈ rows, Value.flatIndex row.1 = row.1)
    (distinct : Value.Distinct (rows.map fun row => Value.ofIndex row.1))
    (uniform : Family.Uniform (rows.map fun row => Value.ofIndex row.1)) :
    (addConstraints name (rows.map fun (index, c) => (index, .constraint c))).verdict m =
      .all (rows.map fun row => .of (row.2.mapError .fault)) := by
  have flat_rows : ∀ row ∈ rows.map fun (index, c) => (index, Recipe.constraint c),
      Value.flatIndex row.1 = row.1 := by
    simp only [List.mem_map]
    rintro _ ⟨row, hr, rfl⟩
    exact flat row hr
  have distinct_rows : Value.Distinct ((rows.map fun (index, c) =>
      (index, Recipe.constraint c)).map fun row => Value.ofIndex row.1) := by
    simpa [Function.comp_def] using distinct
  obtain ⟨family, shaped⟩ := Family.exists_ofRows? _ flat_rows
    (fun row hr => (distinct_rows.keys _ (List.mem_map_of_mem hr)).hashable)
    (by simpa [Function.comp_def] using uniform)
  obtain ⟨recipes, cleared⟩ := settled_family flat distinct shaped
  rw [addConstraints, shaped, Stage.verdict_bind_of_ok (Stage.ofFault_ok.mpr ⟨rfl, rfl⟩)]
  simp only [recipes, cleared]
  rw [Stage.verdict_bind_of_ok (declare_of_fresh fresh unreserved)]
  have steps := makeAll_constraints_verdict (rows.map fun row => Recipe.constraint row.2)
    (rows.map fun row => (Value.ofIndex row.1, row.2)) [] fresh (by simp [Function.comp_def])
  simpa [makeAll, List.range_eq_range', Function.comp_def] using steps

/-- A constraint without an index that is settled already. -/
theorem addStatement_none_verdict (fresh : name ∉ m.names) :
    (addStatement name none).verdict m =
      .require (Reserved.inModel name = false) (.fault .badValue) := by
  rw [addStatement, Stage.verdict_bind (.ok ()) fun _ _ _ => rfl, Verdict.bind_ok,
    declare_verdict _ _ fresh]

theorem addObjectiveOf_verdict {body : Expression} {sense : Sense} (fresh : name ∉ m.names) :
    (addObjectiveOf name (.expr body) sense).verdict m =
      .require (Reserved.inModel name = false) (.fault .badValue) := by
  rw [addObjectiveOf, Stage.verdict_bind (.ok ()) fun _ _ _ => rfl, Verdict.bind_ok,
    declare_verdict _ _ fresh]

end Model

end BlockAngular
