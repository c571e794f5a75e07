import BlockAngular.Model.Declare
import BlockAngular.Proofs.Model.WellFormed

/-! # What declarations leave behind

A declaration that succeeds puts one component at the end of a model, and its name was
free. The elements are made one after the other: those before a position are there, and
those from there on are still to come.
-/

namespace BlockAngular

namespace Family

variable {α : Type}

/-- The indices that a declaration with some rows of indices, or without an index, has. -/
def indicesOf : Option (List (List Value)) → List Value
  | none => [.null]
  | some rows => rows.map Value.ofIndex

theorem foldl_insert (indexed : Bool) (made : List (Value × Option α)) (rest : List (Value × α))
    (distinct : Value.Distinct (made.map (·.1) ++ rest.map (·.1))) :
    rest.foldl (fun f (index, a) => f.insert index a) (⟨indexed, made⟩ : Family α) =
      ⟨indexed, made ++ rest.map fun (index, a) => (index, some a)⟩ := by
  induction rest generalizing made with
  | nil => simp
  | cons row rest ih =>
      obtain ⟨index, a⟩ := row
      have absent : ∀ e ∈ made, e.1.same index = false := fun e he =>
        (List.pairwise_append.mp distinct.pairwise).2.2 e.1 (List.mem_map_of_mem he) index (by simp)
      simp only [List.foldl_cons, insert, Value.insertEntry_of_absent absent]
      refine (ih _ (by simpa using distinct)).trans ?_
      simp

/-- Rows of different indices without nested tuples become a family as they stand. -/
theorem ofRows?_ok {rows : List (List Value × α)} {f : Family α} (h : ofRows? rows = .ok f)
    (flat : ∀ row ∈ rows, Value.flatIndex row.1 = row.1)
    (distinct : Value.Distinct (rows.map fun row => Value.ofIndex row.1)) :
    f = ⟨true, rows.map fun row => (Value.ofIndex row.1, some row.2)⟩ := by
  have elements : rows.map (fun row => (Value.ofIndex (Value.flatIndex row.1), row.2)) =
      rows.map fun row => (Value.ofIndex row.1, row.2) :=
    List.map_congr_left fun row hr => by simp [flat row hr]
  have inserted := foldl_insert true [] (rows.map fun row => (Value.ofIndex row.1, row.2))
    (by simp only [List.map_nil, List.nil_append, List.map_map]; exact distinct)
  simp only [ofRows?, elements] at h
  split at h
  · cases h
  · split at h
    · simp_all
    · split at h
      · refine (Except.ok.inj h).symm.trans (inserted.trans ?_)
        simp
      · cases h

/-- A family that is made up to some position. -/
def underWay (indexed : Bool) (made : List (Value × α)) (rest : List Value) : Family α :=
  ⟨indexed, made.map (fun (index, a) => (index, some a)) ++ rest.map fun index => (index, none)⟩

theorem setAt_underWay (indexed : Bool) (made : List (Value × α)) (index : Value)
    (rest : List Value) (a : α) :
    (underWay indexed made (index :: rest)).setAt made.length a =
      underWay indexed (made ++ [(index, a)]) rest := by
  simp only [underWay, setAt, List.map_cons, List.map_append, mk.injEq, true_and]
  rw [List.modify_eq_take_cons_drop (by simp)]
  simp [List.drop_append, List.drop_eq_nil_of_le]

theorem get?_underWay (indexed : Bool) (made : List (Value × α)) (index : Value)
    (rest : List Value) :
    (underWay indexed made (index :: rest)).get? made.length = none := by
  simp [underWay, get?]

end Family

namespace Model

/-- The names of the components. -/
def names (m : Model) : List String :=
  m.components.map (·.name)

/-- The components without the ways to make their elements. -/
def contents (m : Model) : List (String × Content) :=
  m.components.map fun c => (c.name, c.content)

/-- A model with one more component. -/
def append (m : Model) (c : Component) : Model :=
  { m with components := m.components ++ [c] }

variable {m m' : Model} {c : Component}

@[simp] theorem append_id : (m.append c).id = m.id := rfl

@[simp] theorem append_handle (name : String) (position : Nat) :
    (m.append c).handle name position = m.handle name position := rfl

@[simp] theorem append_contents : (m.append c).contents = m.contents ++ [(c.name, c.content)] := by
  simp [contents, append]

theorem contents_names : m.contents.map (·.1) = m.names := by
  simp [contents, names, Function.comp_def]

theorem component?_append (fresh : c.name ∉ m.names) :
    (m.append c).component? c.name = some c := by
  simp only [component?, append, List.find?_append]
  have absent : m.components.find? (fun d => d.name == c.name) = none := by
    simpa [names] using fresh
  simp [absent]

theorem hasName_eq_false (fresh : c.name ∉ m.names) : m.hasName c.name = false := by
  simpa [hasName, component?, names] using fresh

@[simp] theorem content?_append (fresh : c.name ∉ m.names) (position : Nat) :
    (m.append c).content? (m.handle c.name position) = some c.content := by
  simp [content?, handle, component?_append fresh]

/-- Only the last component has its name. -/
theorem change_append (fresh : c.name ∉ m.names) (f : Content → Content) :
    (m.append c).change c.name f = m.append { c with content := f c.content } := by
  have others : m.components.map (fun d => if d.name == c.name then
      { d with content := f d.content } else d) = m.components := by
    refine List.map_congr_left (fun d hd => ?_) |>.trans (List.map_id _)
    have different : d.name ≠ c.name := fun equal => fresh (equal ▸ List.mem_map_of_mem hd)
    simp [different]
  simp only [change, append, List.map_append, others, List.map_cons, List.map_nil,
    beq_self_eq_true, if_true]

theorem add_ok {name : String} {content : Content} {recipes : List Recipe} :
    m.add name content recipes = .ok m' ↔
      Reserved.inModel name = false ∧ name ∉ m.names ∧ m' = m.append ⟨name, content, recipes⟩ := by
  have named : m.hasName name = true ↔ name ∈ m.names := by
    simp [hasName, component?, names]
  simp only [add, append, ← named]
  cases Reserved.inModel name <;> cases m.hasName name <;> simp [eq_comm]

theorem declare_ok {name : String} {content : Content} {recipes : List Recipe} {u : Unit}
    (h : declare name content recipes m = .ok u m') :
    name ∉ m.names ∧ m' = m.append ⟨name, content, recipes⟩ := by
  simp only [declare, Stage.bind_ok, Stage.get_ok, Stage.ofFault_ok, Stage.set_ok] at h
  obtain ⟨_, _, ⟨rfl, rfl⟩, _, _, ⟨added, rfl⟩, rfl⟩ := h
  exact (add_ok.mp added).2

@[simp] theorem handle_component (name : String) (position : Nat) :
    (m.handle name position).component = name := rfl

@[simp] theorem handle_position (name : String) (position : Nat) :
    (m.handle name position).position = position := rfl

/-- Making an element of the last component which is described and not there. -/
theorem makeAt_variable_ok {position : Nat} {v : Variable} {t : Model} {u : Unit}
    (fresh : c.name ∉ m.names)
    (unmade : (m.append c).hasElement (m.handle c.name position) = false)
    (described : c.recipes[position]? = some (.variable v none))
    (h : makeAt c.name position (m.append c) = .ok u t) :
    t = putVariable (m.handle c.name position) v (m.append c) := by
  have recipe : (m.append c).recipe? (m.handle c.name position) = some (.variable v none) := by
    simp [recipe?, component?_append fresh, described]
  simp only [makeAt, Stage.bind_ok, Stage.get_ok] at h
  obtain ⟨_, _, ⟨rfl, rfl⟩, h⟩ := h
  simp only [append_handle, unmade, Bool.not_false, ↓reduceIte, make, Stage.bind_ok,
    Stage.get_ok] at h
  obtain ⟨_, _, ⟨rfl, rfl⟩, h⟩ := h
  simp only [recipe, Stage.bind_ok, Stage.modify_ok, Stage.pure_ok] at h
  obtain ⟨_, _, rfl, -, rfl⟩ := h
  rfl

theorem makeAt_constraint_ok {position : Nat} {row : Except Fault Constraint} {t : Model} {u : Unit}
    (fresh : c.name ∉ m.names)
    (unmade : (m.append c).hasElement (m.handle c.name position) = false)
    (described : c.recipes[position]? = some (.constraint row))
    (h : makeAt c.name position (m.append c) = .ok u t) :
    ∃ a, row = .ok a ∧ t = putConstraint (m.handle c.name position) a (m.append c) := by
  have recipe : (m.append c).recipe? (m.handle c.name position) = some (.constraint row) := by
    simp [recipe?, component?_append fresh, described]
  simp only [makeAt, Stage.bind_ok, Stage.get_ok] at h
  obtain ⟨_, _, ⟨rfl, rfl⟩, h⟩ := h
  simp only [append_handle, unmade, Bool.not_false, ↓reduceIte, make, Stage.bind_ok,
    Stage.get_ok] at h
  obtain ⟨_, _, ⟨rfl, rfl⟩, h⟩ := h
  simp only [recipe, Stage.bind_ok, Stage.ofFault_ok, Stage.modify_ok] at h
  obtain ⟨a, _, ⟨made, rfl⟩, rfl⟩ := h
  exact ⟨a, made, rfl⟩

/-- Making the elements that are still to come, all by one description. -/
theorem makeAll_variables {name : String} {v : Variable} {indexed : Bool} {recipes : List Recipe}
    {rest : List Value} (made : List (Value × Variable)) {u : Unit} (fresh : name ∉ m.names)
    (described : ∀ position < made.length + rest.length,
      recipes[position]? = some (.variable v none))
    (h : (List.range' made.length rest.length).forM (makeAt name)
      (m.append ⟨name, .vars (.underWay indexed made rest), recipes⟩) = .ok u m') :
    m' = m.append ⟨name, .vars (.underWay indexed (made ++ rest.map (·, v)) []), recipes⟩ := by
  induction rest generalizing made with
  | nil => simpa [eq_comm] using h
  | cons index rest ih =>
      simp only [List.length_cons, List.range'_succ, Stage.forM_cons_ok] at h
      obtain ⟨t, step, others⟩ := h
      have unmade : (m.append ⟨name, .vars (.underWay indexed made (index :: rest)), recipes⟩).hasElement
          (m.handle name made.length) = false := by
        simp [hasElement, content?_append (c := ⟨name, _, recipes⟩) fresh, Family.get?_underWay]
      have put := makeAt_variable_ok (c := ⟨name, _, recipes⟩) fresh unmade
        (described _ (by simp)) step
      simp only [putVariable, handle_component, handle_position,
        change_append (c := ⟨name, _, recipes⟩) fresh, Family.setAt_underWay] at put
      subst put
      have rest_described : ∀ position < (made ++ [(index, v)]).length + rest.length,
          recipes[position]? = some (.variable v none) := fun position within =>
        described position (by simp at within ⊢; omega)
      have := ih _ rest_described (by simpa using others)
      simpa using this

/-- Making the elements that are still to come, each from a constraint that is settled. -/
theorem makeAll_constraints {name : String} {recipes : List Recipe}
    (rest : List (Value × Except Fault Constraint)) (made : List (Value × Constraint)) {u : Unit}
    (fresh : name ∉ m.names)
    (described : ∀ offset, recipes[made.length + offset]? =
      rest[offset]?.map fun (_, row) => .constraint row)
    (h : (List.range' made.length rest.length).forM (makeAt name)
      (m.append ⟨name, .constraints true (.underWay true made (rest.map (·.1))), recipes⟩) =
        .ok u m') :
    ∃ rows, List.Forall₂ (fun e row => e.2 = .ok row) rest rows ∧
      m' = m.append ⟨name, .constraints true
        (.underWay true (made ++ (rest.map (·.1)).zip rows) []), recipes⟩ := by
  induction rest generalizing made with
  | nil => exact ⟨[], .nil, by simpa [eq_comm] using h⟩
  | cons element rest ih =>
      obtain ⟨index, row⟩ := element
      simp only [List.length_cons, List.range'_succ, Stage.forM_cons_ok, List.map_cons] at h
      obtain ⟨t, step, others⟩ := h
      have unmade : (m.append ⟨name, .constraints true (.underWay true made
          (index :: rest.map (·.1))), recipes⟩).hasElement (m.handle name made.length) = false := by
        simp [hasElement, content?_append (c := ⟨name, _, recipes⟩) fresh, Family.get?_underWay]
      obtain ⟨a, settled, put⟩ := makeAt_constraint_ok (c := ⟨name, _, recipes⟩) fresh unmade
        (by simpa using described 0) step
      simp only [putConstraint, handle_component, handle_position,
        change_append (c := ⟨name, _, recipes⟩) fresh, Family.setAt_underWay] at put
      subst put
      have rest_described : ∀ offset, recipes[(made ++ [(index, a)]).length + offset]? =
          rest[offset]?.map fun (_, row) => .constraint row := fun offset => by
        simpa [Nat.add_assoc, Nat.add_comm 1] using described (offset + 1)
      obtain ⟨rows, settledRest, equal⟩ := ih (made ++ [(index, a)]) rest_described
        (by simpa using others)
      exact ⟨a :: rows, .cons settled settledRest, by simpa using equal⟩

/-- A value that is no sequence and no table is given to all indices at once. -/
theorem givenKeys_of_storable {v : Value} (storable : v.isStorable = true) : v.givenKeys = [] := by
  cases v <;> first | rfl | cases storable

theorem recipe_of_storable {v : Variable} (storable : v.value.isStorable = true) (index : Value) :
    v.recipe index = .variable v none := by
  have given : v.value.firstAt index = .ok v.value := by
    cases value : v.value <;> rw [value] at storable <;> first | rfl | cases storable
  simp [Variable.recipe, given, storable]

theorem declareShape_ok {name : String} {indexed : Bool} {v : Variable}
    (storable : v.value.isStorable = true) (indices : List Value) {s : Model} {u u' : Unit}
    (declared : declare name
      (.vars (⟨indexed, indices.map (·, some ())⟩ : Family Unit).cleared)
      ((indices.map (·, some ())).map fun (index, _) => v.recipe index) m = .ok u s)
    (made : makeAll name ((indices.map (·, some ())).map fun (index, _) =>
      v.recipe index).length s = .ok u' m') :
    name ∉ m.names ∧ ∃ recipes, m' = m.append ⟨name, .vars ⟨indexed,
      indices.map fun index => (index, some v)⟩, recipes⟩ := by
  have described : ((indices.map (·, some ())).map fun (index, _) => v.recipe index) =
      indices.map fun _ => .variable v none := by
    simp [recipe_of_storable storable, Function.comp_def]
  have cleared : (⟨indexed, indices.map (·, some ())⟩ : Family Unit).cleared =
      Family.underWay (α := Variable) indexed [] indices := by
    simp [Family.cleared, Family.underWay, Function.comp_def]
  rw [described, cleared] at declared
  rw [described] at made
  obtain ⟨fresh, rfl⟩ := declare_ok declared
  refine ⟨fresh, indices.map fun _ => .variable v none, ?_⟩
  simp only [makeAll, List.range_eq_range', List.length_map] at made
  have all : ∀ position < ([] : List (Value × Variable)).length + indices.length,
      (indices.map fun _ => Recipe.variable v none)[position]? =
        some (.variable v none) := fun position within => by
    simp only [List.length_nil, Nat.zero_add] at within
    simp [within]
  have := makeAll_variables [] fresh all made
  simpa [Family.underWay, Function.comp_def] using this

/-- Declaring variables of one kind by rows of different indices, or one without an index. -/
theorem addVariables_ok {name : String} {rows : Option (List (List Value))} {v : Variable} {u : Unit}
    (storable : v.value.isStorable = true)
    (flat : ∀ row ∈ rows.getD [], Value.flatIndex row = row)
    (distinct : Value.Distinct (Family.indicesOf rows))
    (h : addVariables name rows v m = .ok u m') :
    name ∉ m.names ∧ ∃ recipes, m' = m.append ⟨name, .vars ⟨rows.isSome,
      (Family.indicesOf rows).map fun index => (index, some v)⟩, recipes⟩ := by
  have noValues := givenKeys_of_storable storable
  cases rows with
  | none =>
      simp only [addVariables, Stage.bind_ok, Stage.pure_ok, noValues, Stage.forM_nil_ok] at h
      obtain ⟨_, _, ⟨rfl, rfl⟩, _, _, declared, _, _, rfl, made⟩ := h
      exact declareShape_ok storable [.null] declared made
  | some rows =>
      simp only [addVariables, Stage.bind_ok, Stage.ofFault_ok, noValues, Stage.forM_nil_ok] at h
      obtain ⟨shape, _, ⟨shaped, rfl⟩, _, _, declared, _, _, rfl, made⟩ := h
      have indices : shape = ⟨true, (rows.map Value.ofIndex).map (·, some ())⟩ := by
        refine (Family.ofRows?_ok shaped ?_ ?_).trans ?_
        · simpa using flat
        · simpa [Function.comp_def, Family.indicesOf] using distinct
        · simp [Function.comp_def]
      subst indices
      exact declareShape_ok storable _ declared made

/-- Declaring a constraint without an index that is put in its place later. -/
theorem addStatement_none_ok {name : String} {u : Unit} (h : addStatement name none m = .ok u m') :
    name ∉ m.names ∧ m' = m.append ⟨name, .constraints true (Family.optional none), []⟩ := by
  simp only [addStatement, Stage.bind_ok, Stage.pure_ok] at h
  obtain ⟨_, _, declared, -, rfl⟩ := h
  exact declare_ok declared

/-- The family of settled constraints before the first one is made. -/
theorem settled_family {rows : List (List Value × Except Fault Constraint)}
    {family : Family Recipe} (flat : ∀ row ∈ rows, Value.flatIndex row.1 = row.1)
    (distinct : Value.Distinct (rows.map fun row => Value.ofIndex row.1))
    (shaped : Family.ofRows? (rows.map fun (index, c) => (index, Recipe.constraint c)) = .ok family) :
    family.elements.filterMap (·.2) = rows.map (fun row => .constraint row.2) ∧
      family.cleared = Family.underWay (α := Constraint) true []
        ((rows.map fun row => (Value.ofIndex row.1, row.2)).map (·.1)) := by
  have flat_rows : ∀ row ∈ rows.map fun (index, c) => (index, Recipe.constraint c),
      Value.flatIndex row.1 = row.1 := by
    simp only [List.mem_map]
    rintro _ ⟨row, hr, rfl⟩
    exact flat row hr
  have family_eq := Family.ofRows?_ok shaped flat_rows
    (by simpa [Function.comp_def] using distinct)
  constructor
  · simp [family_eq, List.filterMap_map, Function.comp_def]
  · simp [family_eq, Family.cleared, Family.underWay, Function.comp_def]

/-- Declaring settled constraints by rows of different indices. -/
theorem addConstraints_settled_ok {name : String} {rows : List (List Value × Except Fault Constraint)}
    {u : Unit} (flat : ∀ row ∈ rows, Value.flatIndex row.1 = row.1)
    (distinct : Value.Distinct (rows.map fun row => Value.ofIndex row.1))
    (h : addConstraints name (rows.map fun (index, c) => (index, .constraint c)) m = .ok u m') :
    name ∉ m.names ∧ ∃ settled recipes, List.Forall₂ (fun row c => row.2 = .ok c) rows settled ∧
      m' = m.append ⟨name, .constraints true ⟨true,
        ((rows.map fun row => Value.ofIndex row.1).zip settled).map fun (index, c) =>
          (index, some c)⟩, recipes⟩ := by
  simp only [addConstraints, Stage.bind_ok, Stage.ofFault_ok] at h
  obtain ⟨family, _, ⟨shaped, rfl⟩, _, _, declared, made⟩ := h
  obtain ⟨recipes, cleared⟩ := settled_family flat distinct shaped
  rw [recipes, cleared] at declared
  rw [recipes] at made
  obtain ⟨fresh, rfl⟩ := declare_ok declared
  refine ⟨fresh, ?_⟩
  simp only [makeAll, List.range_eq_range', List.length_map] at made
  have described : ∀ offset, (rows.map fun row => Recipe.constraint row.2)[
      ([] : List (Value × Constraint)).length + offset]? =
        (rows.map fun row => (Value.ofIndex row.1, row.2))[offset]?.map
          fun (_, row) => .constraint row := by
    simp [Function.comp_def]
  obtain ⟨settled, each, rfl⟩ := makeAll_constraints
    (rows.map fun row => (Value.ofIndex row.1, row.2)) [] fresh described (by simpa using made)
  refine ⟨settled, rows.map fun row => .constraint row.2, ?_, ?_⟩
  · simpa [List.forall₂_map_left_iff] using each
  · simp [Family.underWay, Function.comp_def]

/-- Declaring an objective by an expression. -/
theorem addObjectiveOf_ok {name : String} {body : Expression} {sense : Sense} {u : Unit}
    (h : addObjectiveOf name (.expr body) sense m = .ok u m') :
    name ∉ m.names ∧ m' = m.append ⟨name, .objectives true
      (Family.optional (some ⟨body, sense, true⟩)), []⟩ := by
  simp only [addObjectiveOf, Stage.bind_ok, Stage.ofFault_ok] at h
  obtain ⟨_, _, declared, e, _, ⟨made, rfl⟩, h⟩ := h
  obtain ⟨fresh, rfl⟩ := declare_ok declared
  obtain rfl : some body = e := by simpa [Operand.expression?, Operand.toExpression?] using made
  simp only [Stage.modify_ok, append_handle] at h
  refine ⟨fresh, h.symm.trans ?_⟩
  simp [putObjective, change_append (c := ⟨name, _, []⟩) fresh, Family.setAt, Family.optional]

end Model

end BlockAngular
