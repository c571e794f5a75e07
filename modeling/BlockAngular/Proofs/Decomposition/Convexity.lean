import BlockAngular.Decomposition.Convexity
import BlockAngular.Proofs.Model.Declare
import Mathlib.Tactic.Tauto

/-! # What convexity constraints are

The master gets two components at its end, each with one constraint for every id, in the
order of the ids. The bodies are empty.
-/

namespace BlockAngular

namespace Model

variable {m : Model} {c : Component}

/-- A change of another component leaves the last one alone. -/
theorem change_append_other {name : String} (other : c.name ≠ name) (f : Content → Content) :
    (m.append c).change name f = (m.change name f).append c := by
  simp [change, append, other]

end Model

namespace Convexity

variable {m m' : Model}

/-- A constraint with an empty body and plain sides. -/
structure IsEmptyRow (c : Constraint) : Prop where
  body : c.body = Expression.ofTerms 0.0 []
  sides : c.HasPlainSides

theorem emptyRow_ok {side : Value} {isLower : Bool} {c : Constraint}
    (h : emptyRow side isLower = .ok c) : IsEmptyRow c := by
  simp only [emptyRow] at h
  split at h
  · cases h
  · have linear : Constraint.isLiteral (Expression.ofTerms 0.0 []) = false := rfl
    have vars : (Expression.ofTerms 0.0 []).hasVariables = true := rfl
    rename_i x _
    have plain : (Expression.number x).hasVariables = false := rfl
    split at h <;> simp only [Constraint.range, Constraint.atMost, linear, vars, plain] at h <;>
      simp at h <;> subst h <;> exact ⟨rfl, ⟨by simp [plain], by simp [plain]⟩⟩

theorem declare_ok {name : Value} {label : String} (h : declare name m = .ok label m') :
    name = .str label ∧ label ∉ m.names ∧
      m' = m.append ⟨label, .constraints true ⟨true, []⟩, []⟩ := by
  simp only [declare, Stage.bind_ok, Stage.ofFault_ok, Stage.pure_ok] at h
  obtain ⟨label', _, ⟨named, rfl⟩, _, _, declared, rfl, rfl⟩ := h
  obtain ⟨fresh, rfl⟩ := Model.declare_ok declared
  refine ⟨?_, fresh, rfl⟩
  cases name <;> simp_all [Config.asName]

/-- The constraints of one side for some ids. -/
def family (side : Value) (isLower : Bool) (ids : List Value) : Family Constraint :=
  ⟨true, ids.map fun id => (id, (emptyRow side isLower).toOption)⟩

/-- A model with the constraints of both sides for some ids. -/
def extended (config : Config) (lowerName upperName : String) (ids : List Value) (m : Model) :
    Model :=
  (m.append ⟨lowerName, .constraints true (family config.lowerRhs true ids), []⟩).append
    ⟨upperName, .constraints true (family config.upperRhs false ids), []⟩

/-- The constraints of one side have empty bodies. -/
theorem family_emptyRow {side : Value} {isLower : Bool} {ids : List Value} {position : Nat}
    {c : Constraint} (h : (family side isLower ids).get? position = some c) : IsEmptyRow c := by
  simp only [family, Family.get?, List.getElem?_map, Option.bind_eq_some_iff,
    Option.map_eq_some_iff] at h
  obtain ⟨_, ⟨id, -, rfl⟩, made⟩ := h
  cases row : emptyRow side isLower with
  | error e => simp [row, Except.toOption] at made
  | ok c' =>
      simp only [row, Except.toOption, Option.some.injEq] at made
      exact made ▸ emptyRow_ok row

theorem addRow_ok {name : String} {side : Value} {isLower : Bool} {id : Value} {u : Unit}
    (h : addRow name side isLower id m = .ok u m') :
    ∃ row, emptyRow side isLower = .ok row ∧ m' = put name id row m := by
  simp only [addRow, Stage.bind_ok, Stage.ofFault_ok, Stage.modify_ok] at h
  obtain ⟨_, _, ⟨-, rfl⟩, row, _, ⟨made, rfl⟩, rfl⟩ := h
  exact ⟨row, made, rfl⟩

theorem insert_family {side : Value} {isLower : Bool} {ids : List Value} {id : Value}
    {row : Constraint} (made : emptyRow side isLower = .ok row)
    (distinct : Value.Distinct (ids ++ [id])) :
    (family side isLower ids).insert id row = family side isLower (ids ++ [id]) := by
  have absent : ∀ e ∈ ids.map fun id => (id, (emptyRow side isLower).toOption),
      e.1.same id = false := by
    simp only [List.mem_map]
    rintro _ ⟨other, ho, rfl⟩
    exact (List.pairwise_append.mp distinct.pairwise).2.2 other ho id (by simp)
  simp only [family, Family.insert, Value.insertEntry_of_absent absent]
  simp [made, Except.toOption]

/-- The constraints of both sides for one more id. -/
theorem put_put {config : Config} {lowerName upperName : String} (freshLower : lowerName ∉ m.names)
    (freshUpper : upperName ∉ m.names) (other : upperName ≠ lowerName) {ids : List Value}
    {id : Value} {lower upper : Constraint} (madeLower : emptyRow config.lowerRhs true = .ok lower)
    (madeUpper : emptyRow config.upperRhs false = .ok upper)
    (distinct : Value.Distinct (ids ++ [id])) :
    put upperName id upper (put lowerName id lower (extended config lowerName upperName ids m)) =
      extended config lowerName upperName (ids ++ [id]) m := by
  have freshLast : upperName ∉ (m.append ⟨lowerName, .constraints true
      (family config.lowerRhs true (ids ++ [id])), []⟩).names := by
    simpa [Model.names, Model.append, other] using freshUpper
  simp only [put, extended,
    Model.change_append_other (c := ⟨upperName, _, []⟩) other,
    Model.change_append (c := ⟨lowerName, _, []⟩) freshLower, insert_family madeLower distinct,
    Model.change_append (c := ⟨upperName, _, []⟩) freshLast, insert_family madeUpper distinct]

/-- The constraints of one side for some ids, in a model of a number. -/
def rowsFor (number : Nat) (name : String) (ids : List Value) : Rows :=
  ids.zipIdx.map fun (id, position) => (id, ⟨number, name, position⟩)

theorem find?_family {side : Value} {isLower : Bool} {ids : List Value} {id : Value}
    (distinct : Value.Distinct (ids ++ [id])) :
    (family side isLower (ids ++ [id])).find? id = some ids.length :=
  Family.find?_of_getElem? (a := (emptyRow side isLower).toOption)
    (by simpa [family, Function.comp_def] using distinct) (by simp [family])

/-- The last constraints of both sides are those of the last id. -/
theorem rowOf_extended (config : Config) {lowerName upperName : String}
    (freshLower : lowerName ∉ m.names) (freshUpper : upperName ∉ m.names)
    (other : upperName ≠ lowerName) {ids : List Value} {id : Value}
    (distinct : Value.Distinct (ids ++ [id])) :
    rowOf lowerName id (extended config lowerName upperName (ids ++ [id]) m) =
        ⟨m.id, lowerName, ids.length⟩ ∧
      rowOf upperName id (extended config lowerName upperName (ids ++ [id]) m) =
        ⟨m.id, upperName, ids.length⟩ := by
  have unknown : ∀ name ∉ m.names, m.components.find? (fun c => c.name == name) = none := by
    simp [Model.names]
  constructor
  · simp [rowOf, extended, Model.component?, Model.append, List.find?_append,
      unknown _ freshLower, find?_family distinct, Model.handle]
  · simp [rowOf, extended, Model.component?, Model.append, List.find?_append, Ne.symm other,
      unknown _ freshUpper, find?_family distinct, Model.handle]

theorem insertEntry_rowsFor {number : Nat} {name : String} {ids : List Value} {id : Value}
    (distinct : Value.Distinct (ids ++ [id])) :
    Value.insertEntry id ⟨number, name, ids.length⟩ (rowsFor number name ids) =
      rowsFor number name (ids ++ [id]) := by
  have absent : ∀ e ∈ rowsFor number name ids, e.1.same id = false := by
    intro e he
    obtain ⟨⟨own, position⟩, hown, rfl⟩ := List.mem_map.mp he
    exact (List.pairwise_append.mp distinct.pairwise).2.2 own (List.fst_mem_of_mem_zipIdx hown) id
      (by simp)
  rw [Value.insertEntry_of_absent absent]
  simp [rowsFor, List.zipIdx_append]

theorem addRows_ok {config : Config} {lowerName upperName : String}
    (freshLower : lowerName ∉ m.names) (freshUpper : upperName ∉ m.names)
    (other : upperName ≠ lowerName) {ids : List Value} (done : List Value)
    (distinct : Value.Distinct (done ++ ids)) {rows' : Rows × Rows}
    (h : addRows config lowerName upperName ids (rowsFor m.id lowerName done,
      rowsFor m.id upperName done) (extended config lowerName upperName done m) = .ok rows' m') :
    m' = extended config lowerName upperName (done ++ ids) m ∧
      rows' = (rowsFor m.id lowerName (done ++ ids), rowsFor m.id upperName (done ++ ids)) := by
  induction ids generalizing done with
  | nil =>
      simp only [addRows, Stage.pure_ok] at h
      obtain ⟨rfl, rfl⟩ := h
      simp
  | cons id ids ih =>
      have here : Value.Distinct (done ++ [id]) :=
        ⟨fun v hv => distinct.keys v (by
            simp only [List.mem_append, List.mem_cons] at hv ⊢
            tauto),
          distinct.pairwise.sublist (by simp)⟩
      simp only [addRows, Stage.bind_ok, Stage.get_ok] at h
      obtain ⟨_, _, lowered, _, _, uppered, _, _, ⟨rfl, rfl⟩, rest⟩ := h
      obtain ⟨lower, madeLower, rfl⟩ := addRow_ok lowered
      obtain ⟨upper, madeUpper, rfl⟩ := addRow_ok uppered
      obtain ⟨lowerRow, upperRow⟩ := rowOf_extended config freshLower freshUpper other here
      rw [put_put freshLower freshUpper other madeLower madeUpper here, lowerRow, upperRow,
        insertEntry_rowsFor here, insertEntry_rowsFor here] at rest
      simpa using ih (done ++ [id]) (by simpa using distinct) rest

/-- Declaring the convexity constraints of different ids. -/
theorem add_ok {config : Config} {ids : List Value} (distinct : Value.Distinct ids)
    {rows : Rows × Rows} (h : add config ids m = .ok rows m') :
    ∃ lowerName upperName, config.lowerName = .str lowerName ∧ config.upperName = .str upperName ∧
      lowerName ∉ m.names ∧ upperName ∉ m.names ∧ upperName ≠ lowerName ∧
      m' = extended config lowerName upperName ids m ∧
      rows = (rowsFor m.id lowerName ids, rowsFor m.id upperName ids) := by
  simp only [add, Stage.bind_ok] at h
  obtain ⟨lowerName, _, lower, upperName, _, upper, rest⟩ := h
  obtain ⟨namedLower, freshLower, rfl⟩ := declare_ok lower
  obtain ⟨namedUpper, freshUpper, rfl⟩ := declare_ok upper
  simp only [Model.names, Model.append, List.map_append, List.map_cons, List.map_nil,
    List.mem_append, List.mem_singleton, not_or] at freshUpper
  exact ⟨lowerName, upperName, namedLower, namedUpper, freshLower, freshUpper.1, freshUpper.2,
    addRows_ok freshLower freshUpper.1 freshUpper.2 [] distinct rest⟩

end Convexity

end BlockAngular
