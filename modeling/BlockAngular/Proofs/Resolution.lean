import BlockAngular.Proofs.Assignment

/-! # Each key is asked for once

An annotation function is asked for the declared keys in the order of their declaration, and for
none of them twice, until an answer is no block. This holds of functions that remember what they
have been asked for as well. What is reported as missing is the last key in question, whatever
key a function puts into the error that it raises.
-/

namespace BlockAngular

/-- What an annotation function was asked for, each time with its answer. -/
abbrev Calls := List (Key × Except Error Answer)

/-- Which error an answer leads to that is no block. -/
inductive Refuses (key : Key) : Except Error Answer → Error → Prop where
  | missing : Refuses key (.ok .missing) (.unassigned (.key key) none)
  | absent : Refuses key (.ok (.other .null)) (.unassigned (.key key) none)
  | noBlock {v : Value} (present : v ≠ .null) : Refuses key (.ok (.other v)) (.notABlock key v)
  /-- An error that reports the key in question is passed on as it is. -/
  | reported {subject : Subject} {note : Option String} (own : subject.isKey key = true) :
      Refuses key (.error (.unassigned subject note)) (.unassigned subject note)
  /-- One that reports anything else as missing is not. -/
  | corrected {subject : Subject} {note : Option String} (other : subject.isKey key = false) :
      Refuses key (.error (.unassigned subject note)) (.unassigned (.key key) none)
  | failed {e : Error} (different : ∀ subject note, e ≠ .unassigned subject note) :
      Refuses key (.error e) e

/-- An entry of a table tells the block that a call was answered with. -/
def Records (entry : Key × Block) (call : Key × Except Error Answer) : Prop :=
  entry.1 = call.1 ∧ ∃ own mark, call.2 = .ok (.block own) ∧ entry.2 = own.marked mark

/-- The calls for a list of keys, and the table that they lead to. -/
inductive Asking : List Key → Calls → Except Error KeyTable → Prop where
  | done : Asking [] [] (.ok [])
  | refused {key : Key} {rest : List Key} {answer : Except Error Answer} {e : Error}
      (refuses : Refuses key answer e) : Asking (key :: rest) [(key, answer)] (.error e)
  | next {key : Key} {rest : List Key} {own : Block} {mark : Nat} {calls : Calls}
      {result : Except Error KeyTable} (later : Asking rest calls result) :
      Asking (key :: rest) ((key, .ok (.block own)) :: calls)
        (result.map ((key, own.marked mark) :: ·))

namespace Asking

variable {keys keys' : List Key} {calls calls' : Calls} {result result' : Except Error KeyTable}

/-- The keys are asked for one after the other. -/
theorem asked (h : Asking keys calls result) : calls.map (·.1) <+: keys := by
  induction h with
  | done => exact List.nil_prefix
  | refused => exact List.cons_prefix_cons.mpr ⟨rfl, List.nil_prefix⟩
  | next _ ih => exact List.cons_prefix_cons.mpr ⟨rfl, ih⟩

/-- Nothing is asked for behind a key without a block. -/
theorem answered (h : Asking keys calls result) :
    ∀ call ∈ calls.dropLast, ∃ own, call.2 = .ok (.block own) := by
  induction h with
  | done => simp
  | refused => simp
  | @next key rest own mark calls result later ih =>
      intro call hc
      cases calls with
      | nil => simp at hc
      | cons first others =>
          rcases List.mem_cons.mp hc with rfl | hc
          · exact ⟨own, rfl⟩
          · exact ih call hc

/-- Where there is a table, it has all keys in their order, with the answers. -/
theorem settled (h : Asking keys calls result) {table : KeyTable} (made : result = .ok table) :
    calls.map (·.1) = keys ∧ table.map (·.1) = keys ∧ List.Forall₂ Records table calls := by
  induction h generalizing table with
  | done =>
      obtain rfl := Except.ok.inj made
      exact ⟨rfl, rfl, .nil⟩
  | refused => cases made
  | @next key rest own mark calls result later ih =>
      obtain ⟨others, rfl, rfl⟩ := Success.map_ok.mp made
      obtain ⟨asked, listed, recorded⟩ := ih rfl
      exact ⟨by simp [asked], by simp [listed], .cons ⟨rfl, own, mark, rfl, rfl⟩ recorded⟩

/-- Where there is none, the last answer is the reason. -/
theorem stopped (h : Asking keys calls result) {e : Error} (failed : result = .error e) :
    ∃ call, calls.getLast? = some call ∧ Refuses call.1 call.2 e := by
  induction h with
  | done => cases failed
  | refused refuses =>
      cases failed
      exact ⟨_, rfl, refuses⟩
  | @next key rest own mark calls result later ih =>
      cases result with
      | ok => cases failed
      | error =>
          cases failed
          obtain ⟨call, last, refuses⟩ := ih rfl
          exact ⟨call, by rw [List.getLast?_cons, last]; rfl, refuses⟩

/-- Keys are asked for behind others that all have blocks. -/
theorem append (h : Asking keys calls result) {table : KeyTable} (made : result = .ok table)
    (h' : Asking keys' calls' result') :
    Asking (keys ++ keys') (calls ++ calls') (result'.map (table ++ ·)) := by
  induction h generalizing table with
  | done =>
      obtain rfl := Except.ok.inj made
      cases result' <;> exact h'
  | refused => cases made
  | @next key rest own mark calls result later ih =>
      obtain ⟨others, rfl, rfl⟩ := Success.map_ok.mp made
      have joined := @next key _ own mark _ _ (ih rfl)
      cases result' <;> exact joined

theorem append_of_error (h : Asking keys calls result) {e : Error} (failed : result = .error e) :
    Asking (keys ++ keys') calls (.error e) := by
  induction h with
  | done => cases failed
  | refused refuses =>
      cases failed
      exact .refused refuses
  | @next key rest own mark calls result later ih =>
      cases result with
      | ok => cases failed
      | error =>
          cases failed
          exact @next key _ own mark _ _ (ih rfl)

end Asking

/-- What is reported as missing is the key in question. -/
theorem Refuses.isKey {key : Key} {answer : Except Error Answer} {subject : Subject}
    {note : Option String} (h : Refuses key answer (.unassigned subject note))
    (own : key.same key = true) : subject.isKey key = true := by
  cases h with
  | missing | absent | corrected => exact own
  | reported own => exact own
  | failed different => exact absurd rfl (different _ _)

theorem Classify.resolve_cases (answer : Except Error Answer) (key : Key) :
    (∃ own, answer = .ok (.block own) ∧ resolve (fun _ => answer) key = .ok own) ∨
      ∃ e, Refuses key answer e ∧ resolve (fun _ => answer) key = .error e := by
  match answer with
  | .ok (.block own) => exact .inl ⟨own, rfl, rfl⟩
  | .ok .missing => exact .inr ⟨_, .missing, rfl⟩
  | .ok (.other v) =>
      refine .inr ?_
      cases v with
      | null => exact ⟨_, .absent, rfl⟩
      | _ => exact ⟨_, .noBlock nofun, rfl⟩
  | .error e =>
      refine .inr ?_
      cases e with
      | unassigned subject note =>
          cases own : subject.isKey key with
          | true => exact ⟨_, .reported own, by simp [resolve, own]⟩
          | false => exact ⟨_, .corrected own, by simp [resolve, own]⟩
      | _ => exact ⟨_, .failed nofun, rfl⟩

/-- An annotation function that may remember what it was asked for. -/
abbrev Asker (σ : Type) := Key → σ → Except Error Answer × σ

namespace Asker

variable {σ : Type}

/-- An annotation function that remembers nothing. -/
def ofClassify (classify : Classify) : Asker Unit :=
  fun key s => (classify key, s)

/-- The blocks of some keys, the calls that are made for them, and what is remembered in the
end. -/
def table (ask : Asker σ) (mark : Nat) : List Key → σ → Except Error KeyTable × Calls × σ
  | [], s => (.ok [], [], s)
  | key :: rest, s =>
    match Classify.resolve (fun _ => (ask key s).1) key with
    | .error e => (.error e, [(key, (ask key s).1)], (ask key s).2)
    | .ok block =>
      let later := table ask (mark + 2) rest (ask key s).2
      (later.1.map ((key, block.marked mark) :: ·), (key, (ask key s).1) :: later.2.1, later.2.2)

theorem table_asking (ask : Asker σ) (mark : Nat) (keys : List Key) (s : σ) :
    Asking keys (ask.table mark keys s).2.1 (ask.table mark keys s).1 := by
  induction keys generalizing mark s with
  | nil => exact .done
  | cons key rest ih =>
      rw [table]
      obtain ⟨own, answer, block⟩ | ⟨e, refuses, failed⟩ := Classify.resolve_cases (ask key s).1 key
      · rw [block, answer]
        exact (ih (mark + 2) (ask key s).2).next
      · rw [failed]
        exact .refused refuses

theorem table_ofClassify (classify : Classify) (mark : Nat) (keys : List Key) :
    (ofClassify classify).table mark keys () = (classify.table mark keys,
      (classify.asked keys).map fun key => (key, classify key), ()) := by
  induction keys generalizing mark with
  | nil => rfl
  | cons key rest ih =>
      have here : ofClassify classify key () = (classify key, ()) := rfl
      have same : Classify.resolve (fun _ => classify key) key = classify.resolve key := rfl
      rw [table, Classify.table, Classify.asked]
      simp only [here, same]
      cases classify.resolve key with
      | error e => rfl
      | ok own =>
          simp only [ih (mark + 2), List.map_cons]
          cases classify.table (mark + 2) rest <;> rfl

end Asker

namespace Model

variable {σ : Type} {m : Model}

/-- The blocks of the declared variables and constraints by an annotation function that may
remember, and the calls that are made. -/
def assignmentBy (m : Model) (ask : Asker σ) (s : σ) : Except Error Assignment × Calls :=
  let vars := ask.table 1 m.variableKeys s
  match vars.1 with
  | .error e => (.error e, vars.2.1)
  | .ok table =>
    let constraints := ask.table (2 * table.length + 1) m.constraintKeys vars.2.2
    (constraints.1.map (⟨table, ·⟩), vars.2.1 ++ constraints.2.1)

theorem assignmentBy_ofClassify (m : Model) (classify : Classify) :
    m.assignmentBy (.ofClassify classify) () =
      (m.assignment classify, (m.askedKeys classify).map fun key => (key, classify key)) := by
  rw [assignmentBy, Asker.table_ofClassify, assignment, askedKeys]
  cases classify.table 1 m.variableKeys with
  | error e => rfl
  | ok table =>
      simp only [Asker.table_ofClassify, List.map_append, bind, Except.bind]
      cases classify.table (2 * table.length + 1) m.constraintKeys <;> rfl

/-- A component comes before another one, or an element before another one of its component. -/
def DeclaredBefore (m : Model) (a b : Handle) : Prop :=
  ∃ (i j : Nat) (c d : Component), m.components[i]? = some c ∧ m.components[j]? = some d ∧ a.component = c.name ∧
    b.component = d.name ∧ (i < j ∨ i = j ∧ a.position < b.position)

/-- What the declared keys are, and the order that they come in. -/
structure Enumerates (m : Model) : Prop where
  /-- A variable is declared by a component of variables, and by nothing else. -/
  vars : ∀ key, key ∈ m.variableKeys ↔ ∃ c ∈ m.components, ∃ family,
    c.content = .vars family ∧ ∃ index v, (index, some v) ∈ family.elements ∧
      key = ⟨c.name, index.toIndex⟩
  /-- A constraint is declared by an active component of constraints, if it is active too. -/
  constraints : ∀ key, key ∈ m.constraintKeys ↔ ∃ c ∈ m.components, ∃ family,
    c.content = .constraints true family ∧ ∃ index row, (index, some row) ∈ family.elements ∧
      row.active = true ∧ key = ⟨c.name, index.toIndex⟩
  varsInOrder : m.vars.Pairwise fun a b => m.DeclaredBefore a.2 b.2
  constraintsInOrder : m.constraints.Pairwise fun a b => m.DeclaredBefore a.2 b.2
  distinct : Key.Distinct (m.variableKeys ++ m.constraintKeys)

theorem positions_ordered {select : Component → List (Key × Handle)}
    (selected : ∀ c ∈ m.components, ∃ positions : List Nat, positions.Pairwise (· < ·) ∧
      (select c).map (·.2) = positions.map (m.handle c.name)) :
    (m.components.flatMap select).Pairwise fun a b => m.DeclaredBefore a.2 b.2 := by
  refine List.pairwise_flatMap.mpr ⟨fun c hc => ?_, List.pairwise_iff_getElem.mpr
    fun i j hi hj before a ha b hb => ?_⟩
  · obtain ⟨i, here⟩ := List.getElem?_of_mem hc
    obtain ⟨positions, ascend, equal⟩ := selected c hc
    have ordered : (positions.map (m.handle c.name)).Pairwise m.DeclaredBefore :=
      List.pairwise_map.mpr (ascend.imp fun less =>
        ⟨i, i, c, c, here, here, rfl, rfl, .inr ⟨rfl, less⟩⟩)
    rw [← equal] at ordered
    exact List.pairwise_map.mp ordered
  · have named {c : Component} (hc : c ∈ m.components) {a : Key × Handle} (ha : a ∈ select c) :
        a.2.component = c.name := by
      obtain ⟨positions, -, equal⟩ := selected c hc
      have listed := List.mem_map_of_mem (f := (·.2)) ha
      rw [equal] at listed
      obtain ⟨_, -, same⟩ := List.mem_map.mp listed
      exact same ▸ rfl
    exact ⟨i, j, _, _, List.getElem?_eq_getElem hi, List.getElem?_eq_getElem hj,
      named (List.getElem_mem hi) ha, named (List.getElem_mem hj) hb, .inl before⟩

theorem vars_ordered (m : Model) : m.vars.Pairwise fun a b => m.DeclaredBefore a.2 b.2 := by
  refine positions_ordered fun c _ => ?_
  split
  · rename_i family _
    exact ⟨_, family.present_positions_ascend, by simp [keyed, Function.comp_def]⟩
  · exact ⟨[], .nil, rfl⟩

theorem constraints_ordered (m : Model) :
    m.constraints.Pairwise fun a b => m.DeclaredBefore a.2 b.2 := by
  refine positions_ordered fun c _ => ?_
  split
  · rename_i family _
    have ascend := List.Pairwise.sublist (List.filter_sublist (p := fun e => e.2.2.active))
      (List.pairwise_map.mp family.present_positions_ascend)
    exact ⟨_, List.pairwise_map.mpr ascend, by simp [Function.comp_def]⟩
  · exact ⟨[], .nil, rfl⟩

theorem declaredKeys_distinct (wf : m.WellFormed) :
    Key.Distinct (m.variableKeys ++ m.constraintKeys) := by
  refine ⟨fun key hk => (List.mem_append.mp hk).elim
    (wf.variableKeys_distinct.index_areKey key) (wf.constraintKeys_distinct.index_areKey key),
    List.pairwise_append.mpr ⟨wf.variableKeys_distinct.pairwise, wf.constraintKeys_distinct.pairwise,
      fun a ha b hb => ?_⟩⟩
  obtain ⟨⟨_, _⟩, hv, rfl⟩ := List.mem_map.mp ha
  obtain ⟨⟨_, _⟩, hc, rfl⟩ := List.mem_map.mp hb
  obtain ⟨c, component, family, content, _, _, _, -, rfl, -⟩ := mem_vars.mp hv
  obtain ⟨c', component', family', content', _, _, _, -, -, rfl, -⟩ := mem_constraints.mp hc
  -- a component that declares variables declares no constraints
  by_contra same
  have named := (Key.same_iff.mp (by simpa using same)).1
  obtain rfl := component_unique wf.names_nodup component component' named
  cases content.symm.trans content'

theorem enumerates (wf : m.WellFormed) : m.Enumerates where
  vars key := by
    constructor
    · intro hk
      obtain ⟨⟨_, h⟩, hv, rfl⟩ := List.mem_map.mp hk
      obtain ⟨c, hc, family, content, index, position, v, here, rfl, -⟩ := mem_vars.mp hv
      exact ⟨c, hc, family, content, index, v, List.mem_of_getElem? here, rfl⟩
    · rintro ⟨c, hc, family, content, index, v, listed, rfl⟩
      obtain ⟨position, here⟩ := List.getElem?_of_mem listed
      exact List.mem_map_of_mem (f := (·.1))
        (mem_vars.mpr ⟨c, hc, family, content, index, position, v, here, rfl, rfl⟩)
  constraints key := by
    constructor
    · intro hk
      obtain ⟨⟨_, h⟩, hv, rfl⟩ := List.mem_map.mp hk
      obtain ⟨c, hc, family, content, index, position, row, here, active, rfl, -⟩ :=
        mem_constraints.mp hv
      exact ⟨c, hc, family, content, index, row, List.mem_of_getElem? here, active, rfl⟩
    · rintro ⟨c, hc, family, content, index, row, listed, active, rfl⟩
      obtain ⟨position, here⟩ := List.getElem?_of_mem listed
      exact List.mem_map_of_mem (f := (·.1))
        (mem_constraints.mpr ⟨c, hc, family, content, index, position, row, here, active, rfl, rfl⟩)
  varsInOrder := m.vars_ordered
  constraintsInOrder := m.constraints_ordered
  distinct := declaredKeys_distinct wf

/-- How the declared keys of a model are resolved. -/
structure IsResolution (m : Model) (result : Except Error Assignment) (calls : Calls) : Prop where
  /-- The declared keys are asked for in the order of their declaration, variables first. -/
  asked : calls.map (·.1) <+: m.variableKeys ++ m.constraintKeys
  once : Key.Distinct (calls.map (·.1))
  /-- Nothing is asked for behind a key without a block. -/
  answered : ∀ call ∈ calls.dropLast, ∃ own, call.2 = .ok (.block own)
  /-- Where there are tables, all keys were asked for, and the tables have the answers. -/
  settled : ∀ a, result = .ok a → calls.map (·.1) = m.variableKeys ++ m.constraintKeys ∧
    a.vars.map (·.1) = m.variableKeys ∧ a.constraints.map (·.1) = m.constraintKeys ∧
    List.Forall₂ Records (a.vars ++ a.constraints) calls
  /-- Where there are none, the last answer is the reason. -/
  stopped : ∀ e, result = .error e → ∃ call, calls.getLast? = some call ∧ Refuses call.1 call.2 e
  /-- What is reported as missing is the last key in question. -/
  missing : ∀ subject note, result = .error (.unassigned subject note) →
    ∃ call, calls.getLast? = some call ∧ subject.isKey call.1 = true

/-- The two lists of keys are asked for like one. -/
theorem assignmentBy_asking (m : Model) (ask : Asker σ) (s : σ) :
    ∃ result, Asking (m.variableKeys ++ m.constraintKeys) (m.assignmentBy ask s).2 result ∧
      (∀ a, (m.assignmentBy ask s).1 = .ok a → result = .ok (a.vars ++ a.constraints) ∧
        a.vars.map (·.1) = m.variableKeys ∧ a.constraints.map (·.1) = m.constraintKeys) ∧
      ∀ e, (m.assignmentBy ask s).1 = .error e → result = .error e := by
  have vars := ask.table_asking 1 m.variableKeys s
  rw [assignmentBy]
  cases tabled : (ask.table 1 m.variableKeys s).1 with
  | error e =>
      exact ⟨.error e, vars.append_of_error tabled, nofun, fun _ failed => by simpa using failed⟩
  | ok table =>
      have constraints := ask.table_asking (2 * table.length + 1) m.constraintKeys
        (ask.table 1 m.variableKeys s).2.2
      refine ⟨_, vars.append tabled constraints, fun a made => ?_, fun e failed => ?_⟩
      · obtain ⟨table', tabled', rfl⟩ := Success.map_ok.mp made
        rw [tabled']
        exact ⟨rfl, (vars.settled tabled).2.1, (constraints.settled tabled').2.1⟩
      · simp only at failed ⊢
        generalize (ask.table _ m.constraintKeys _).1 = last at failed ⊢
        cases last with
        | ok => cases failed
        | error =>
            cases failed
            rfl

theorem isResolution (wf : m.WellFormed) (ask : Asker σ) (s : σ) :
    m.IsResolution (m.assignmentBy ask s).1 (m.assignmentBy ask s).2 := by
  obtain ⟨result, asking, tables, failure⟩ := m.assignmentBy_asking ask s
  have once := (declaredKeys_distinct wf).sublist asking.asked.sublist
  refine ⟨asking.asked, once, asking.answered, fun a made => ?_,
    fun e failed => asking.stopped (failure e failed), fun subject note failed => ?_⟩
  · obtain ⟨equal, vars, constraints⟩ := tables a made
    obtain ⟨asked, -, recorded⟩ := asking.settled equal
    exact ⟨asked, vars, constraints, recorded⟩
  · obtain ⟨call, last, refuses⟩ := asking.stopped (failure _ failed)
    have own := once.same_self (List.mem_map_of_mem (f := (·.1)) (List.mem_of_getLast? last))
    exact ⟨call, last, refuses.isKey own⟩

/-- The declared keys are asked for one after the other, each of them once, until one is without
a block, and that one is reported. -/
theorem asks_each_key_once (wf : m.WellFormed) : m.Enumerates ∧
    (∀ (σ : Type) (ask : Asker σ) (s : σ),
      m.IsResolution (m.assignmentBy ask s).1 (m.assignmentBy ask s).2) ∧
    ∀ classify : Classify, m.IsResolution (m.assignment classify)
        ((m.askedKeys classify).map fun key => (key, classify key)) ∧
      m.assignmentBy (.ofClassify classify) () =
        (m.assignment classify, (m.askedKeys classify).map fun key => (key, classify key)) := by
  refine ⟨enumerates wf, fun σ ask s => isResolution wf ask s, fun classify => ?_⟩
  have asked := isResolution wf (.ofClassify classify) ()
  have equal := assignmentBy_ofClassify m classify
  rw [equal] at asked
  exact ⟨asked, equal⟩

end Model

/-- A model of which little is declared: one variable and one constraint. -/
def partlyDeclared : Model where
  id := 0
  name := "partly_declared"
  components := [
    ⟨"x", .vars ⟨true, [(.int 1, some .free), (.int 2, none)]⟩, []⟩,
    ⟨"alias", .reference "x", []⟩,
    ⟨"inner", .block [("y", .free)], []⟩,
    ⟨"idle", .constraints false (.scalar ⟨.variable ⟨0, "x", 0⟩, none, none, false, true⟩), []⟩,
    ⟨"row", .constraints true ⟨true, [
      (.int 1, some ⟨.variable ⟨0, "x", 0⟩, none, none, false, false⟩),
      (.int 2, some ⟨.variable ⟨0, "x", 0⟩, none, none, false, true⟩)]⟩, []⟩]

theorem partlyDeclared_wellFormed : partlyDeclared.WellFormed where
  names_nodup := by decide
  contents := by
    have flat : Value.IsIndex (.int 1) ∧ Value.IsIndex (.int 2) := ⟨⟨rfl, rfl⟩, ⟨rfl, rfl⟩⟩
    have distinct : Value.Distinct [.int 1, .int 2] :=
      ⟨by simp [Value.isKey_int], by decide +kernel⟩
    simp only [partlyDeclared, List.forall_mem_cons, Content.WellFormed]
    exact ⟨⟨by simp, distinct, by simpa using flat⟩, trivial, trivial,
      Family.optional_wellFormed _, ⟨by simp, distinct, by simpa using flat⟩, by simp⟩
  sides := by
    have plain (active : Bool) : Constraint.HasPlainSides
        ⟨.variable ⟨0, "x", 0⟩, none, none, false, active⟩ := ⟨by simp, by simp⟩
    simp only [partlyDeclared, List.forall_mem_cons, Content.HasPlainSides, Family.scalar,
      Option.mem_some_iff, forall_eq', plain, true_and, List.not_mem_nil, false_imp_iff, implies_true]

/-- The variable and the active constraint are asked for, or the variable alone. -/
theorem partlyDeclared_asks : partlyDeclared.WellFormed ∧
    partlyDeclared.IsResolution (partlyDeclared.assignment .allMaster)
      [(⟨"x", [.int 1]⟩, .ok (.block .master)), (⟨"row", [.int 2]⟩, .ok (.block .master))] ∧
    partlyDeclared.IsResolution (partlyDeclared.assignment .nowhere)
      [(⟨"x", [.int 1]⟩, .ok .missing)] := by
  have ⟨_, _, asks⟩ := Model.asks_each_key_once partlyDeclared_wellFormed
  exact ⟨partlyDeclared_wellFormed, (asks .allMaster).1, (asks .nowhere).1⟩

end BlockAngular
