import BlockAngular.Proofs.Decomposition.NewIds
import BlockAngular.Proofs.Decomposition.VariableMapping
import BlockAngular.Proofs.Value.Precedence

/-! # The convexity scaffold

The master has a lower and an upper constraint for every id, and nothing else under their names.
They come in the order of the ids, which are sorted, and no two ids share one, however much alike
the ids may look. Their bodies are empty, and their only sides are the configured ones.
-/

namespace BlockAngular

open Decomposition

namespace Config

/-- The name of the convexity constraints of a side. -/
def sideName (config : Config) (isLower : Bool) : Value :=
  if isLower then config.lowerName else config.upperName

/-- The side that the convexity constraints of a side have. -/
def sideRhs (config : Config) (isLower : Bool) : Value :=
  if isLower then config.lowerRhs else config.upperRhs

end Config

/-- The convexity constraints of a side by id. -/
def Reformulation.convexityRows (r : Reformulation) (isLower : Bool) : Convexity.Rows :=
  if isLower then r.convexityLower else r.convexityUpper

namespace Convexity

/-- A constraint with an empty body and a number for one of its sides. -/
def row (isLower : Bool) (x : Numeric) : Constraint :=
  ⟨(AffineForm.mk 0.0 []).toExpression, if isLower then some (.number x) else none,
    if isLower then none else some (.number x), false, true⟩

variable {config : Config} {side : Value} {isLower : Bool} {ids : List Value} {m m' : Model}

theorem emptyRow_iff {c : Constraint} : emptyRow side isLower = .ok c ↔
    ∃ x, side.literal? = some x ∧ c = row isLower x := by
  have linear : Constraint.isLiteral (Expression.ofTerms 0.0 []) = false := rfl
  have vars : (Expression.ofTerms 0.0 []).hasVariables = true := rfl
  have plain (x : Numeric) : (Expression.number x).hasVariables = false := rfl
  unfold emptyRow
  cases side.literal? with
  | none => simp
  | some x =>
      cases isLower <;>
        simp [Constraint.range, Constraint.atMost, linear, vars, plain, row,
          AffineForm.toExpression, eq_comm]

/-- The only limit of such a constraint is its number, if that is finite. -/
theorem limits_row {x : Numeric} {y : Float} (real : x.real = .ok y)
    (finite : Binary64.isInfinite y = false) (s : Expression.Reading) :
    Limits.ofConstraint? s (row isLower x) =
      .ok ⟨if isLower then some y else none, if isLower then none else some y, false⟩ := by
  have own : Limits.side? s (some (.number x)) = .ok (some y) := by
    simp [Limits.side?, Expression.evaluate, real, finite, bind, Except.bind, pure, Except.pure]
  have absent : Limits.side? s none = .ok none := rfl
  cases isLower <;>
    simp [Limits.ofConstraint?, row, own, absent, bind, Except.bind, pure, Except.pure]

/-- Rows are added for ids only if both sides of the configuration are numbers. -/
theorem addRows_literal {lowerName upperName : String} {rows rows' : Rows × Rows}
    (h : addRows config lowerName upperName ids rows m = .ok rows' m') :
    ∀ id ∈ ids, ∀ isLower, ∃ x, (config.sideRhs isLower).literal? = some x := by
  induction ids generalizing rows m with
  | nil => simp
  | cons id ids ih =>
      simp only [addRows, Stage.bind_ok] at h
      obtain ⟨_, _, lowered, _, _, uppered, _, _, -, rest⟩ := h
      obtain ⟨lower, madeLower, -⟩ := addRow_ok lowered
      obtain ⟨upper, madeUpper, -⟩ := addRow_ok uppered
      obtain ⟨x, literal, -⟩ := emptyRow_iff.mp madeLower
      obtain ⟨y, literal', -⟩ := emptyRow_iff.mp madeUpper
      refine List.forall_mem_cons.mpr ⟨fun isLower => ?_, ih rest⟩
      cases isLower
      · exact ⟨y, literal'⟩
      · exact ⟨x, literal⟩

/-- All constraints of a family are there if its side is a number. -/
theorem family_rows (literal : ∀ id ∈ ids, ∃ x, side.literal? = some x) (number : Nat)
    (name : String) : (Content.constraints true (family side isLower ids)).rows number name =
      (rowsFor number name ids).map fun e => (⟨name, e.1.toIndex⟩, e.2) := by
  cases ids with
  | nil => rfl
  | cons id rest =>
      obtain ⟨x, literal⟩ := literal id List.mem_cons_self
      have made : emptyRow side isLower = .ok (row isLower x) := emptyRow_iff.mpr ⟨x, literal, rfl⟩
      simp [Content.rows, family, Family.present, made, Except.toOption, List.zipIdx_map, rowsFor,
        Function.comp_def]

theorem family_constraintAt? {x : Numeric} (literal : side.literal? = some x) {position : Nat}
    (listed : position < ids.length) :
    (Content.constraints true (family side isLower ids)).constraintAt? position =
      some (row isLower x) := by
  have made : emptyRow side isLower = .ok (row isLower x) := emptyRow_iff.mpr ⟨x, literal, rfl⟩
  simp [Content.constraintAt?, family, Family.get?, made, Except.toOption, listed]

theorem rowsFor_ids (number : Nat) (name : String) (ids : List Value) :
    (rowsFor number name ids).map (·.1) = ids := by
  simp [rowsFor, Function.comp_def]

theorem mem_rowsFor {number : Nat} {name : String} {e : Value × Handle}
    (h : e ∈ rowsFor number name ids) :
    ∃ position, ids[position]? = some e.1 ∧ e.2 = ⟨number, name, position⟩ := by
  obtain ⟨⟨id, position⟩, listed, rfl⟩ := List.mem_map.mp h
  exact ⟨position, List.mem_zipIdx_iff_getElem?.mp listed, rfl⟩

theorem rowsFor_handles_nodup (number : Nat) (name : String) (ids : List Value) :
    ((rowsFor number name ids).map (·.2)).Nodup := by
  have handles : (rowsFor number name ids).map (·.2) =
      (List.range' 0 ids.length).map (Handle.mk number name) := by
    rw [rowsFor, List.map_map, ← List.zipIdx_map_snd, List.map_map]
    rfl
  rw [handles]
  exact List.Nodup.map (fun _ _ h => congrArg Handle.position h) List.nodup_range'

end Convexity

namespace Decomposition

/-- The constraints of a model under one name are those of one component. -/
theorem Outlined.rows_of_name {id : Nat} {contents : List (String × Content)} {m : Model}
    (h : Outlined id contents m) {name : String} {content : Content}
    (listed : (name, content) ∈ contents) :
    (m.allConstraints.filter fun e => e.1.name = name) = content.rows id name := by
  have names := h.names_nodup
  rw [h.names_eq] at names
  have own {label : String} {c : Content} {e : Key × Handle} (he : e ∈ c.rows id label) :
      e.1.name = label := (Content.of_mem_rows he).1
  rw [h.allConstraints_eq, List.filter_flatMap,
    flatMap_eq_of_only (List.Nodup.of_map _ names) listed fun other ho different => ?_]
  · exact List.filter_eq_self.mpr fun e he => by simpa using own he
  · refine List.filter_eq_nil_iff.mpr fun e he => ?_
    rw [own he]
    have apart : other.1 ≠ name := fun same =>
      different (List.inj_on_of_nodup_map names ho listed same)
    simpa using apart

end Decomposition

namespace Reformulation

/-- The convexity constraints of one side of a result: one for every id, in the order of the ids,
which are all that the master has under their name. Every spelling of an id finds its constraint,
and nothing else finds one. Each is an empty body with the configured side, which is its only
limit if it is finite. -/
structure HasConvexityRows (r : Reformulation) (config : Config) (isLower : Bool) : Prop where
  ids : (r.convexityRows isLower).map (·.1) = r.ids
  listed : ∃ label, config.sideName isLower = .str label ∧
    (r.master.allConstraints.filter fun e => e.1.name = label) =
      (r.convexityRows isLower).map fun e => (⟨label, e.1.toIndex⟩, e.2)
  found : ∀ id row, Value.lookup? id (r.convexityRows isLower) = some row ↔
    ∃ own, own.same id = true ∧ (own, row) ∈ r.convexityRows isLower
  rows : ∀ e ∈ r.convexityRows isLower, ∃ x, (config.sideRhs isLower).literal? = some x ∧
    r.master.constraintOf? e.2 = some (Convexity.row isLower x)
  limited : ∀ e ∈ r.convexityRows isLower, ∀ c, r.master.constraintOf? e.2 = some c →
    ∀ x y, (config.sideRhs isLower).literal? = some x → x.real = .ok y →
      Binary64.isInfinite y = false → ∀ s, Limits.ofConstraint? s c =
        .ok ⟨if isLower then some y else none, if isLower then none else some y, false⟩

/-- The master has two convexity constraints for every id with an annotated element. -/
structure IsScaffolded (r : Reformulation) (config : Config) : Prop where
  /-- The ids are those of the annotated elements, in one spelling each. -/
  used : ∀ id ∈ r.ids, id ∈ r.assignment.ids
  covered : ∀ id ∈ r.assignment.ids, ∃ own ∈ r.ids, own.same id = true
  distinct : r.ids.Pairwise fun a b => a.same b = false
  sorted : (∀ id ∈ r.ids, id.holdsNaN = false) →
    r.ids.Pairwise fun a b => (Value.order a b).isLE = true
  ascending : (∀ id ∈ r.ids, id.isSimple = true) → r.ids.Pairwise Value.Precedes
  sides : ∀ isLower, r.HasConvexityRows config isLower
  apart : ((r.convexityLower ++ r.convexityUpper).map (·.2)).Nodup
  /-- The two of an id are found together. -/
  pairs : ∀ id rows, r.convexityOf id = .ok rows ↔ ∃ own, own.same id = true ∧
    (own, rows.1) ∈ r.convexityLower ∧ (own, rows.2) ∈ r.convexityUpper
  known : ∀ id, (∃ rows, r.convexityOf id = .ok rows) ↔ ∃ own ∈ r.ids, own.same id = true

end Reformulation

namespace Decomposition

variable {first : Nat} {m : Model} {classify : Classify} {config : Config} {r : Reformulation}

theorem convexity_literal (wf : m.WellFormed) (h : decompose first m classify config = .ok r) :
    ∀ id ∈ r.ids, ∀ isLower, ∃ x, (config.sideRhs isLower).literal? = some x := by
  have trace := decompose_trace wf h
  simp only [decompose, Success.bind_ok] at h
  obtain ⟨assignment, assigned, h⟩ := h
  split at h
  · simp at h
  split at h
  · simp at h
  simp only [Success.bind_ok, Success.mapError_ok, Stage.finish_ok, Success.pure_ok,
    Prod.exists] at h
  obtain ⟨p, _, _, _, _, -, _, -, _, -, _, _, -, _, _, -, _, -, _, -, _, _, _, convexity, _, -, _,
    -, made⟩ := h
  have ids : r.ids = p.subproblemIds := by
    rw [trace.ids_eq, ← made]
  rw [ids]
  simp only [Convexity.add, Stage.bind_ok] at convexity
  obtain ⟨_, _, -, _, _, -, rows⟩ := convexity
  exact Convexity.addRows_literal rows

end Decomposition

namespace Reformulation.Trace

variable {first : Nat} {m : Model} {classify : Classify} {config : Config} {r : Reformulation}
  {isLower : Bool}

/-- What the master contains, the convexity constraints included. -/
theorem master_outlined (h : r.Trace first m classify config) : Outlined first
    (r.contentsOf m config .master ++ convexityContents config r.ids .master) r.master := by
  obtain ⟨number, hb, shape⟩ := h.exists_outlined List.mem_cons_self
  obtain rfl : number = 0 := congrArg Prod.snd
    (numbered_unique h.ids_distinct hb (master_numbered r.ids) rfl)
  exact shape

/-- The convexity constraints of a side are a component of the master. -/
theorem convexityRows_eq (h : r.Trace first m classify config) (isLower : Bool) :
    ∃ label, config.sideName isLower = .str label ∧
      r.convexityRows isLower = Convexity.rowsFor first label r.ids ∧
      (label, Content.constraints true
        (Convexity.family (config.sideRhs isLower) isLower r.ids)) ∈
          r.contentsOf m config .master ++ convexityContents config r.ids .master := by
  obtain ⟨lowerName, upperName, lowerNamed, upperNamed, lower, upper⟩ := h.rows
  cases isLower
  · exact ⟨upperName, upperNamed, upper, by
      simp [convexityContents, lowerNamed, upperNamed, Config.sideRhs]⟩
  · exact ⟨lowerName, lowerNamed, lower, by
      simp [convexityContents, lowerNamed, upperNamed, Config.sideRhs]⟩

theorem convexityRows_ids (h : r.Trace first m classify config) (isLower : Bool) :
    (r.convexityRows isLower).map (·.1) = r.ids := by
  obtain ⟨label, -, rows, -⟩ := h.convexityRows_eq isLower
  rw [rows, Convexity.rowsFor_ids]

/-- The constraint of a convexity handle has the configured side. -/
theorem convexityRow_eq (h : r.Trace first m classify config) {e : Value × Handle}
    (he : e ∈ r.convexityRows isLower) {x : Numeric}
    (literal : (config.sideRhs isLower).literal? = some x) :
    r.master.constraintOf? e.2 = some (Convexity.row isLower x) := by
  obtain ⟨label, -, rows, component⟩ := h.convexityRows_eq isLower
  rw [rows] at he
  obtain ⟨position, listed, handle⟩ := Convexity.mem_rowsFor he
  rw [handle, h.master_outlined.constraintOf?_eq component]
  exact Convexity.family_constraintAt? literal (List.getElem?_eq_some_iff.mp listed).1

/-- Every spelling of an id finds its convexity constraint of a side, and nothing else finds one. -/
theorem lookup?_convexityRows (h : r.Trace first m classify config) (isLower : Bool) {id : Value}
    {row : Handle} : Value.lookup? id (r.convexityRows isLower) = some row ↔
      ∃ own, own.same id = true ∧ (own, row) ∈ r.convexityRows isLower := by
  constructor
  · intro found
    obtain ⟨own, listed, same⟩ := Value.mem_of_lookup? found
    exact ⟨own, same, listed⟩
  · rintro ⟨own, same, listed⟩
    refine Value.lookup?_of_mem ?_ listed same
    rw [h.convexityRows_ids]
    exact h.ids_distinct

theorem hasConvexityRows (h : r.Trace first m classify config)
    (literal : ∀ id ∈ r.ids, ∀ isLower, ∃ x, (config.sideRhs isLower).literal? = some x)
    (isLower : Bool) : r.HasConvexityRows config isLower where
  ids := h.convexityRows_ids isLower
  listed := by
    obtain ⟨label, named, rows, component⟩ := h.convexityRows_eq isLower
    refine ⟨label, named, ?_⟩
    rw [h.master_outlined.rows_of_name component, rows]
    exact Convexity.family_rows (fun id hid => literal id hid isLower) first label
  found _ _ := h.lookup?_convexityRows isLower
  rows e he := by
    have listed : e.1 ∈ r.ids := h.convexityRows_ids isLower ▸ List.mem_map_of_mem he
    obtain ⟨x, literal⟩ := literal e.1 listed isLower
    exact ⟨x, literal, h.convexityRow_eq he literal⟩
  limited e he c there x y literal real finite s := by
    obtain rfl := Option.some.inj ((h.convexityRow_eq he literal).symm.trans there)
    exact Convexity.limits_row real finite s

/-- No two convexity constraints are the same one. -/
theorem convexity_apart (h : r.Trace first m classify config) :
    ((r.convexityLower ++ r.convexityUpper).map (·.2)).Nodup := by
  obtain ⟨lowerName, upperName, lowerNamed, upperNamed, lower, upper⟩ := h.rows
  have names := h.master_outlined.names_nodup
  rw [h.master_outlined.names_eq, List.map_append] at names
  have other : lowerName ≠ upperName := by
    have added := (List.nodup_append.mp names).2.1
    simpa [convexityContents, lowerNamed, upperNamed] using added
  rw [List.map_append, lower, upper]
  refine List.nodup_append.mpr ⟨Convexity.rowsFor_handles_nodup ..,
    Convexity.rowsFor_handles_nodup .., fun low hlow up hup equal => other ?_⟩
  obtain ⟨_, he, rfl⟩ := List.mem_map.mp hlow
  obtain ⟨_, he', rfl⟩ := List.mem_map.mp hup
  obtain ⟨_, -, handle⟩ := Convexity.mem_rowsFor he
  obtain ⟨_, -, handle'⟩ := Convexity.mem_rowsFor he'
  rw [handle, handle'] at equal
  exact congrArg Handle.component equal

theorem convexityOf_ok (h : r.Trace first m classify config) {id : Value} {rows : Handle × Handle} :
    r.convexityOf id = .ok rows ↔ ∃ own, own.same id = true ∧
      (own, rows.1) ∈ r.convexityLower ∧ (own, rows.2) ∈ r.convexityUpper := by
  have listed (isLower : Bool) {own : Value} {row : Handle}
      (he : (own, row) ∈ r.convexityRows isLower) : own ∈ r.ids :=
    h.convexityRows_ids isLower ▸ List.mem_map_of_mem (f := (·.1)) he
  constructor
  · intro found
    unfold convexityOf at found
    split at found
    · cases found
    split at found
    · rename_i lower upper
      obtain rfl := Except.ok.inj found
      obtain ⟨own, same, he⟩ := (h.lookup?_convexityRows true).mp lower
      obtain ⟨own', same', he'⟩ := (h.lookup?_convexityRows false).mp upper
      obtain rfl := h.ids_distinct.unique (listed true he) (listed false he') same same'
      exact ⟨own, same, he, he'⟩
    · cases found
  · rintro ⟨own, same, he, he'⟩
    have hashable : id.hashable = true := Value.hashable_of_same
      (h.ids_distinct.keys own (listed true he)).hashable same
    have lower : Value.lookup? id r.convexityLower = some rows.1 :=
      (h.lookup?_convexityRows true).mpr ⟨own, same, he⟩
    have upper : Value.lookup? id r.convexityUpper = some rows.2 :=
      (h.lookup?_convexityRows false).mpr ⟨own, same, he'⟩
    simp [convexityOf, hashable, lower, upper]

/-- There are convexity constraints for the ids in all their spellings, and for nothing else. -/
theorem convexityOf_defined (h : r.Trace first m classify config) (id : Value) :
    (∃ rows, r.convexityOf id = .ok rows) ↔ ∃ own ∈ r.ids, own.same id = true := by
  have lowerIds : r.convexityLower.map (·.1) = r.ids := h.convexityRows_ids true
  have upperIds : r.convexityUpper.map (·.1) = r.ids := h.convexityRows_ids false
  constructor
  · rintro ⟨rows, found⟩
    obtain ⟨own, same, he, -⟩ := h.convexityOf_ok.mp found
    exact ⟨own, lowerIds ▸ List.mem_map_of_mem (f := (·.1)) he, same⟩
  · rintro ⟨own, hown, same⟩
    obtain ⟨⟨_, lower⟩, he, rfl⟩ := List.mem_map.mp (lowerIds ▸ hown)
    obtain ⟨⟨_, upper⟩, he', equal⟩ := List.mem_map.mp (upperIds ▸ hown)
    obtain rfl := equal
    exact ⟨(lower, upper), h.convexityOf_ok.mpr ⟨_, same, he, he'⟩⟩

end Reformulation.Trace

namespace Decomposition

variable {first : Nat} {m : Model} {classify : Classify} {config : Config} {r : Reformulation}

/-- A decomposition gives the master a lower and an upper convexity constraint for every id. -/
theorem scaffolds (wf : m.WellFormed) (h : decompose first m classify config = .ok r) :
    r.IsScaffolded config := by
  have trace := decompose_trace wf h
  obtain ⟨raw, sorted⟩ : ∃ raw, r.ids = Value.sortIds raw :=
    ⟨_, trace.ids_eq⟩
  have perm : r.ids.Perm raw := sorted ▸ Value.sortIds_perm raw
  exact {
    used := fun _ => trace.mem_assignment_ids
    covered := fun _ => trace.exists_id
    distinct := trace.ids_distinct.pairwise
    sorted := fun free => by
      rw [sorted]
      exact Value.sortIds_pairwise
        (Value.anyNaN_eq_false.mpr fun id hid => free id (perm.mem_iff.mpr hid))
    ascending := fun simple => by
      have strict := Value.sortIds_strict (fun id hid => simple id (perm.mem_iff.mpr hid))
        (trace.ids_distinct.perm perm)
      rw [← sorted] at strict
      exact strict.imp_of_mem fun ha hb => (Value.order_eq_lt (simple _ ha) (simple _ hb)).mp
    sides := trace.hasConvexityRows (convexity_literal wf h)
    apart := trace.convexity_apart
    pairs := fun _ _ => trace.convexityOf_ok
    known := trace.convexityOf_defined }

end Decomposition

/-- One variable is in a subproblem, which gets its pair of convexity constraints. -/
theorem twoColumns_scaffolds : twoColumns.WellFormed ∧
    ∃ r, Decomposition.decompose 1 twoColumns firstApart .standard = .ok r ∧
      r.IsScaffolded .standard := by
  obtain ⟨r, h⟩ := twoColumns_decomposes
  exact ⟨twoColumns_wellFormed, r, h, Decomposition.scaffolds twoColumns_wellFormed h⟩

-- a number is another id than the tuple of it, and nested tuples are not flattened
example : (Value.int 1).same (.tuple [.int 1]) = false ∧
    (Value.tuple [.int 1, .tuple [.int 2, .int 3]]).same (.tuple [.int 1, .int 2, .int 3]) = false ∧
      (Value.int 1).same (.bool true) = true := by decide +kernel

end BlockAngular
