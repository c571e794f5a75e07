import BlockAngular.Model.Activation
import BlockAngular.Proofs.Model.Progress

/-! # Regular components

Rows of any kind become a family of different indices of one length, and no statement puts
variables into the sides of a constraint. Where components are added and elements are put in
their places, changed or switched, a model stays as declarations make it.
-/

namespace BlockAngular

namespace Value

mutual

theorem ne_tuple_of_mem_indexItems {v w : Value} (h : w ∈ v.indexItems) (items : List Value) :
    w ≠ .tuple items := by
  cases v with
  | tuple own =>
      rw [indexItems] at h
      exact ne_tuple_of_mem_flatIndex h items
  | null | dots | bool | int | float | nan | complex | str | bytes | list | table | record =>
      simp only [indexItems, List.mem_singleton] at h
      simp [h]

theorem ne_tuple_of_mem_flatIndex {vs : List Value} {w : Value} (h : w ∈ flatIndex vs)
    (items : List Value) : w ≠ .tuple items := by
  match vs with
  | [] => simp [flatIndex] at h
  | v :: rest =>
      rw [flatIndex, List.mem_append] at h
      exact h.elim (ne_tuple_of_mem_indexItems · items) (ne_tuple_of_mem_flatIndex · items)

end

theorem flatIndex_of_no_tuples {vs : List Value} (h : ∀ v ∈ vs, ∀ items, v ≠ .tuple items) :
    flatIndex vs = vs := by
  induction vs with
  | nil => rfl
  | cons v rest ih =>
      obtain ⟨first, others⟩ := List.forall_mem_cons.mp h
      have single : v.indexItems = [v] := by
        cases v with
        | tuple items => exact absurd rfl (first items)
        | null | dots | bool | int | float | nan | complex | str | bytes | list | table | record =>
            rfl
      rw [flatIndex, single, ih others, List.singleton_append]

/-- An index is made of any row. -/
theorem isIndex_ofIndex (row : List Value) : IsIndex (ofIndex (flatIndex row)) := by
  have noTuples : ∀ v ∈ flatIndex row, ∀ items, v ≠ .tuple items :=
    fun _ hv items => ne_tuple_of_mem_flatIndex hv items
  match flat : flatIndex row with
  | [] => exact isIndex_null
  | [v] =>
      have single := noTuples v (by simp [flat])
      cases v with
      | tuple items => exact absurd rfl (single items)
      | null | dots | bool | int | float | nan | complex | str | bytes | list | table | record =>
          exact ⟨rfl, rfl⟩
  | v :: w :: rest =>
      rw [flat] at noTuples
      exact ⟨rfl, flatIndex_of_no_tuples noTuples⟩

theorem insertEntry_keys {α : Type} (key : Value) (a : α) (table : List (Value × α)) :
    (insertEntry key a table).map (·.1) = insertNew key (table.map (·.1)) := by
  induction table with
  | nil => rfl
  | cons e rest ih =>
      obtain ⟨k, b⟩ := e
      have looked : memberOf key (k :: rest.map (·.1)) =
          (k.same key || memberOf key (rest.map (·.1))) := by simp [memberOf]
      simp only [insertEntry, List.map_cons, insertNew, looked] at ih ⊢
      cases k.same key with
      | true => simp
      | false =>
          simp only [Bool.false_eq_true, if_false, Bool.false_or, List.map_cons, ih]
          split <;> simp

theorem mem_of_mem_insertEntry {α : Type} {key : Value} {a : α} {table : List (Value × α)}
    {e : Value × α} (h : e ∈ insertEntry key a table) : e.2 = a ∨ e ∈ table := by
  induction table with
  | nil => simp_all [insertEntry]
  | cons own rest ih =>
      obtain ⟨k, b⟩ := own
      simp only [insertEntry] at h
      split at h <;> rcases List.mem_cons.mp h with rfl | later
      · exact .inl rfl
      · exact .inr (List.mem_cons_of_mem _ later)
      · exact .inr List.mem_cons_self
      · exact (ih later).imp_right (List.mem_cons_of_mem _)

end Value

namespace Family

variable {α β : Type}

/-- A family as declarations make it. -/
structure Regular (f : Family α) : Prop extends WellFormed f where
  uniform : Uniform (f.elements.map (·.1))

theorem Regular.of_indices {f : Family α} {g : Family β} (h : f.Regular)
    (indexed : g.indexed = f.indexed) (indices : g.elements.map (·.1) = f.elements.map (·.1)) :
    g.Regular :=
  ⟨h.toWellFormed.of_indices indexed indices, indices ▸ h.uniform⟩

theorem optional_regular (a : Option α) : (optional a).Regular :=
  ⟨optional_wellFormed a, by simp [optional, Uniform]⟩

/-- Rows whose indices equal themselves: none holds a NaN without a mark. -/
def Steady (rows : List (List Value)) : Prop :=
  ∀ row ∈ rows, (Value.ofIndex (Value.flatIndex row)).same (Value.ofIndex (Value.flatIndex row)) = true

/-- Elements that are inserted one by one have different indices, all of which are given. -/
theorem foldl_insert_regular {n : Nat} (elements : List (Value × α)) {f : Family α}
    (indexed : f.indexed = true) (regular : f.Regular)
    (alike : ∀ index ∈ f.elements.map (·.1), arity index = n)
    (fit : ∀ e ∈ elements, e.1.IsKey ∧ e.1.IsIndex ∧ arity e.1 = n) :
    (elements.foldl (fun f (index, a) => f.insert index a) f).Regular := by
  induction elements generalizing f with
  | nil => exact regular
  | cons e rest ih =>
      obtain ⟨⟨isKey, isIndex, length⟩, others⟩ := List.forall_mem_cons.mp fit
      have indices : (f.insert e.1 e.2).elements.map (·.1) =
          Value.insertNew e.1 (f.elements.map (·.1)) := Value.insertEntry_keys ..
      have alike' : ∀ index ∈ (f.insert e.1 e.2).elements.map (·.1), arity index = n := by
        rw [indices]
        intro index hi
        exact (Value.mem_of_mem_insertNew hi).elim (alike index) fun equal => equal ▸ length
      refine ih indexed ⟨⟨fun scalar => ?_, ?_, fun element he => ?_⟩, fun a ha b hb => ?_⟩ alike' others
      · exact absurd (indexed.symm.trans scalar) (by simp)
      · exact indices ▸ Value.insertNew_distinct isKey regular.distinct
      · have listed : element.1 ∈ (f.insert e.1 e.2).elements.map (·.1) := List.mem_map_of_mem he
        rw [indices] at listed
        rcases Value.mem_of_mem_insertNew listed with old | new
        · obtain ⟨own, hown, equal⟩ := List.mem_map.mp old
          exact equal ▸ regular.indices own hown
        · exact new ▸ isIndex
      · rw [alike' a ha, alike' b hb]

theorem ofRows?_regular {rows : List (List Value × α)} {f : Family α} (h : ofRows? rows = .ok f)
    (steady : Steady (rows.map (·.1))) : f.Regular := by
  have none : Regular (⟨true, []⟩ : Family α) :=
    ⟨⟨by simp, .nil, by simp⟩, by simp [Uniform]⟩
  simp only [ofRows?] at h
  split at h
  · cases h
  · rename_i hashable
    split at h
    · exact Except.ok.inj h ▸ none
    · rename_i first a rest listed
      split at h
      · rename_i alike
        obtain rfl := Except.ok.inj h
        refine foldl_insert_regular (n := arity first) _ rfl none (by simp) fun e he => ?_
        simp only [Bool.not_eq_true, Bool.not_eq_false', List.all_eq_true, beq_iff_eq] at hashable alike
        refine ⟨⟨hashable e he, ?_⟩, ?_, alike e he⟩
        all_goals obtain ⟨row, hr, rfl⟩ := List.mem_map.mp he
        · exact steady row.1 (List.mem_map_of_mem hr)
        · exact Value.isIndex_ofIndex row.1
      · cases h

/-- The elements of a family are those of the rows. -/
theorem forall_ofRows? {rows : List (List Value × α)} {f : Family α} (h : ofRows? rows = .ok f)
    {p : α → Prop} (given : ∀ row ∈ rows, p row.2) : ∀ e ∈ f.elements, ∀ a ∈ e.2, p a := by
  have inserted (elements : List (Value × α)) (f : Family α)
      (old : ∀ e ∈ f.elements, ∀ a ∈ e.2, p a) (new : ∀ e ∈ elements, p e.2) :
      ∀ e ∈ (elements.foldl (fun f (index, a) => f.insert index a) f).elements, ∀ a ∈ e.2, p a := by
    induction elements generalizing f with
    | nil => exact old
    | cons element rest ih =>
        obtain ⟨first, others⟩ := List.forall_mem_cons.mp new
        refine ih _ (fun e he a ha => ?_) others
        rcases Value.mem_of_mem_insertEntry he with equal | listed
        · exact Option.some.inj (equal.symm.trans ha) ▸ first
        · exact old e listed a ha
  simp only [ofRows?] at h
  split at h
  · cases h
  · split at h
    · exact Except.ok.inj h ▸ by simp
    · split at h
      · obtain rfl := Except.ok.inj h
        refine inserted _ _ (by simp) fun e he => ?_
        obtain ⟨row, hr, rfl⟩ := List.mem_map.mp he
        exact given row hr
      · cases h

section Changes

variable (f : Family α) (position : Nat)

@[simp] theorem setAt_indices (a : α) :
    (f.setAt position a).elements.map (·.1) = f.elements.map (·.1) := by
  refine List.ext_getElem? fun i => ?_
  simp only [setAt, List.getElem?_map, List.getElem?_modify]
  split <;> cases f.elements[i]? <;> rfl

@[simp] theorem update_indices (change : α → α) :
    (f.update position change).elements.map (·.1) = f.elements.map (·.1) := by
  refine List.ext_getElem? fun i => ?_
  simp only [update, List.getElem?_map, List.getElem?_modify]
  split <;> cases f.elements[i]? <;> rfl

@[simp] theorem map_indices (change : α → β) :
    (f.map change).elements.map (·.1) = f.elements.map (·.1) := by
  simp [map, Function.comp_def]

@[simp] theorem cleared_indices :
    (f.cleared : Family β).elements.map (·.1) = f.elements.map (·.1) := by
  simp [cleared, Function.comp_def]

/-- What holds of all elements still does after a change that keeps it. -/
theorem forall_modify {γ : Type} {l : List γ} {change : γ → γ} {p : γ → Prop} (position : Nat)
    (old : ∀ e ∈ l, p e) (new : ∀ e, p e → p (change e)) : ∀ e ∈ l.modify position change, p e := by
  intro e he
  obtain ⟨i, here⟩ := List.mem_iff_getElem?.mp he
  rw [List.getElem?_modify] at here
  obtain ⟨own, there, equal⟩ := Option.map_eq_some_iff.mp here
  have holds := old own (List.mem_of_getElem? there)
  split at equal <;> subst equal
  · exact new own holds
  · exact holds

end Changes

end Family

namespace Constraint

variable {c : Constraint}

/-- Whichever side of a comparison bounds the other one, it has no variables. -/
theorem atMost_plainSides {a b : Expression} (h : atMost a b = .ok c) : c.HasPlainSides := by
  unfold atMost at h
  split at h
  · cases h
  · split at h
    · rename_i plain
      obtain rfl := Except.ok.inj h
      exact ⟨by simp, by simpa using plain⟩
    · split at h
      · rename_i plain
        obtain rfl := Except.ok.inj h
        exact ⟨by simpa using plain, by simp⟩
      · obtain rfl := Except.ok.inj h
        exact ⟨by simp, by simp [Expression.hasVariables]⟩

theorem equal_plainSides {a b : Expression} (h : equal a b = .ok c) : c.HasPlainSides := by
  unfold equal at h
  split at h
  · cases h
  · split at h
    · rename_i plain
      obtain rfl := Except.ok.inj h
      exact ⟨by simpa using plain, by simpa using plain⟩
    · split at h
      · rename_i plain
        obtain rfl := Except.ok.inj h
        exact ⟨by simpa using plain, by simpa using plain⟩
      · obtain rfl := Except.ok.inj h
        exact ⟨by simp [Expression.hasVariables], by simp [Expression.hasVariables]⟩

theorem between_plainSides {lower body upper : Expression} (h : between lower body upper = .ok c) :
    c.HasPlainSides := by
  unfold between at h
  split at h
  · cases h
  · rename_i plain
    simp only [Bool.or_eq_true, not_or, Bool.not_eq_true] at plain
    have sides : c.lower = some lower ∧ c.upper = some upper := by
      split at h
      · split at h
        · cases h
        · exact Except.ok.inj h ▸ ⟨rfl, rfl⟩
      · exact Except.ok.inj h ▸ ⟨rfl, rfl⟩
    exact ⟨by simp [sides, plain], by simp [sides, plain]⟩

end Constraint

/-- The constraint of a statement has plain sides. -/
theorem Statement.constraint_plainSides {statement : Statement} {c : Constraint}
    (h : statement.constraint = .ok c) : c.HasPlainSides := by
  cases statement with
  | idle => cases h
  | atMost a b => exact Constraint.atMost_plainSides h
  | equal a b => exact Constraint.equal_plainSides h
  | range lower body upper =>
      simp only [constraint, Success.bind_ok] at h
      obtain ⟨lower, -, body, -, upper, -, h⟩ := h
      cases lower <;> cases upper <;> simp only [Constraint.range, reduceCtorEq] at h
      · exact Constraint.atMost_plainSides h
      · exact Constraint.atMost_plainSides h
      · exact Constraint.between_plainSides h

/-- A way to make an element that does not bring variables into the sides of a constraint. -/
def Recipe.HasPlainSides : Recipe → Prop
  | .constraint (.ok c) => c.HasPlainSides
  | _ => True

theorem Variable.recipe_plainSides (v : Variable) (index : Value) :
    (v.recipe index).HasPlainSides := by
  unfold recipe
  split
  · split <;> trivial
  · trivial

namespace Content

/-- A component as declarations make it. -/
def Regular : Content → Prop
  | .vars family => family.Regular
  | .constraints _ family => family.Regular ∧
      ∀ element ∈ family.elements, ∀ c ∈ element.2, c.HasPlainSides
  | .objectives _ family => family.Regular
  | _ => True

theorem regular_iff {content : Content} : content.Regular ↔
    content.WellFormed ∧ content.HasPlainSides ∧ Family.Uniform (content.entries.map (·.1)) := by
  have regular {α : Type} (f : Family α) :
      f.Regular ↔ f.WellFormed ∧ Family.Uniform (f.elements.map (·.1)) :=
    ⟨fun h => ⟨h.toWellFormed, h.uniform⟩, fun h => ⟨h.1, h.2⟩⟩
  cases content with
  | vars family => simp [Regular, WellFormed, HasPlainSides, entries, regular, Function.comp_def]
  | constraints active family =>
      simp only [Regular, WellFormed, HasPlainSides, entries, regular, Family.entries_indices]
      tauto
  | objectives active family =>
      simp [Regular, WellFormed, HasPlainSides, entries, regular, Function.comp_def]
  | parameter | expression | reference | block =>
      simp [Regular, WellFormed, HasPlainSides, entries, Family.Uniform]

variable {on : Bool} {content content' : Content}

theorem Regular.switch (regular : content.Regular) (made : content.switch on = .ok content') :
    content'.Regular := by
  cases content with
  | constraints active family =>
      obtain rfl := Except.ok.inj made
      refine ⟨regular.1.of_indices rfl (by simp), fun element he c hc => ?_⟩
      obtain ⟨own, hown, rfl⟩ := List.mem_map.mp he
      obtain ⟨c, there, rfl⟩ := Option.map_eq_some_iff.mp hc
      exact ⟨(regular.2 own hown c there).lower, (regular.2 own hown c there).upper⟩
  | objectives active family =>
      obtain rfl := Except.ok.inj made
      exact Family.Regular.of_indices regular rfl (by simp)
  | block => exact Except.ok.inj made ▸ regular
  | vars | parameter | expression | reference => cases made

theorem Regular.switchEach (regular : content.Regular) (made : content.switchEach on = .ok content') :
    content'.Regular := by
  cases content with
  | constraints active family =>
      obtain rfl := Except.ok.inj made
      have switched : (constraints on (family.map (Constraint.switch on))).Regular :=
        Regular.switch regular rfl
      exact switched
  | objectives active family =>
      obtain rfl := Except.ok.inj made
      exact Family.Regular.of_indices regular rfl (by simp)
  | block => exact Except.ok.inj made ▸ regular
  | vars | parameter | expression | reference => cases made

theorem Regular.switchAt {position : Nat} (regular : content.Regular)
    (made : content.switchAt on position = .ok content') : content'.Regular := by
  cases content with
  | constraints active family =>
      obtain rfl := Except.ok.inj made
      refine ⟨regular.1.of_indices rfl (by simp), Family.forall_modify _ regular.2 ?_⟩
      intro element plain c hc
      obtain ⟨c, there, rfl⟩ := Option.map_eq_some_iff.mp hc
      exact ⟨(plain c there).lower, (plain c there).upper⟩
  | objectives active family =>
      obtain rfl := Except.ok.inj made
      exact Family.Regular.of_indices regular rfl (by simp)
  | block => exact Except.ok.inj made ▸ regular
  | vars | parameter | expression | reference => cases made

end Content

namespace Model

/-- A regular model whose missing elements can be made. -/
structure Declared (m : Model) : Prop where
  names_nodup : m.names.Nodup
  unreserved : ∀ c ∈ m.components, Reserved.inModel c.name = false
  contents : ∀ c ∈ m.components, c.content.Regular
  recipes : ∀ c ∈ m.components, ∀ recipe ∈ c.recipes, recipe.HasPlainSides

namespace Declared

variable {m m' : Model} {h : Handle}

theorem regular (declared : m.Declared) : m.Regular where
  names_nodup := declared.names_nodup
  contents c hc := (Content.regular_iff.mp (declared.contents c hc)).1
  sides c hc := (Content.regular_iff.mp (declared.contents c hc)).2.1
  unreserved := declared.unreserved
  uniform c hc := (Content.regular_iff.mp (declared.contents c hc)).2.2

theorem empty (id : Nat) (name : String) : (Model.empty id name).Declared := by
  constructor <;> simp [Model.empty, names]

/-- One component more. -/
theorem add {name : String} {content : Content} {recipes : List Recipe} (declared : m.Declared)
    (regular : content.Regular) (plain : ∀ recipe ∈ recipes, recipe.HasPlainSides)
    (added : m.add name content recipes = .ok m') : m'.Declared := by
  obtain ⟨free, fresh, rfl⟩ := add_ok.mp added
  have forall_append {p : Component → Prop} (old : ∀ c ∈ m.components, p c)
      (new : p ⟨name, content, recipes⟩) : ∀ c ∈ (m.append ⟨name, content, recipes⟩).components, p c := by
    simpa only [append, List.forall_mem_append, List.forall_mem_singleton] using ⟨old, new⟩
  constructor
  · simp only [names, append, List.map_append, List.map_cons, List.map_nil]
    exact List.nodup_append.mpr ⟨declared.names_nodup, by simp, by
      rintro a ha b hb rfl
      exact fresh (List.mem_singleton.mp hb ▸ ha)⟩
  · exact forall_append declared.unreserved free
  · exact forall_append declared.contents regular
  · exact forall_append declared.recipes plain

/-- Components that are changed, and not what they are called and how their elements are made. -/
theorem map {f : Component → Component} (declared : m.Declared) (named : ∀ c, (f c).name = c.name)
    (made : ∀ c, (f c).recipes = c.recipes)
    (kept : ∀ c, c.content.Regular → (f c).content.Regular) :
    ({ m with components := m.components.map f } : Model).Declared := by
  have forall_map {p : Component → Prop} (each : ∀ c ∈ m.components, p (f c)) :
      ∀ c ∈ m.components.map f, p c := by
    simpa using each
  constructor
  · simpa only [names, List.map_map, Function.comp_def, named] using declared.names_nodup
  · exact forall_map fun c hc => (named c).symm ▸ declared.unreserved c hc
  · exact forall_map fun c hc => kept c (declared.contents c hc)
  · exact forall_map fun c hc => (made c).symm ▸ declared.recipes c hc

theorem change {name : String} {f : Content → Content} (declared : m.Declared)
    (kept : ∀ content, content.Regular → (f content).Regular) : (m.change name f).Declared := by
  refine declared.map (fun c => ?_) (fun c => ?_) fun c regular => ?_ <;> split
  · rfl
  · rfl
  · rfl
  · rfl
  · exact kept _ regular
  · exact regular

theorem putVariable (declared : m.Declared) (v : Variable) :
    (Model.putVariable h v m).Declared := by
  refine declared.change fun content regular => ?_
  cases content with
  | vars family => exact Family.Regular.of_indices regular rfl (by simp)
  | constraints | objectives | parameter | expression | reference | block => exact regular

theorem putConstraint (declared : m.Declared) {c : Constraint} (plain : c.HasPlainSides) :
    (Model.putConstraint h c m).Declared := by
  refine declared.change fun content regular => ?_
  cases content with
  | constraints active family =>
      refine ⟨regular.1.of_indices rfl (by simp), ?_⟩
      exact Family.forall_modify _ regular.2 fun e _ c' put => Option.some.inj put ▸ plain
  | vars | objectives | parameter | expression | reference | block => exact regular

theorem putObjective (declared : m.Declared) (o : Objective) :
    (Model.putObjective h o m).Declared := by
  refine declared.change fun content regular => ?_
  cases content with
  | objectives active family => exact Family.Regular.of_indices regular rfl (by simp)
  | vars | constraints | parameter | expression | reference | block => exact regular

theorem updateVariable (declared : m.Declared) (f : Variable → Variable) :
    (m.updateVariable h f).Declared := by
  unfold Model.updateVariable
  split
  · refine declared.change fun content regular => ?_
    cases content with
    | vars family => exact Family.Regular.of_indices regular rfl (by simp)
    | constraints | objectives | parameter | expression | reference | block => exact regular
  · refine declared.map (fun c => ?_) (fun c => ?_) fun c regular => ?_ <;> split
    · rfl
    · rfl
    · rfl
    · rfl
    · trivial
    · exact regular

end Declared

end Model

end BlockAngular
