import BlockAngular.Proofs.Model.Contents

/-! # Labels

The items that a model is built over are integers that can be written, and text. Rows of these
are indices as they stand, and two of them are the same only if they are equal.
-/

namespace BlockAngular

namespace Value

/-- An integer that can be written, or text. -/
structure IsLabel (v : Value) : Prop where
  isWritable : v.isWritable = true
  kind : (∃ n, v = .int n) ∨ ∃ s, v = .str s

/-- A row of labels, of which there is one. -/
structure IsLabelled (row : List Value) : Prop where
  some : row ≠ []
  labels : ∀ v ∈ row, v.IsLabel

namespace IsLabel

variable {a b : Value}

theorem eq_of_same (ha : a.IsLabel) (hb : b.IsLabel) (h : a.same b = true) : a = b := by
  obtain ⟨n, rfl⟩ | ⟨s, rfl⟩ := ha.kind <;> obtain ⟨n', rfl⟩ | ⟨s', rfl⟩ := hb.kind <;>
    simp_all [same, sameNumber, number?, real?, Exact.same]

theorem isSimple (h : a.IsLabel) : a.isSimple = true := by
  obtain ⟨n, rfl⟩ | ⟨s, rfl⟩ := h.kind <;> rfl

theorem isKey (h : a.IsLabel) : a.IsKey := by
  obtain ⟨n, rfl⟩ | ⟨s, rfl⟩ := h.kind
  · exact isKey_int n
  · exact ⟨rfl, by simp [same]⟩

theorem indexItems (h : a.IsLabel) : a.indexItems = [a] := by
  obtain ⟨n, rfl⟩ | ⟨s, rfl⟩ := h.kind <;> rfl

theorem toIndex (h : a.IsLabel) : a.toIndex = [a] := by
  obtain ⟨n, rfl⟩ | ⟨s, rfl⟩ := h.kind <;> rfl

theorem arity (h : a.IsLabel) : Family.arity a = 1 := by
  obtain ⟨n, rfl⟩ | ⟨s, rfl⟩ := h.kind <;> rfl

theorem not_same_tuple (h : a.IsLabel) (items : List Value) :
    a.same (.tuple items) = false ∧ (Value.tuple items).same a = false := by
  obtain ⟨n, rfl⟩ | ⟨s, rfl⟩ := h.kind <;> simp [same, sameNumber, number?, real?]

end IsLabel

theorem eq_of_sameItems {as bs : List Value} (ha : ∀ v ∈ as, v.IsLabel)
    (hb : ∀ v ∈ bs, v.IsLabel) (h : sameItems as bs = true) : as = bs := by
  induction as generalizing bs with
  | nil =>
      cases bs with
      | nil => rfl
      | cons => simp [sameItems] at h
  | cons a as ih =>
      cases bs with
      | nil => simp [sameItems] at h
      | cons b bs =>
          simp only [sameItems, Bool.and_eq_true] at h
          obtain ⟨first, rest⟩ := List.forall_mem_cons.mp ha
          obtain ⟨first', rest'⟩ := List.forall_mem_cons.mp hb
          rw [first.eq_of_same first' h.1, ih rest rest' h.2]

namespace IsLabelled

variable {row row' : List Value}

theorem one {v : Value} (h : v.IsLabel) : IsLabelled [v] :=
  ⟨by simp, by simpa using h⟩

theorem two {v w : Value} (hv : v.IsLabel) (hw : w.IsLabel) : IsLabelled [v, w] :=
  ⟨by simp, by simp [hv, hw]⟩

theorem flatIndex (h : IsLabelled row) : flatIndex row = row := by
  have each : ∀ vs : List Value, (∀ v ∈ vs, v.IsLabel) → Value.flatIndex vs = vs := by
    intro vs labels
    induction vs with
    | nil => rfl
    | cons v vs ih =>
        obtain ⟨first, rest⟩ := List.forall_mem_cons.mp labels
        rw [Value.flatIndex, first.indexItems, ih rest]
        rfl
  exact each row h.labels

theorem isRow (h : IsLabelled row) : IsRow row := by
  obtain ⟨some, labels⟩ := h
  match row with
  | [] => exact absurd rfl some
  | [v] => exact (labels v (by simp)).toIndex
  | _ :: _ :: _ => rfl

theorem isKey (h : IsLabelled row) : (ofIndex row).IsKey := by
  obtain ⟨some, labels⟩ := h
  have keys : AreKey row := by
    induction row with
    | nil => exact areKey_nil
    | cons v vs ih =>
        obtain ⟨first, rest⟩ := List.forall_mem_cons.mp labels
        have others : AreKey vs := by
          cases vs with
          | nil => exact areKey_nil
          | cons w ws => exact ih (by simp) rest
        exact ⟨by simp [allHashable, first.isKey.hashable, others.hashable],
          by simp [sameItems, first.isKey.same_self, others.same_self]⟩
  match row with
  | [] => exact absurd rfl some
  | [v] => exact (labels v (by simp)).isKey
  | v :: w :: rest =>
      exact ⟨by simpa [ofIndex, hashable] using keys.hashable,
        by simpa [ofIndex, same] using keys.same_self⟩

theorem eq_of_same (h : IsLabelled row) (h' : IsLabelled row')
    (same : (ofIndex row).same (ofIndex row') = true) : row = row' := by
  obtain ⟨some, labels⟩ := h
  obtain ⟨some', labels'⟩ := h'
  match row, row' with
  | [], _ => exact absurd rfl some
  | _, [] => exact absurd rfl some'
  | [v], [w] => rw [(labels v (by simp)).eq_of_same (labels' w (by simp)) same]
  | [v], w :: w' :: rest =>
      have other := ((labels v (by simp)).not_same_tuple (w :: w' :: rest)).1
      exact absurd (other.symm.trans same) (by decide)
  | v :: v' :: rest, [w] =>
      have other := ((labels' w (by simp)).not_same_tuple (v :: v' :: rest)).2
      exact absurd (other.symm.trans same) (by decide)
  | v :: v' :: rest, w :: w' :: rest' =>
      exact eq_of_sameItems labels labels' (by simpa [ofIndex, Value.same] using same)

/-- Rows of labels that differ are different keys. -/
theorem distinct {rows : List (List Value)} (labelled : ∀ row ∈ rows, IsLabelled row)
    (nodup : rows.Nodup) : Distinct (rows.map ofIndex) where
  keys := List.forall_mem_map.mpr fun row hr => (labelled row hr).isKey
  pairwise := List.pairwise_map.mpr <| nodup.imp_of_mem fun {a b} ha hb other => by
    by_contra same
    exact other ((labelled a ha).eq_of_same (labelled b hb) (by simpa using same))

theorem uniform {rows : List (List Value)} (labelled : ∀ row ∈ rows, IsLabelled row) {n : Nat}
    (lengths : ∀ row ∈ rows, row.length = n) : Family.Uniform (rows.map ofIndex) := by
  have arity : ∀ row ∈ rows, Family.arity (ofIndex row) = n := by
    intro row hr
    rw [← lengths row hr]
    obtain ⟨some, labels⟩ := labelled row hr
    match row with
    | [] => exact absurd rfl some
    | [v] => exact (labels v (by simp)).arity
    | _ :: _ :: _ => rfl
  simp only [Family.Uniform, List.forall_mem_map]
  exact fun a ha b hb => (arity a ha).trans (arity b hb).symm

theorem steady {rows : List (List Value)} (labelled : ∀ row ∈ rows, IsLabelled row) :
    Family.Steady rows := fun row hr => by
  rw [(labelled row hr).flatIndex]
  exact (labelled row hr).isKey.same_self

theorem allSimple (h : IsLabelled row) : allSimple row = true :=
  allSimple_iff.mpr fun v hv => (h.labels v hv).isSimple

theorem isWritable (h : IsLabelled row) : (ofIndex row).isWritable = true := by
  obtain ⟨some, labels⟩ := h
  have all : ∀ vs : List Value, (∀ v ∈ vs, v.IsLabel) → allWritable vs = true := by
    intro vs labels
    induction vs with
    | nil => rfl
    | cons v vs ih =>
        obtain ⟨first, rest⟩ := List.forall_mem_cons.mp labels
        simp [allWritable, first.isWritable, ih rest]
  match row with
  | [] => exact absurd rfl some
  | [v] => exact (labels v (by simp)).isWritable
  | v :: w :: rest => exact all _ labels

end IsLabelled

end Value

namespace Model

open Value (IsLabelled)

variable {m : Model} (name : String)

/-- Variables for different rows of labels. -/
theorem addVariables_extends {rows : List (List Value)} (v : Variable) {n : Nat}
    (labelled : ∀ row ∈ rows, IsLabelled row) (nodup : rows.Nodup)
    (lengths : ∀ row ∈ rows, row.length = n) (storable : v.value.isStorable = true)
    (unreserved : Reserved.inModel name = false) (declared : m.Declared) (fresh : name ∉ m.names) :
    ∃ m', addVariables name (some rows) v m = .ok () m' ∧
      m.Extends m' [(name, .ofVariables (some rows) v)] := by
  have appends : Appends (addVariables name (some rows) v) name (.ofVariables (some rows) v) :=
    addVariables_appends storable unreserved (fun row hr => (labelled row hr).flatIndex)
      (IsLabelled.distinct labelled nodup) (IsLabelled.uniform labelled lengths)
  refine appends.exists_extends (addVariables_keeps ?_ v) declared fresh
  rintro _ ⟨⟩
  exact IsLabelled.steady labelled

/-- One variable without an index. -/
theorem addVariable_extends (v : Variable) (storable : v.value.isStorable = true)
    (unreserved : Reserved.inModel name = false) (declared : m.Declared) (fresh : name ∉ m.names) :
    ∃ m', addVariables name none v m = .ok () m' ∧ m.Extends m' [(name, .ofVariables none v)] := by
  have appends : Appends (addVariables name none v) name (.ofVariables none v) :=
    addVariables_appends storable unreserved (by simp) ⟨by simp [Family.indicesOf, Value.isKey_null],
      by simp [Family.indicesOf]⟩ (by simp [Family.indicesOf, Family.Uniform])
  exact appends.exists_extends (addVariables_keeps (by simp) v) declared fresh

/-- Constraints for different labels. -/
theorem addConstraints_extends {items : List Value} (c : Value → Constraint)
    (labels : ∀ item ∈ items, item.IsLabel) (nodup : items.Nodup)
    (plain : ∀ item ∈ items, (c item).HasPlainSides) (unreserved : Reserved.inModel name = false)
    (declared : m.Declared) (fresh : name ∉ m.names) : ∃ m',
      addConstraints name ((items.map fun item => ([item], c item)).map fun row =>
          (row.1, .constraint (.ok row.2))) m = .ok () m' ∧
        m.Extends m' [(name, .ofConstraints (items.map fun item => ([item], c item)))] := by
  have labelled : ∀ row ∈ items.map fun item => [item], IsLabelled row :=
    List.forall_mem_map.mpr fun item hi => .one (labels item hi)
  have rows : (items.map fun item => ([item], c item)).map (fun row => Value.ofIndex row.1) =
      (items.map fun item => [item]).map Value.ofIndex := by simp [Function.comp_def]
  have flat : ∀ row ∈ items.map fun item => ([item], c item), Value.flatIndex row.1 = row.1 :=
    List.forall_mem_map.mpr fun item hi => (IsLabelled.one (labels item hi)).flatIndex
  have appends := addConstraints_appends unreserved flat
    (rows ▸ IsLabelled.distinct labelled (nodup.map fun _ _ same => (List.cons.inj same).1))
    (rows ▸ IsLabelled.uniform (n := 1) labelled (List.forall_mem_map.mpr fun _ _ => rfl))
  refine appends.exists_extends (addConstraints_keeps ?_ ?_) declared fresh
  · simpa [Function.comp_def] using IsLabelled.steady labelled
  · simp only [List.forall_mem_map]
    exact plain

/-- A constraint without an index. -/
theorem addStatement_extends {statement : Statement} {c : Constraint}
    (made : statement.constraint = .ok c) (unreserved : Reserved.inModel name = false)
    (declared : m.Declared) (fresh : name ∉ m.names) : ∃ m',
      addStatement name (some statement) m = .ok () m' ∧ m.Extends m' [(name, .ofConstraint c)] :=
  (addStatement_appends unreserved made).exists_extends (addStatement_keeps _) declared fresh

theorem addObjectiveOf_extends (body : Expression) (sense : Sense)
    (unreserved : Reserved.inModel name = false) (declared : m.Declared) (fresh : name ∉ m.names) :
    ∃ m', addObjectiveOf name (.expr body) sense m = .ok () m' ∧
      m.Extends m' [(name, .ofObjective body sense)] :=
  (addObjectiveOf_appends unreserved).exists_extends (addObjectiveOf_keeps _ sense) declared fresh

end Model

end BlockAngular
