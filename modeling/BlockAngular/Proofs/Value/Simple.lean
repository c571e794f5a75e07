import BlockAngular.Proofs.Number.Binary64
import BlockAngular.Proofs.Value.Ordering
import BlockAngular.Proofs.Value.Tables
import Mathlib.Algebra.Order.Ring.Cast

/-! # Values that are easily told apart

Among absent values, numbers, texts and tuples of these, where no number is a NaN, only equal
values take the same rank. So the order in which such values come has no influence on the order
in which they are sorted, and neither has the spelling in which they come.
-/

namespace BlockAngular

namespace Value

mutual

/-- Whether a value is absent, a number, a text or a tuple of such values. -/
def isSimple : Value → Bool
  | .null | .bool _ | .int _ | .str _ => true
  | .float x => !Binary64.isNaN x
  | .tuple items => allSimple items
  | _ => false

/-- Whether all items are simple. -/
def allSimple : List Value → Bool
  | [] => true
  | v :: rest => isSimple v && allSimple rest

end

theorem allSimple_iff {vs : List Value} : allSimple vs = true ↔ ∀ v ∈ vs, v.isSimple = true := by
  induction vs with
  | nil => simp [allSimple]
  | cons v vs ih => simp [allSimple, ih]

mutual

theorem isSimple.holdsNaN {v : Value} (h : v.isSimple = true) : v.holdsNaN = false := by
  cases v with
  | tuple items =>
      rw [isSimple] at h
      simpa [Value.holdsNaN] using allSimple.anyNaN h
  | float x => simpa [isSimple, Value.holdsNaN, real?, Binary64.isNaN] using h
  | null | bool | int | str => rfl
  | dots | nan | complex | bytes | list | table | record => simp [isSimple] at h
termination_by sizeOf v

theorem allSimple.anyNaN {vs : List Value} (h : allSimple vs = true) : Value.anyNaN vs = false := by
  match vs with
  | [] => rfl
  | v :: rest =>
      simp only [allSimple, Bool.and_eq_true] at h
      simp [Value.anyNaN, isSimple.holdsNaN h.1, allSimple.anyNaN h.2]
termination_by sizeOf vs

end

theorem any_anyNaN_of_simple {rows : List (List Value)}
    (simple : ∀ row ∈ rows, allSimple row = true) : rows.any anyNaN = false :=
  List.any_eq_false.mpr fun row hr => by simpa using allSimple.anyNaN (simple row hr)

mutual

theorem isSimple.hashable {v : Value} (h : v.isSimple = true) : v.hashable = true := by
  cases v with
  | tuple items =>
      rw [isSimple] at h
      simpa [Value.hashable] using allSimple.allHashable h
  | null | bool | int | str | float | dots | nan | complex | bytes => rfl
  | list | table | record => simp [isSimple] at h
termination_by sizeOf v

theorem allSimple.allHashable {vs : List Value} (h : allSimple vs = true) :
    Value.allHashable vs = true := by
  match vs with
  | [] => rfl
  | v :: rest =>
      simp only [allSimple, Bool.and_eq_true] at h
      simp [Value.allHashable, isSimple.hashable h.1, allSimple.allHashable h.2]
termination_by sizeOf vs

end

mutual

/-- A simple value has no NaN to mark. -/
theorem isSimple.marked {v : Value} (h : v.isSimple = true) (mark : Nat) : v.marked mark = v := by
  cases v with
  | tuple items =>
      rw [isSimple] at h
      rw [Value.marked, allSimple.allMarked h mark]
  | float x => simp_all [isSimple, Value.marked]
  | null | bool | int | str | dots | nan | complex | bytes | list | table | record => rfl
termination_by sizeOf v

theorem allSimple.allMarked {vs : List Value} (h : allSimple vs = true) (mark : Nat) :
    Value.allMarked mark vs = vs := by
  match vs with
  | [] => rfl
  | v :: rest =>
      simp only [allSimple, Bool.and_eq_true] at h
      rw [Value.allMarked, isSimple.marked h.1 mark, allSimple.allMarked h.2 mark]
termination_by sizeOf vs

end

theorem number?_of_real {v : Value} {x : Exact} (h : v.real? = some x) :
    v.number? = some (x, .finite 0) := by
  cases v <;> simp_all [number?, real?]

/-- Numbers are equal if they are equal as real numbers. -/
theorem same_iff_real {a b : Value} {x y : Exact} (number : a.isPlainNumber = true)
    (ha : a.real? = some x) (hb : b.real? = some y) (real : x ≠ .nan) :
    a.same b = true ↔ x = y := by
  have plain : a.isComplex = false := by cases a <;> simp_all [isComplex, real?]
  rw [same_iff_of_isPlainNumber number, number?_of_real ha, number?_of_real hb]
  simp only [plain, Bool.false_eq_true, false_and, or_false, Option.some.injEq, Prod.mk.injEq]
  constructor
  · rintro ⟨_, _, ⟨rfl, -⟩, ⟨rfl, -⟩, -⟩
    rfl
  · rintro rfl
    exact ⟨x, .finite 0, ⟨rfl, rfl⟩, ⟨rfl, rfl⟩, real, by simp⟩

/-- A simple value is a number, a text, a tuple of simple values, or absent. -/
theorem isSimple_cases {v : Value} (h : v.isSimple = true) :
    (v.orderClass = 0 ∧ v.isPlainNumber = true ∧ ∃ x, v.real? = some x ∧ x ≠ .nan) ∨
      (∃ s, v = .str s) ∨ (∃ items, v = .tuple items ∧ allSimple items = true) ∨ v = .null := by
  cases v <;> simp_all [isSimple, real?, orderClass, isPlainNumber, Binary64.isNaN]

theorem number_of_isSimple {v : Value} (h : v.isSimple = true) (class_ : v.orderClass = 0) :
    v.isPlainNumber = true ∧ ∃ x, v.real? = some x ∧ x ≠ .nan := by
  rcases isSimple_cases h with ⟨-, number⟩ | ⟨s, rfl⟩ | ⟨items, rfl, -⟩ | rfl
  · exact number
  all_goals simp [orderClass] at class_

theorem orderClass_eq_of_same {a b : Value} (ha : a.isSimple = true) (hb : b.isSimple = true)
    (h : a.same b = true) : a.orderClass = b.orderClass := by
  rcases isSimple_cases ha with ⟨class_, number, -⟩ | ⟨s, rfl⟩ | ⟨items, rfl, -⟩ | rfl
  · have number' := isPlainNumber_of_same number h
    rcases isSimple_cases hb with ⟨class_', -⟩ | ⟨s, rfl⟩ | ⟨items, rfl, -⟩ | rfl
    · rw [class_, class_']
    all_goals cases number'
  · rw [eq_of_same h rfl rfl (by simp)]
  · obtain ⟨items', rfl, -⟩ := tuple_of_same h
    rfl
  · rw [eq_of_same h rfl rfl (by simp)]

mutual

/-- Simple values of one rank are equal. -/
theorem order_eq_iff {a b : Value} (ha : a.isSimple = true) (hb : b.isSimple = true) :
    order a b = .eq ↔ a.same b = true := by
  by_cases classes : a.orderClass = b.orderClass
  · rw [order_eq, Ordering.then_eq_eq, Nat.compare_eq_eq, and_iff_right classes]
    rcases isSimple_cases ha with ⟨class_, number, x, hx, real⟩ | ⟨s, rfl⟩ | ⟨items, rfl, simple⟩ | rfl
    · obtain ⟨-, y, hy, real'⟩ := number_of_isSimple hb (classes.symm.trans class_)
      rw [orderWithin_of_real class_, compareReals_eq hx hy, Exact.order_eq_iff real real',
        same_iff_real number hx hy real]
    · obtain ⟨t, rfl⟩ := str_of_orderClass classes.symm
      simp [orderWithin, compareTexts_eq_iff, same, String.toList_inj]
    · obtain ⟨items', rfl⟩ := tuple_of_orderClass classes.symm
      rw [isSimple] at hb
      rw [orderWithin, same]
      exact orderItems_eq_iff simple hb
    · obtain rfl : b = .null := by
        rcases isSimple_cases hb with ⟨class_, -⟩ | ⟨s, rfl⟩ | ⟨items, rfl, -⟩ | rfl
        · cases classes.trans class_
        · cases classes
        · cases classes
        · rfl
      simp [orderWithin_of_other (a := .null) rfl, compareTexts_eq_iff, same]
  · refine iff_of_false (fun equal => ?_) fun same => classes (orderClass_eq_of_same ha hb same)
    rw [order_eq, Ordering.then_eq_eq, Nat.compare_eq_eq] at equal
    exact classes equal.1
termination_by sizeOf a

theorem orderItems_eq_iff {as bs : List Value} (ha : allSimple as = true)
    (hb : allSimple bs = true) : orderItems as bs = .eq ↔ sameItems as bs = true := by
  match as, bs with
  | [], [] => simp [orderItems, sameItems]
  | [], _ :: _ | _ :: _, [] => simp [orderItems, sameItems]
  | a :: as, b :: bs =>
      simp only [allSimple, Bool.and_eq_true] at ha hb
      simp [orderItems, sameItems, Ordering.then_eq_eq, order_eq_iff ha.1 hb.1,
        orderItems_eq_iff ha.2 hb.2]
termination_by sizeOf as

end

/-- Indices that are told apart are sorted in one way, in whatever order they come. -/
theorem sortIndices_of_perm {rows rows' : List (List Value)} (p : rows'.Perm rows)
    (simple : ∀ row ∈ rows, allSimple row = true)
    (unique : ∀ a ∈ rows, ∀ b ∈ rows, sameItems a b = true → a = b) :
    sortIndices rows' = sortIndices rows := by
  have free : rows.any anyNaN = false := any_anyNaN_of_simple simple
  have free' : rows'.any anyNaN = false := p.any_eq.trans free
  refine List.Perm.eq_of_pairwise (fun a b ha hb before behind => ?_) (sortIndices_pairwise free')
    (sortIndices_pairwise free)
    ((sortIndices_perm rows').trans (p.trans (sortIndices_perm rows).symm))
  have ha := p.mem_iff.mp ((sortIndices_perm rows').mem_iff.mp ha)
  have hb := (sortIndices_perm rows).mem_iff.mp hb
  rw [orderItems_swap a b] at behind
  refine unique a ha b hb ((orderItems_eq_iff (simple a ha) (simple b hb)).mp ?_)
  cases o : orderItems a b <;> simp_all

/-- Equal values are compared alike. -/
theorem order_congr {a b c : Value} (ha : a.isSimple = true) (hb : b.isSimple = true)
    (hc : c.isSimple = true) (same : a.same b = true) : order a c = order b c := by
  have fits := order_fits (isSimple.holdsNaN ha) (isSimple.holdsNaN hb) (isSimple.holdsNaN hc)
  rw [(order_eq_iff ha hb).mpr same] at fits
  exact fits

/-- Lists in strict order with equal members are equal, member by member. -/
theorem forall₂_same_of_sorted {vs ws : List Value} (simple : ∀ v ∈ vs, v.isSimple = true)
    (simple' : ∀ w ∈ ws, w.isSimple = true) (sorted : vs.Pairwise fun a b => order a b = .lt)
    (sorted' : ws.Pairwise fun a b => order a b = .lt)
    (covers : ∀ v ∈ vs, ∃ w ∈ ws, v.same w = true) (covers' : ∀ w ∈ ws, ∃ v ∈ vs, v.same w = true) :
    List.Forall₂ (fun v w => v.same w = true) vs ws := by
  induction vs generalizing ws with
  | nil =>
      cases ws with
      | nil => exact .nil
      | cons w ws => simpa using covers' w List.mem_cons_self
  | cons v vs ih =>
      cases ws with
      | nil => simpa using covers v List.mem_cons_self
      | cons w ws =>
          obtain ⟨hv, hvs⟩ := List.forall_mem_cons.mp simple
          obtain ⟨hw, hws⟩ := List.forall_mem_cons.mp simple'
          obtain ⟨first, rest⟩ := List.pairwise_cons.mp sorted
          obtain ⟨first', rest'⟩ := List.pairwise_cons.mp sorted'
          have heads : v.same w = true := by
            obtain ⟨w', hw', same⟩ := covers v List.mem_cons_self
            obtain ⟨v', hv', same'⟩ := covers' w List.mem_cons_self
            rcases List.mem_cons.mp hw' with rfl | hw'
            · exact same
            · rcases List.mem_cons.mp hv' with rfl | hv'
              · exact same'
              · -- each head would stand before the other one
                have behind := order_congr hv (hws w' hw') hw same
                have before := order_congr (hvs v' hv') hw hv same'
                rw [order_swap w w', first' w' hw'] at behind
                rw [order_swap v v', first v' hv', order_swap v w, behind] at before
                cases before
          have other : ∀ v' ∈ vs, v'.same w = false := fun v' hv' => by
            by_contra same
            have congr := order_congr (hvs v' hv') hw hv (by simpa using same)
            rw [order_swap v v', first v' hv', order_swap v w, (order_eq_iff hv hw).mpr heads] at congr
            cases congr
          have other' : ∀ w' ∈ ws, v.same w' = false := fun w' hw' => by
            by_contra same
            have congr := order_congr hv hw (hws w' hw') heads
            rw [first' w' hw', (order_eq_iff hv (hws w' hw')).mpr (by simpa using same)] at congr
            cases congr
          refine .cons heads (ih hvs hws rest rest' (fun v' hv' => ?_) fun w' hw' => ?_)
          · obtain ⟨w', hw', same⟩ := covers v' (List.mem_cons_of_mem _ hv')
            rcases List.mem_cons.mp hw' with rfl | hw'
            · simp [other v' hv'] at same
            · exact ⟨w', hw', same⟩
          · obtain ⟨v', hv', same⟩ := covers' w' (List.mem_cons_of_mem _ hw')
            rcases List.mem_cons.mp hv' with rfl | hv'
            · simp [other' w' hw'] at same
            · exact ⟨v', hv', same⟩

/-- Sorted ids that are told apart are in strict order. -/
theorem sortIds_strict {ids : List Value} (simple : ∀ id ∈ ids, id.isSimple = true)
    (distinct : Distinct ids) : (sortIds ids).Pairwise fun a b => order a b = .lt := by
  have free : anyNaN ids = false := allSimple.anyNaN (allSimple_iff.mpr simple)
  have perm := sortIds_perm ids
  refine (List.pairwise_and_iff.mpr ⟨sortIds_pairwise free, (distinct.perm perm.symm).pairwise⟩).imp_of_mem
    fun {a b} ha hb h => ?_
  have apart : order a b ≠ .eq := fun equal => by
    rw [order_eq_iff (simple a (perm.mem_iff.mp ha)) (simple b (perm.mem_iff.mp hb)), h.2] at equal
    cases equal
  obtain ⟨le, -⟩ := h
  cases o : order a b <;> simp_all

/-- Two lists of ids that have equal members are sorted alike, but for the spelling. -/
theorem sortIds_forall₂ {ids ids' : List Value} (simple : ∀ id ∈ ids, id.isSimple = true)
    (simple' : ∀ id ∈ ids', id.isSimple = true) (distinct : Distinct ids) (distinct' : Distinct ids')
    (covers : ∀ v ∈ ids, ∃ w ∈ ids', v.same w = true)
    (covers' : ∀ w ∈ ids', ∃ v ∈ ids, v.same w = true) :
    List.Forall₂ (fun v w => v.same w = true) (sortIds ids) (sortIds ids') := by
  have listed {id : Value} {ids : List Value} : id ∈ sortIds ids ↔ id ∈ ids :=
    (sortIds_perm ids).mem_iff
  refine forall₂_same_of_sorted (fun v hv => simple v (listed.mp hv))
    (fun w hw => simple' w (listed.mp hw)) (sortIds_strict simple distinct)
    (sortIds_strict simple' distinct') (fun v hv => ?_) fun w hw => ?_
  · obtain ⟨w, hw, same⟩ := covers v (listed.mp hv)
    exact ⟨w, listed.mpr hw, same⟩
  · obtain ⟨v, hv, same⟩ := covers' w (listed.mp hw)
    exact ⟨v, listed.mpr hv, same⟩

/-- An integer that a number without an infinite part stands for is short enough to be written
if and only if the number can be written. -/
theorem isWritable_iff_real {v : Value} {x : Exact} (h : v.real? = some x) :
    v.isWritable = true ↔ ∀ n : ℤ, x = .finite n → n.natAbs < tooLong := by
  cases v with
  | bool b =>
      cases h
      refine iff_of_true rfl fun n equal => ?_
      have small : n.natAbs ≤ 1 := by cases b <;> simp_all <;> norm_cast at equal <;> omega
      exact lt_of_le_of_lt small (by decide +kernel)
  | int n =>
      cases h
      simp [isWritable]
  | float y =>
      cases h
      refine iff_of_true rfl fun n equal => ?_
      obtain ⟨m, significand, most⟩ := Binary64.abs_le_of_exact equal
      have whole : n.natAbs ≤ m * 2 ^ 971 := by
        rw [← Int.cast_abs, ← Nat.cast_natAbs] at most
        exact_mod_cast most
      have largest : 2 ^ 53 * 2 ^ 971 ≤ tooLong := by decide +kernel
      exact (whole.trans_lt (Nat.mul_lt_mul_of_pos_right significand (pow_pos two_pos _))).trans_le largest
  | nan mark =>
      cases h
      simp [isWritable]
  | null | dots | complex | str | bytes | tuple | list | table | record => cases h

mutual

/-- Equal values can be written or not, whatever their spelling. -/
theorem isWritable_congr {a b : Value} (ha : a.isSimple = true) (hb : b.isSimple = true)
    (h : a.same b = true) : a.isWritable = b.isWritable := by
  rcases isSimple_cases ha with ⟨class_, number, x, hx, real⟩ | ⟨s, rfl⟩ | ⟨items, rfl, simple⟩ | rfl
  · obtain ⟨-, y, hy, -⟩ := number_of_isSimple hb ((orderClass_eq_of_same ha hb h).symm.trans class_)
    obtain rfl := (same_iff_real number hx hy real).mp h
    rw [Bool.eq_iff_iff, isWritable_iff_real hx, isWritable_iff_real hy]
  · rw [eq_of_same h rfl rfl (by simp)]
  · obtain ⟨items', rfl, same⟩ := tuple_of_same h
    rw [isSimple] at hb
    rw [isWritable, isWritable]
    exact allWritable_congr simple hb same
  · rw [eq_of_same h rfl rfl (by simp)]
termination_by sizeOf a

theorem allWritable_congr {as bs : List Value} (ha : allSimple as = true) (hb : allSimple bs = true)
    (h : sameItems as bs = true) : allWritable as = allWritable bs := by
  match as, bs with
  | [], [] => rfl
  | [], _ :: _ | _ :: _, [] => simp [sameItems] at h
  | a :: as, b :: bs =>
      simp only [allSimple, sameItems, Bool.and_eq_true] at ha hb h
      rw [allWritable, allWritable, isWritable_congr ha.1 hb.1 h.1, allWritable_congr ha.2 hb.2 h.2]
termination_by sizeOf as

end

end Value

end BlockAngular
