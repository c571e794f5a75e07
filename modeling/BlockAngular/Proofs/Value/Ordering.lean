import BlockAngular.Proofs.Value.Sorting
import BlockAngular.Proofs.Value.Equality
import Mathlib.Algebra.Order.Field.Rat

/-! # Values in order

Where there is no NaN, values are compared as in a total preorder, so that sorting leaves no
value in front of a smaller one. A NaN stands before no number and behind none, but even then
not both of two values stand before the other one. So sorting twice is sorting once.
-/

namespace BlockAngular

/-- The outcomes `xy` and `yz` of two comparisons leave room for the outcome `xz`. -/
def Fits : Ordering → Ordering → Ordering → Prop
  | .eq, yz, xz => xz = yz
  | xy, .eq, xz => xz = xy
  | .lt, .lt, xz => xz = .lt
  | .gt, .gt, xz => xz = .gt
  | .lt, .gt, _ => True
  | .gt, .lt, _ => True

namespace Fits

variable {xy yz xz : Ordering}

theorem isLE (h : Fits xy yz xz) (first : xy.isLE = true) (second : yz.isLE = true) :
    xz.isLE = true := by
  cases xy <;> cases yz <;> cases xz <;> simp_all [Fits]

theorem lt_left (o : Ordering) : Fits .lt o .lt := by cases o <;> simp [Fits]

theorem gt_left (o : Ordering) : Fits .gt o .gt := by cases o <;> simp [Fits]

theorem lt_right (o : Ordering) : Fits o .lt .lt := by cases o <;> simp [Fits]

theorem gt_right (o : Ordering) : Fits o .gt .gt := by cases o <;> simp [Fits]

/-- A further comparison decides where the first one does not. -/
theorem andThen {xy' yz' xz' : Ordering} (h : Fits xy yz xz)
    (rest : xy = .eq → yz = .eq → Fits xy' yz' xz') :
    Fits (xy.then xy') (yz.then yz') (xz.then xz') := by
  cases xy with
  | eq =>
      obtain rfl : xz = yz := h
      cases xz with
      | eq => exact rest rfl rfl
      | lt => exact lt_right xy'
      | gt => exact gt_right xy'
  | lt =>
      cases yz with
      | gt => trivial
      | eq | lt =>
          obtain rfl : xz = .lt := h
          exact lt_left _
  | gt =>
      cases yz with
      | lt => trivial
      | eq | gt =>
          obtain rfl : xz = .gt := h
          exact gt_left _

theorem of_transCmp {α : Type} (cmp : α → α → Ordering) [Std.TransCmp cmp] (a b c : α) :
    Fits (cmp a b) (cmp b c) (cmp a c) := by
  cases ab : cmp a b with
  | eq => exact Std.TransCmp.congr_left ab
  | lt =>
      cases bc : cmp b c with
      | eq => exact (Std.TransCmp.congr_right bc).symm.trans ab
      | lt => exact Std.TransCmp.lt_trans ab bc
      | gt => trivial
  | gt =>
      cases bc : cmp b c with
      | eq => exact (Std.TransCmp.congr_right bc).symm.trans ab
      | lt => trivial
      | gt => exact Std.TransCmp.gt_trans ab bc

end Fits

namespace Exact

/-- The three-way comparison of exact values. -/
def order (x y : Exact) : Ordering :=
  if x.below y then .lt else if y.below x then .gt else .eq

theorem below_asymm {x y : Exact} (h : x.below y = true) : y.below x = false := by
  cases x <;> cases y <;> simp_all [below]
  exact le_of_lt h

theorem order_swap (x y : Exact) : y.order x = (x.order y).swap := by
  unfold order
  cases xy : x.below y with
  | true => simp [below_asymm xy]
  | false => cases y.below x <;> rfl

theorem order_finite (p q : ℚ) :
    (finite p).order (finite q) = if p < q then .lt else if q < p then .gt else .eq := by
  simp [order, below]

theorem order_fits {x y z : Exact} (hx : x ≠ .nan) (hy : y ≠ .nan) (hz : z ≠ .nan) :
    Fits (x.order y) (y.order z) (x.order z) := by
  cases x with
  | nan => contradiction
  | infinite a =>
      cases y with
      | nan => contradiction
      | infinite b =>
          cases z with
          | nan => contradiction
          | infinite c => cases a <;> cases b <;> cases c <;> trivial
          | finite r => cases a <;> cases b <;> trivial
      | finite q =>
          cases z with
          | nan => contradiction
          | infinite c => cases a <;> cases c <;> trivial
          | finite r =>
              cases a
              · exact Fits.gt_left _
              · exact Fits.lt_left _
  | finite p =>
      cases y with
      | nan => contradiction
      | infinite b =>
          cases z with
          | nan => contradiction
          | infinite c => cases b <;> cases c <;> trivial
          | finite r => cases b <;> trivial
      | finite q =>
          cases z with
          | nan => contradiction
          | infinite c =>
              cases c
              · exact Fits.lt_right _
              · exact Fits.gt_right _
          | finite r =>
              simp only [order_finite]
              rcases lt_trichotomy q r with qr | rfl | qr <;>
                rcases lt_trichotomy p q with pq | rfl | pq
              · simp [pq, qr, pq.trans qr, Fits]
              · simp [qr, Fits]
              · simp [pq, pq.not_gt, qr, Fits]
              · simp [pq, Fits]
              · simp [Fits]
              · simp [pq, pq.not_gt, Fits]
              · simp [pq, qr, qr.not_gt, Fits]
              · simp [qr, qr.not_gt, Fits]
              · simp [pq, pq.not_gt, qr, qr.not_gt, qr.trans pq, (qr.trans pq).not_gt, Fits]

theorem order_eq_iff {x y : Exact} (hx : x ≠ .nan) (hy : y ≠ .nan) :
    x.order y = .eq ↔ x = y := by
  cases x with
  | nan => contradiction
  | infinite a =>
      cases y with
      | nan => contradiction
      | infinite b => cases a <;> cases b <;> simp [order, below]
      | finite q => cases a <;> simp [order, below]
  | finite p =>
      cases y with
      | nan => contradiction
      | infinite b => cases b <;> simp [order, below]
      | finite q =>
          rw [order_finite]
          rcases lt_trichotomy p q with pq | rfl | pq
          · simp [pq, pq.ne]
          · simp
          · simp [pq, pq.not_gt, pq.ne']

end Exact

namespace Value

instance : Std.TransCmp compareTexts :=
  inferInstanceAs (Std.TransCmp (List.compareLex (compareOn Char.toNat)))

theorem compareTexts_swap (a b : List Char) : compareTexts b a = (compareTexts a b).swap :=
  Std.OrientedCmp.eq_swap

theorem compareTexts_eq_iff {a b : List Char} : compareTexts a b = .eq ↔ a = b := by
  induction a generalizing b with
  | nil => cases b <;> simp [compareTexts, List.compareLex]
  | cons c a ih =>
      cases b with
      | nil => simp [compareTexts, List.compareLex]
      | cons d b =>
          have heads : c.toNat = d.toNat ↔ c = d := ⟨fun h => Char.ext (UInt32.toNat.inj h), congrArg _⟩
          simp only [compareTexts, List.compareLex_cons_cons, Ordering.then_eq_eq, compare_eq_iff_eq] at ih ⊢
          simp [heads, ih]

theorem compareReals_eq {a b : Value} {x y : Exact} (ha : a.real? = some x) (hb : b.real? = some y) :
    compareReals a b = x.order y := by
  simp only [compareReals, ha, hb, Exact.order]

/-- The comparison of values that are of one class. -/
def orderWithin : Value → Value → Ordering
  | .str a, .str b => compareTexts a.toList b.toList
  | .tuple a, .tuple b => orderItems a b
  | a, b =>
    if a.orderClass = 0 then compareReals a b
    else (compareTexts a.kind.toList b.kind.toList).then (compareTexts a.text b.text)

/-- Classes are compared first. -/
theorem order_eq (a b : Value) :
    order a b = (compare a.orderClass b.orderClass).then (orderWithin a b) := by
  rw [order.eq_def]
  unfold orderWithin
  split <;> simp [orderClass]

theorem orderWithin_of_real {a b : Value} (h : a.orderClass = 0) :
    orderWithin a b = compareReals a b := by
  cases a <;> simp_all [orderWithin, orderClass]

theorem orderWithin_of_other {a b : Value} (h : a.orderClass = 3) :
    orderWithin a b =
      (compareTexts a.kind.toList b.kind.toList).then (compareTexts a.text b.text) := by
  cases a <;> simp_all [orderWithin, orderClass]

theorem str_of_orderClass {a : Value} (h : a.orderClass = 1) : ∃ s, a = .str s := by
  cases a <;> simp_all [orderClass]

theorem tuple_of_orderClass {a : Value} (h : a.orderClass = 2) : ∃ items, a = .tuple items := by
  cases a <;> simp_all [orderClass]

theorem real_of_orderClass {a : Value} (h : a.orderClass = 0) : ∃ x, a.real? = some x := by
  cases a <;> simp_all [orderClass, real?]

theorem orderClass_cases (a : Value) :
    a.orderClass = 0 ∨ a.orderClass = 1 ∨ a.orderClass = 2 ∨ a.orderClass = 3 := by
  cases a <;> simp [orderClass]

mutual

theorem order_swap (a b : Value) : order b a = (order a b).swap := by
  rw [order_eq, order_eq a b, Ordering.swap_then, ← Nat.compare_swap a.orderClass]
  by_cases classes : a.orderClass = b.orderClass
  · rw [orderWithin_swap a b classes]
  · have apart : (compare a.orderClass b.orderClass).swap ≠ .eq := by
      simpa [Nat.compare_swap, Nat.compare_eq_eq] using Ne.symm classes
    cases o : (compare a.orderClass b.orderClass).swap <;> simp_all
termination_by (sizeOf a, 1)

theorem orderWithin_swap (a b : Value) (classes : a.orderClass = b.orderClass) :
    orderWithin b a = (orderWithin a b).swap := by
  rcases orderClass_cases a with class_ | class_ | class_ | class_
  · obtain ⟨x, hx⟩ := real_of_orderClass class_
    obtain ⟨y, hy⟩ := real_of_orderClass (classes.symm.trans class_)
    rw [orderWithin_of_real (classes.symm.trans class_), orderWithin_of_real class_,
      compareReals_eq hx hy, compareReals_eq hy hx, Exact.order_swap]
  · obtain ⟨s, rfl⟩ := str_of_orderClass class_
    obtain ⟨t, rfl⟩ := str_of_orderClass (classes.symm.trans class_)
    exact compareTexts_swap _ _
  · obtain ⟨as, rfl⟩ := tuple_of_orderClass class_
    obtain ⟨bs, rfl⟩ := tuple_of_orderClass (classes.symm.trans class_)
    exact orderItems_swap as bs
  · rw [orderWithin_of_other (classes.symm.trans class_), orderWithin_of_other class_,
      Ordering.swap_then, ← compareTexts_swap, ← compareTexts_swap]
termination_by (sizeOf a, 0)

theorem orderItems_swap (as bs : List Value) : orderItems bs as = (orderItems as bs).swap := by
  match as, bs with
  | [], [] | [], _ :: _ | _ :: _, [] => rfl
  | a :: as, b :: bs =>
      simp only [orderItems, Ordering.swap_then, order_swap a b, orderItems_swap as bs]
termination_by (sizeOf as, 0)

end

mutual

/-- Where there is no NaN, values stand one after the other. -/
theorem order_fits {a b c : Value} (ha : a.holdsNaN = false) (hb : b.holdsNaN = false)
    (hc : c.holdsNaN = false) : Fits (order a b) (order b c) (order a c) := by
  rw [order_eq a b, order_eq b c, order_eq a c]
  refine (Fits.of_transCmp (compare : Nat → Nat → Ordering) ..).andThen fun ab bc => ?_
  rw [Nat.compare_eq_eq] at ab bc
  exact orderWithin_fits ha hb hc ab bc
termination_by (sizeOf a, 1)

theorem orderWithin_fits {a b c : Value} (ha : a.holdsNaN = false) (hb : b.holdsNaN = false)
    (hc : c.holdsNaN = false) (ab : a.orderClass = b.orderClass) (bc : b.orderClass = c.orderClass) :
    Fits (orderWithin a b) (orderWithin b c) (orderWithin a c) := by
  have number {v : Value} (free : v.holdsNaN = false) (real : v.orderClass = 0) :
      ∃ x, v.real? = some x ∧ x ≠ .nan := by
    obtain ⟨x, hx⟩ := real_of_orderClass real
    refine ⟨x, hx, ?_⟩
    rintro rfl
    cases v <;> simp_all [holdsNaN, orderClass]
  rcases orderClass_cases a with class_ | class_ | class_ | class_
  · have class_b := ab.symm.trans class_
    have class_c := bc.symm.trans class_b
    obtain ⟨x, hx, real⟩ := number ha class_
    obtain ⟨y, hy, real'⟩ := number hb class_b
    obtain ⟨z, hz, real''⟩ := number hc class_c
    rw [orderWithin_of_real class_, orderWithin_of_real class_b, orderWithin_of_real class_,
      compareReals_eq hx hy, compareReals_eq hy hz, compareReals_eq hx hz]
    exact Exact.order_fits real real' real''
  · obtain ⟨s, rfl⟩ := str_of_orderClass class_
    obtain ⟨t, rfl⟩ := str_of_orderClass (ab.symm.trans class_)
    obtain ⟨u, rfl⟩ := str_of_orderClass (bc.symm.trans (ab.symm.trans class_))
    exact Fits.of_transCmp compareTexts ..
  · obtain ⟨as, rfl⟩ := tuple_of_orderClass class_
    obtain ⟨bs, rfl⟩ := tuple_of_orderClass (ab.symm.trans class_)
    obtain ⟨cs, rfl⟩ := tuple_of_orderClass (bc.symm.trans (ab.symm.trans class_))
    rw [holdsNaN] at ha hb hc
    exact orderItems_fits ha hb hc
  · rw [orderWithin_of_other class_, orderWithin_of_other (ab.symm.trans class_),
      orderWithin_of_other class_]
    exact (Fits.of_transCmp compareTexts ..).andThen fun _ _ => Fits.of_transCmp compareTexts ..
termination_by (sizeOf a, 0)

theorem orderItems_fits {as bs cs : List Value} (ha : anyNaN as = false) (hb : anyNaN bs = false)
    (hc : anyNaN cs = false) : Fits (orderItems as bs) (orderItems bs cs) (orderItems as cs) := by
  match as, bs, cs with
  | [], [], [] | [], [], _ :: _ | _ :: _, [], [] | [], _ :: _, [] | _ :: _, [], _ :: _ => trivial
  | [], b :: bs, c :: cs =>
      simp only [orderItems]
      generalize (order b c).then (orderItems bs cs) = o
      cases o <;> simp [Fits]
  | a :: as, b :: bs, [] =>
      simp only [orderItems]
      generalize (order a b).then (orderItems as bs) = o
      cases o <;> simp [Fits]
  | a :: as, b :: bs, c :: cs =>
      simp only [anyNaN, Bool.or_eq_false_iff] at ha hb hc
      simp only [orderItems]
      exact (order_fits ha.1 hb.1 hc.1).andThen fun _ _ => orderItems_fits ha.2 hb.2 hc.2
termination_by (sizeOf as, 0)

end

theorem sameRank_of_not_tuple {a b : Value} (h : ∀ as bs, a = .tuple as → b ≠ .tuple bs) :
    sameRank a b = (order a b == .eq && (a.orderClass != 0 || same a b)) := by
  rw [sameRank.eq_def]
  split
  · exact absurd rfl (h _ _ rfl)
  · rfl

theorem before_of_not_tuple {a b : Value} (h : ∀ as bs, a = .tuple as → b ≠ .tuple bs) :
    before a b = (order a b == .lt) := by
  rw [before.eq_def]
  split
  · exact absurd rfl (h _ _ rfl)
  · rfl

theorem orderClass_eq_of_order {a b : Value} (h : order a b = .eq) : a.orderClass = b.orderClass := by
  rw [order_eq, Ordering.then_eq_eq, Nat.compare_eq_eq] at h
  exact h.1

mutual

theorem sameRank_comm (a b : Value) : sameRank a b = sameRank b a := by
  by_cases tuples : ∃ as bs, a = .tuple as ∧ b = .tuple bs
  · obtain ⟨as, bs, rfl, rfl⟩ := tuples
    rw [sameRank, sameRank]
    exact sameRanks_comm as bs
  · have apart : ∀ as bs, a = .tuple as → b ≠ .tuple bs := fun as bs ha hb =>
      tuples ⟨as, bs, ha, hb⟩
    rw [sameRank_of_not_tuple apart, sameRank_of_not_tuple fun bs as hb ha => apart as bs ha hb,
      order_swap a b]
    by_cases equal : order a b = .eq
    · have classes := orderClass_eq_of_order equal
      by_cases number : a.orderClass = 0
      · have hashable {v : Value} (h : v.orderClass = 0) : v.hashable = true := by
          cases v <;> simp_all [orderClass, Value.hashable]
        have same := same_comm (hashable number) (hashable (classes.symm.trans number))
        simp [equal, classes, same]
      · have other : (b.orderClass != 0) = true := bne_iff_ne.mpr (classes ▸ number)
        simp [equal, classes, other]
    · cases o : order a b <;> simp_all
termination_by sizeOf a

theorem sameRanks_comm (as bs : List Value) : sameRanks as bs = sameRanks bs as := by
  match as, bs with
  | [], [] | [], _ :: _ | _ :: _, [] => rfl
  | a :: as, b :: bs => simp only [sameRanks, sameRank_comm a b, sameRanks_comm as bs]
termination_by sizeOf as

end

mutual

/-- Of two values not both stand before the other one. -/
theorem before_asymm {a b : Value} (h : before a b = true) : before b a = false := by
  by_cases tuples : ∃ as bs, a = .tuple as ∧ b = .tuple bs
  · obtain ⟨as, bs, rfl, rfl⟩ := tuples
    rw [before] at h ⊢
    exact itemsBefore_asymm h
  · have apart : ∀ as bs, a = .tuple as → b ≠ .tuple bs := fun as bs ha hb =>
      tuples ⟨as, bs, ha, hb⟩
    rw [before_of_not_tuple apart] at h
    rw [before_of_not_tuple fun bs as hb ha => apart as bs ha hb, order_swap a b, eq_of_beq h]
    rfl
termination_by sizeOf a

theorem itemsBefore_asymm {as bs : List Value} (h : itemsBefore as bs = true) :
    itemsBefore bs as = false := by
  match as, bs with
  | [], [] | _ :: _, [] => simp [itemsBefore] at h
  | [], _ :: _ => rfl
  | a :: as, b :: bs =>
      rw [itemsBefore] at h ⊢
      rw [sameRank_comm b a]
      by_cases ranks : sameRank a b = true
      · rw [if_pos ranks] at h ⊢
        exact itemsBefore_asymm h
      · rw [if_neg ranks] at h ⊢
        exact before_asymm h
termination_by sizeOf as

end

/-- Things of a kind are sorted as what they are. -/
theorem map_mergeSort_attachWith {α : Type} {le : α → α → Bool} {p : α → Prop} {l : List α}
    (h : ∀ a ∈ l, p a) :
    ((l.attachWith p h).mergeSort fun a b => le a b).map (·.1) = l.mergeSort le := by
  rw [List.map_mergeSort (s := le) fun _ _ _ _ => rfl]
  simp

section Kinds

variable {α : Type} {le : α → α → Bool} {p : α → Prop}
variable (trans : ∀ a b c, p a → p b → p c → le a b = true → le b c = true → le a c = true)
variable (total : ∀ a b, p a → p b → (le a b || le b a) = true)

include trans total

/-- Sorting is settled by the comparisons among the values of a kind, if these are in order. -/
theorem pairwise_mergeSort_of {l : List α} (h : ∀ a ∈ l, p a) :
    (l.mergeSort le).Pairwise fun a b => le a b = true := by
  have sorted := @List.pairwise_mergeSort { a // p a } (fun a b => le a b)
    (fun a b c => trans a b c a.2 b.2 c.2) (fun a b => total a b a.2 b.2) (l.attachWith p h)
  rw [← map_mergeSort_attachWith h, List.pairwise_map]
  exact sorted

/-- What stands in order already keeps its order. -/
theorem sublist_mergeSort_of {l l' : List α} (h : ∀ a ∈ l, p a)
    (sorted : l'.Pairwise fun a b => le a b = true) (sub : l'.Sublist l) :
    l'.Sublist (l.mergeSort le) := by
  rw [← List.attachWith_map_subtype_val (l := l) h] at sub
  obtain ⟨attached, within, rfl⟩ := List.sublist_map_iff.mp sub
  rw [← map_mergeSort_attachWith h]
  exact .map _ (@List.sublist_mergeSort { a // p a } (fun a b => le a b) _
    (fun a b c => trans a b c a.2 b.2 c.2) (fun a b => total a b a.2 b.2) _
    (List.pairwise_map.mp sorted) within)

/-- Things that no comparison tells apart keep the order in which they came. -/
theorem filter_mergeSort_of {l : List α} {q : α → Bool} (h : ∀ a ∈ l, p a)
    (alike : ∀ a ∈ l, ∀ b ∈ l, q a = true → q b = true → le a b = true) :
    (l.mergeSort le).filter q = l.filter q := by
  have sorted : (l.filter q).Pairwise fun a b => le a b = true :=
    List.pairwise_of_forall_mem_list fun a ha b hb =>
      alike a (List.mem_of_mem_filter ha) b (List.mem_of_mem_filter hb)
        (List.of_mem_filter ha) (List.of_mem_filter hb)
  have kept := (sublist_mergeSort_of trans total h sorted List.filter_sublist).filter q
  rw [List.filter_filter] at kept
  simp only [Bool.and_self] at kept
  exact (kept.eq_of_length ((List.mergeSort_perm l le).filter q).length_eq.symm).symm

end Kinds

theorem order_total (a b : Value) : ((order a b).isLE || (order b a).isLE) = true := by
  rw [order_swap a b]
  cases order a b <;> rfl

theorem orderItems_total (as bs : List Value) :
    ((orderItems as bs).isLE || (orderItems bs as).isLE) = true := by
  rw [orderItems_swap as bs]
  cases orderItems as bs <;> rfl

theorem any_anyNaN_sortIndices (indices : List (List Value)) :
    (sortIndices indices).any anyNaN = indices.any anyNaN :=
  (sortIndices_perm indices).any_eq

theorem sortIndices_of_free {indices : List (List Value)} (free : indices.any anyNaN = false) :
    sortIndices indices = indices.mergeSort fun a b => (orderItems a b).isLE := by
  simp only [sortIndices, sortByItems, id, free, Bool.false_eq_true, if_false]

/-- Where there is no NaN, no index stands in front of a smaller one. -/
theorem sortIndices_pairwise {indices : List (List Value)} (free : indices.any anyNaN = false) :
    (sortIndices indices).Pairwise fun a b => (orderItems a b).isLE = true := by
  rw [sortIndices_of_free free]
  refine pairwise_mergeSort_of (p := fun row => anyNaN row = false)
    (fun a b c ha hb hc => (orderItems_fits ha hb hc).isLE) (fun a b _ _ => orderItems_total a b)
    fun row hr => ?_
  simpa using List.any_eq_false.mp free row hr

/-- Sorting what is sorted changes nothing. -/
@[simp] theorem sortIndices_sortIndices (indices : List (List Value)) :
    sortIndices (sortIndices indices) = sortIndices indices := by
  cases free : indices.any anyNaN with
  | false =>
      have again := free
      rw [← any_anyNaN_sortIndices] at again
      rw [sortIndices_of_free again]
      exact List.mergeSort_of_pairwise (sortIndices_pairwise free)
  | true =>
      have again := free
      rw [← any_anyNaN_sortIndices] at again
      have byRuns {rows : List (List Value)} (holds : rows.any anyNaN = true) :
          sortIndices rows = Run.sort itemsBefore rows := by
        simp only [sortIndices, sortByItems, id, holds, if_true]
      rw [byRuns again, byRuns free]
      exact Run.sort_of_isRun (Run.sort_isRun (fun _ _ => itemsBefore_asymm) indices)

theorem anyNaN_eq_false {vs : List Value} :
    anyNaN vs = false ↔ ∀ v ∈ vs, v.holdsNaN = false := by
  induction vs with
  | nil => simp [anyNaN]
  | cons v vs ih => simp [anyNaN, ih]

/-- Where there is no NaN, no id stands in front of a smaller one. -/
theorem sortIds_pairwise {ids : List Value} (free : anyNaN ids = false) :
    (sortIds ids).Pairwise fun a b => (order a b).isLE = true := by
  simp only [sortIds, free, Bool.false_eq_true, if_false]
  exact pairwise_mergeSort_of (fun a b c ha hb hc => (order_fits ha hb hc).isLE)
    (fun a b _ _ => order_total a b) (anyNaN_eq_false.mp free)

end Value

end BlockAngular
