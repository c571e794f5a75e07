import BlockAngular.Proofs.Success
import BlockAngular.Proofs.Value.Simple

/-! # One way of sorting

Simple values stand in a total order that tells apart what is not equal: numbers by their exact
value, behind them texts by their code points, then tuples item by item with a proper prefix
first, and an absent value last. The comparison of values decides this order, so that sorting
never fails, keeps equal values in the order in which they came, and returns one list for all
listings of the same values.
-/

namespace BlockAngular

namespace Value

mutual

/-- Which of two simple values stands before the other one. -/
inductive Precedes : Value → Value → Prop where
  /-- Numbers stand before texts, texts before tuples, and all of them before the rest. -/
  | ofClass {a b : Value} (classes : a.orderClass < b.orderClass) : Precedes a b
  /-- Numbers stand in the order of their exact values. -/
  | number {a b : Value} {x y : Exact} (left : a.real? = some x) (right : b.real? = some y)
      (below : x.below y = true) : Precedes a b
  /-- Texts stand in the order of their code points. -/
  | text {s t : String} (codes : s.toList.Lex (fun c d => c.toNat < d.toNat) t.toList) :
      Precedes (.str s) (.str t)
  | tuple {as bs : List Value} (items : PrecedesItems as bs) : Precedes (.tuple as) (.tuple bs)

/-- Which of two sequences of simple values stands before the other one. -/
inductive PrecedesItems : List Value → List Value → Prop where
  /-- A proper prefix stands first. -/
  | before {b : Value} {bs : List Value} : PrecedesItems [] (b :: bs)
  | head {a b : Value} {as bs : List Value} (first : Precedes a b) :
      PrecedesItems (a :: as) (b :: bs)
  /-- The items behind equal ones decide. -/
  | tail {a b : Value} {as bs : List Value} (same : a.same b = true)
      (rest : PrecedesItems as bs) : PrecedesItems (a :: as) (b :: bs)

end

theorem compareTexts_eq_lt {s t : List Char} :
    compareTexts s t = .lt ↔ s.Lex (fun c d => c.toNat < d.toNat) t := by
  induction s generalizing t with
  | nil => cases t <;> simp [compareTexts, List.compareLex]
  | cons c s ih =>
      cases t with
      | nil => simp [compareTexts, List.compareLex]
      | cons d t =>
          have heads : c.toNat = d.toNat ↔ c = d := ⟨fun h => Char.ext (UInt32.toNat.inj h), congrArg _⟩
          simp only [compareTexts, List.compareLex_cons_cons, Ordering.then_eq_lt,
            Nat.compare_eq_lt, Nat.compare_eq_eq, heads, List.cons_lex_cons_iff] at ih ⊢
          rw [ih]

theorem Exact.order_eq_lt {x y : Exact} : x.order y = .lt ↔ x.below y = true := by
  unfold Exact.order
  split
  · simp [*]
  · split <;> simp [*]

/-- Tuples are ordered as their items are. -/
@[simp] theorem precedes_tuple {as bs : List Value} :
    Precedes (.tuple as) (.tuple bs) ↔ PrecedesItems as bs := by
  constructor
  · intro h
    cases h with
    | ofClass classes => exact absurd classes (lt_irrefl 2)
    | number left => cases left
    | tuple items => exact items
  · exact .tuple

mutual

/-- The comparison of simple values decides their order. -/
theorem order_eq_lt {a b : Value} (ha : a.isSimple = true) (hb : b.isSimple = true) :
    order a b = .lt ↔ Precedes a b := by
  rw [order_eq, Ordering.then_eq_lt, Nat.compare_eq_lt, Nat.compare_eq_eq]
  constructor
  · rintro (classes | ⟨classes, within⟩)
    · exact .ofClass classes
    · rcases isSimple_cases ha with ⟨class_, -, x, hx, -⟩ | ⟨s, rfl⟩ | ⟨items, rfl, simple⟩ | rfl
      · obtain ⟨y, hy⟩ := real_of_orderClass (classes.symm.trans class_)
        rw [orderWithin_of_real class_, compareReals_eq hx hy, Exact.order_eq_lt] at within
        exact .number hx hy within
      · obtain ⟨t, rfl⟩ := str_of_orderClass classes.symm
        exact .text (compareTexts_eq_lt.mp within)
      · obtain ⟨items', rfl⟩ := tuple_of_orderClass classes.symm
        rw [isSimple] at hb
        exact .tuple ((orderItems_eq_lt simple hb).mp within)
      · -- nothing but an absent value is simple and of its class
        rcases isSimple_cases hb with ⟨class_, -⟩ | ⟨s, rfl⟩ | ⟨items, rfl, -⟩ | rfl
        · cases classes.trans class_
        · cases classes
        · cases classes
        · cases within
  · intro h
    cases h with
    | ofClass classes => exact .inl classes
    | number left right below =>
        have class_ {v : Value} {x : Exact} (h : v.real? = some x) : v.orderClass = 0 := by
          cases v <;> simp_all [real?, orderClass]
        refine .inr ⟨(class_ left).trans (class_ right).symm, ?_⟩
        rw [orderWithin_of_real (class_ left), compareReals_eq left right]
        exact Exact.order_eq_lt.mpr below
    | text codes => exact .inr ⟨rfl, compareTexts_eq_lt.mpr codes⟩
    | tuple items =>
        rw [isSimple] at ha hb
        exact .inr ⟨rfl, (orderItems_eq_lt ha hb).mpr items⟩
termination_by sizeOf a

theorem orderItems_eq_lt {as bs : List Value} (ha : allSimple as = true)
    (hb : allSimple bs = true) : orderItems as bs = .lt ↔ PrecedesItems as bs := by
  match as, bs with
  | [], [] => exact iff_of_false nofun nofun
  | [], _ :: _ => exact iff_of_true rfl .before
  | _ :: _, [] => exact iff_of_false nofun nofun
  | a :: as, b :: bs =>
      simp only [allSimple, Bool.and_eq_true] at ha hb
      rw [orderItems, Ordering.then_eq_lt, order_eq_lt ha.1 hb.1, order_eq_iff ha.1 hb.1,
        orderItems_eq_lt ha.2 hb.2]
      constructor
      · rintro (first | ⟨same, rest⟩)
        · exact .head first
        · exact .tail same rest
      · intro h
        cases h with
        | head first => exact .inl first
        | tail same rest => exact .inr ⟨same, rest⟩
termination_by sizeOf as

end

mutual

/-- Simple values take one rank if and only if they are equal. -/
theorem sameRank_of_simple {a b : Value} (ha : a.isSimple = true) (hb : b.isSimple = true) :
    sameRank a b = a.same b := by
  by_cases tuples : ∃ as bs, a = .tuple as ∧ b = .tuple bs
  · obtain ⟨as, bs, rfl, rfl⟩ := tuples
    rw [isSimple] at ha hb
    rw [sameRank, same, sameRanks_of_simple ha hb]
  · rw [sameRank_of_not_tuple fun as bs ha hb => tuples ⟨as, bs, ha, hb⟩, Bool.eq_iff_iff,
      ← order_eq_iff ha hb]
    by_cases equal : order a b = .eq
    · simp [equal, (order_eq_iff ha hb).mp equal]
    · simp [equal]
termination_by sizeOf a

theorem sameRanks_of_simple {as bs : List Value} (ha : allSimple as = true)
    (hb : allSimple bs = true) : sameRanks as bs = sameItems as bs := by
  match as, bs with
  | [], [] | [], _ :: _ | _ :: _, [] => simp [sameRanks, sameItems]
  | a :: as, b :: bs =>
      simp only [allSimple, Bool.and_eq_true] at ha hb
      rw [sameRanks, sameItems, sameRank_of_simple ha.1 hb.1, sameRanks_of_simple ha.2 hb.2]
termination_by sizeOf as

end

mutual

/-- A simple value is sorted before another one if and only if it precedes it. -/
theorem before_iff {a b : Value} (ha : a.isSimple = true) (hb : b.isSimple = true) :
    before a b = true ↔ Precedes a b := by
  by_cases tuples : ∃ as bs, a = .tuple as ∧ b = .tuple bs
  · obtain ⟨as, bs, rfl, rfl⟩ := tuples
    rw [isSimple] at ha hb
    rw [before, precedes_tuple, itemsBefore_iff ha hb]
  · rw [before_of_not_tuple fun as bs ha hb => tuples ⟨as, bs, ha, hb⟩, beq_iff_eq,
      order_eq_lt ha hb]
termination_by sizeOf a

theorem itemsBefore_iff {as bs : List Value} (ha : allSimple as = true)
    (hb : allSimple bs = true) : itemsBefore as bs = true ↔ PrecedesItems as bs := by
  rw [← orderItems_eq_lt ha hb]
  match as, bs with
  | [], [] | [], _ :: _ | _ :: _, [] => simp [itemsBefore, orderItems]
  | a :: as, b :: bs =>
      simp only [allSimple, Bool.and_eq_true] at ha hb
      rw [itemsBefore, orderItems, Ordering.then_eq_lt, sameRank_of_simple ha.1 hb.1]
      by_cases equal : a.same b = true
      · have rank := (order_eq_iff ha.1 hb.1).mpr equal
        rw [if_pos equal, itemsBefore_iff ha.2 hb.2, ← orderItems_eq_lt ha.2 hb.2]
        simp [rank]
      · have rank := mt (order_eq_iff ha.1 hb.1).mp equal
        rw [if_neg equal, before_iff ha.1 hb.1, ← order_eq_lt ha.1 hb.1]
        simp [rank]
termination_by sizeOf as

end

mutual

/-- The rank of a simple value can be told. -/
theorem isSimple.isRankable {v : Value} (h : v.isSimple = true) : v.isRankable = true := by
  cases v with
  | tuple items =>
      rw [isSimple] at h
      simpa [Value.isRankable] using allSimple.allRankable h
  | null | bool | int | str | float => rfl
  | dots | nan | complex | bytes | list | table | record => simp [isSimple] at h
termination_by sizeOf v

theorem allSimple.allRankable {vs : List Value} (h : allSimple vs = true) :
    Value.allRankable vs = true := by
  match vs with
  | [] => rfl
  | v :: rest =>
      simp only [allSimple, Bool.and_eq_true] at h
      simp [Value.allRankable, isSimple.isRankable h.1, allSimple.allRankable h.2]
termination_by sizeOf vs

end

end Value

/-- A total order of some things, of which those that are equal are not told apart. -/
structure IsOrder {α : Type} (among : α → Prop) (precedes : α → α → Prop)
    (same : α → α → Bool) : Prop where
  asymm : ∀ a b, among a → among b → precedes a b → ¬precedes b a
  trans : ∀ a b c, among a → among b → among c → precedes a b → precedes b c → precedes a c
  total : ∀ a b, among a → among b → precedes a b ∨ same a b = true ∨ precedes b a
  apart : ∀ a b, among a → among b → precedes a b → same a b = false
  /-- Equal things stand before and behind the same others. -/
  congr : ∀ a b c, among a → among b → among c → same a b = true →
    (precedes a c ↔ precedes b c) ∧ (precedes c a ↔ precedes c b)

/-- A way of sorting some things by an order. -/
structure SortsBy {α : Type} (among : α → Prop) (precedes : α → α → Prop)
    (same : α → α → Bool) (sort : List α → List α) : Prop where
  perm : ∀ given, (∀ a ∈ given, among a) → (sort given).Perm given
  ascending : ∀ given, (∀ a ∈ given, among a) →
    (sort given).Pairwise fun a b => precedes a b ∨ same a b = true
  /-- Equal things keep the order in which they came. -/
  stable : ∀ given, (∀ a ∈ given, among a) → ∀ a, among a →
    (sort given).filter (same a) = given.filter (same a)
  /-- Two listings of the same unequal things are sorted to one list. -/
  settled : ∀ given given', (∀ a ∈ given, among a) → given'.Perm given →
    given.Pairwise (fun a b => same a b = false) → sort given' = sort given
  /-- So are two listings that differ in the spelling of equal things, but for the spelling. -/
  respelled : ∀ given given', (∀ a ∈ given, among a) → (∀ a ∈ given', among a) →
    given.Pairwise (fun a b => same a b = false) → given'.Pairwise (fun a b => same a b = false) →
    (∀ a ∈ given, ∃ b ∈ given', same a b = true) → (∀ b ∈ given', ∃ a ∈ given, same a b = true) →
    List.Forall₂ (fun a b => same a b = true) (sort given) (sort given')

section Along

variable {α β : Type} {among : β → Prop} {precedes : β → β → Prop} {same : β → β → Bool}
variable {sort : List β → List β} {sort' : List α → List α} {f : α → β}

theorem IsOrder.along (h : IsOrder among precedes same) (f : α → β) :
    IsOrder (fun a => among (f a)) (fun a b => precedes (f a) (f b)) fun a b => same (f a) (f b) where
  asymm _ _ := h.asymm _ _
  trans _ _ _ := h.trans _ _ _
  total _ _ := h.total _ _
  apart _ _ := h.apart _ _
  congr _ _ _ := h.congr _ _ _

/-- Things are sorted by what stands for them. -/
theorem SortsBy.along (h : SortsBy among precedes same sort) (injective : f.Injective)
    (sorts : ∀ given, (∀ a ∈ given, among (f a)) → (sort' given).map f = sort (given.map f)) :
    SortsBy (fun a => among (f a)) (fun a b => precedes (f a) (f b))
      (fun a b => same (f a) (f b)) sort' := by
  have all {given : List α} (each : ∀ a ∈ given, among (f a)) : ∀ b ∈ given.map f, among b :=
    List.forall_mem_map.mpr each
  refine ⟨fun given each => ?_, fun given each => ?_, fun given each a ha => ?_,
    fun given given' each perm distinct => ?_,
    fun given given' each each' distinct distinct' covers covers' => ?_⟩
  · have perm := h.perm _ (all each)
    rw [← sorts given each] at perm
    exact (List.map_perm_map_iff injective).mp perm
  · have ascending := h.ascending _ (all each)
    rw [← sorts given each, List.pairwise_map] at ascending
    exact ascending
  · have stable := h.stable _ (all each) (f a) ha
    rw [← sorts given each, List.filter_map, List.filter_map] at stable
    exact injective.list_map stable
  · have each' : ∀ a ∈ given', among (f a) := fun a ha => each a (perm.mem_iff.mp ha)
    have settled := h.settled _ _ (all each) (perm.map f) (List.pairwise_map.mpr distinct)
    rw [← sorts given each, ← sorts given' each'] at settled
    exact injective.list_map settled
  · have respelled := h.respelled _ _ (all each) (all each') (List.pairwise_map.mpr distinct)
      (List.pairwise_map.mpr distinct') (by simpa using covers) (by simpa using covers')
    rw [← sorts given each, ← sorts given' each', List.forall₂_map_left_iff,
      List.forall₂_map_right_iff] at respelled
    exact respelled

end Along

namespace Value

/-- Simple values are in a total order. -/
theorem isOrder : IsOrder (fun v => v.isSimple = true) Precedes same where
  asymm a b ha hb first second := by
    rw [← order_eq_lt ha hb] at first
    rw [← order_eq_lt hb ha, order_swap, first] at second
    cases second
  trans a b c ha hb hc first second := by
    have fits := order_fits (isSimple.holdsNaN ha) (isSimple.holdsNaN hb) (isSimple.holdsNaN hc)
    rw [(order_eq_lt ha hb).mpr first, (order_eq_lt hb hc).mpr second] at fits
    exact (order_eq_lt ha hc).mp fits
  total a b ha hb := by
    rw [← order_eq_lt ha hb, ← order_eq_iff ha hb, ← order_eq_lt hb ha, order_swap a b]
    cases order a b <;> simp
  apart a b ha hb first := by
    rw [← order_eq_lt ha hb] at first
    rw [Bool.eq_false_iff, ne_eq, ← order_eq_iff ha hb, first]
    nofun
  congr a b c ha hb hc same := by
    have behind := order_congr ha hb hc same
    rw [← order_eq_lt ha hc, ← order_eq_lt hb hc, ← order_eq_lt hc ha, ← order_eq_lt hc hb,
      order_swap a c, order_swap b c, behind]
    exact ⟨.rfl, .rfl⟩

theorem isSimple.isKey {v : Value} (h : v.isSimple = true) : v.IsKey := by
  have key := marked_isKey 0 (isSimple.hashable h)
  rwa [isSimple.marked h] at key

theorem isLE_iff {a b : Value} (ha : a.isSimple = true) (hb : b.isSimple = true) :
    (order a b).isLE = true ↔ Precedes a b ∨ a.same b = true := by
  rw [← order_eq_lt ha hb, ← order_eq_iff ha hb]
  cases order a b <;> simp

theorem sortIds_of_simple {ids : List Value} (simple : ∀ id ∈ ids, id.isSimple = true) :
    sortIds ids = ids.mergeSort fun a b => (order a b).isLE := by
  have free : anyNaN ids = false := allSimple.anyNaN (allSimple_iff.mpr simple)
  simp only [sortIds, free, Bool.false_eq_true, if_false]

/-- Ids are sorted by the order of simple values. -/
theorem sortsIds : SortsBy (fun v => v.isSimple = true) Precedes same sortIds := by
  refine ⟨fun ids _ => sortIds_perm ids, fun ids simple => ?_, fun ids simple v hv => ?_,
    fun ids ids' simple perm distinct => ?_, fun ids ids' simple simple' distinct distinct' => ?_⟩
  · have perm := sortIds_perm ids
    refine (sortIds_pairwise (allSimple.anyNaN (allSimple_iff.mpr simple))).imp_of_mem
      fun ha hb => ?_
    exact (isLE_iff (simple _ (perm.mem_iff.mp ha)) (simple _ (perm.mem_iff.mp hb))).mp
  · rw [sortIds_of_simple simple]
    refine @filter_mergeSort_of _ (fun a b => (order a b).isLE) (fun id => id.isSimple = true)
      (fun a b c ha hb hc => (order_fits (isSimple.holdsNaN ha) (isSimple.holdsNaN hb)
        (isSimple.holdsNaN hc)).isLE) (fun a b _ _ => order_total a b) _ _ simple
      fun a ha b hb left right => ?_
    have equal := same_trans (isSimple.hashable (simple a ha))
      (same_symm (isSimple.hashable hv) left) right
    exact (isLE_iff (simple a ha) (simple b hb)).mpr (.inr equal)
  · have keys : Distinct ids := ⟨fun id h => isSimple.isKey (simple id h), distinct⟩
    have simple' : ∀ id ∈ ids', id.isSimple = true := fun id h => simple id (perm.mem_iff.mp h)
    have sorted := sortIds_strict simple keys
    have sorted' := sortIds_strict simple' (keys.perm perm.symm)
    refine List.Perm.eq_of_pairwise (fun a b _ _ before behind => ?_) sorted' sorted
      ((sortIds_perm ids').trans (perm.trans (sortIds_perm ids).symm))
    rw [order_swap, before] at behind
    cases behind
  · exact sortIds_forall₂ simple simple' ⟨fun id h => isSimple.isKey (simple id h), distinct⟩
      ⟨fun id h => isSimple.isKey (simple' id h), distinct'⟩

/-- Index tuples are sorted as the ids that they make. -/
theorem map_sortIndices {rows : List (List Value)} (simple : ∀ row ∈ rows, allSimple row = true) :
    (sortIndices rows).map tuple = sortIds (rows.map tuple) := by
  have free : rows.any anyNaN = false := any_anyNaN_of_simple simple
  rw [sortIndices_of_free free, sortIds_of_simple (List.forall_mem_map.mpr simple)]
  exact List.map_mergeSort fun _ _ _ _ => rfl

/-- Index tuples are sorted item by item. -/
theorem sortsIndices :
    SortsBy (fun row => allSimple row = true) PrecedesItems sameItems sortIndices := by
  have sorts := sortsIds.along (f := tuple) (fun _ _ => tuple.inj) fun _ => map_sortIndices
  simpa [isSimple, same] using sorts

theorem sortSequences_tuples {rows : List (List Value)}
    (simple : ∀ row ∈ rows, allSimple row = true) :
    sortSequences (rows.map tuple) = .ok ((sortIndices rows).map tuple) := by
  have free : rows.any anyNaN = false := any_anyNaN_of_simple simple
  rw [sortSequences, Success.bind_ok]
  refine ⟨rows.map fun row => (row, tuple row), Success.mapM_ok.mpr ?_, Success.pure_ok.mpr ?_⟩
  · rw [List.forall₂_map_left_iff, List.forall₂_map_right_iff, List.forall₂_same]
    exact fun row hr => if_pos (allSimple.allRankable (simple row hr))
  · have keyed : (rows.map fun row => (row, tuple row)).any (fun a => anyNaN a.1) = false := by
      rw [List.any_map]
      exact free
    have pairs := List.map_mergeSort (f := fun row => (row, tuple row)) (l := rows)
      (r := fun a b => (orderItems a b).isLE) (s := fun a b => (orderItems a.1 b.1).isLE)
      fun _ _ _ _ => rfl
    rw [sortIndices_of_free free, sortByItems, keyed, if_neg Bool.false_ne_true, ← pairs,
      List.map_map]
    rfl

/-- Simple values are in a total order, which their comparison decides; sorting ids or index
tuples by it never fails, and there is one way of doing so. -/
theorem sorts_in_one_way :
    IsOrder (fun v => v.isSimple = true) Precedes same ∧
      (∀ a b, a.isSimple = true → b.isSimple = true →
        (order a b = .lt ↔ Precedes a b) ∧ (order a b = .eq ↔ a.same b = true) ∧
          (before a b = true ↔ Precedes a b) ∧ sameRank a b = a.same b) ∧
      SortsBy (fun v => v.isSimple = true) Precedes same sortIds ∧
      SortsBy (fun row => allSimple row = true) PrecedesItems sameItems sortIndices ∧
      (∀ ids, allSimple ids = true → sortIds? ids = .ok (sortIds ids)) ∧
      ∀ rows, (∀ row ∈ rows, allSimple row = true) →
        sortSequences (rows.map tuple) = .ok ((sortIndices rows).map tuple) :=
  ⟨isOrder, fun _ _ ha hb => ⟨order_eq_lt ha hb, order_eq_iff ha hb, before_iff ha hb,
    sameRank_of_simple ha hb⟩, sortsIds, sortsIndices,
    fun _ simple => if_pos (allSimple.allRankable simple), fun _ => sortSequences_tuples⟩

/-- A listing that comes in another order is sorted to the same list. -/
theorem mixed_sorted_in_one_way :
    sortIds [.tuple [.int 1, .null], .bool true, .str "a"] =
      sortIds [.str "a", .tuple [.int 1, .null], .bool true] :=
  have ⟨_, _, sortsIds, _⟩ := sorts_in_one_way
  sortsIds.settled _ _ (by decide) (@List.perm_append_comm _ [_, _] [_]) (by decide +kernel)

example : order (.tuple [.int 1]) (.tuple [.bool true, .null]) = .lt := by decide +kernel

end Value

end BlockAngular
