import BlockAngular.Value.Basic
import Mathlib.Tactic.Tauto

/-! # Equality of values

Equality of keys is symmetric and transitive. It is reflexive but for a NaN without a
mark, which differs from everything, so a key is one that equals itself.
-/

namespace BlockAngular

namespace Exact

theorem same_iff {x y : Exact} : x.same y = true ↔ x = y ∧ x ≠ .nan := by
  cases x <;> cases y <;> simp [same]

end Exact

namespace Value

theorem sameNumber_iff {a b : Value} : sameNumber a b = true ↔
    ∃ re im, a.number? = some (re, im) ∧ b.number? = some (re, im) ∧ re ≠ .nan ∧ im ≠ .nan := by
  unfold sameNumber
  cases ha : a.number? <;> cases hb : b.number? <;> simp [Exact.same_iff]
  grind

/-- Whether equality compares a value as a number. -/
def isPlainNumber : Value → Bool
  | .bool _ | .int _ | .float _ | .complex _ _ => true
  | _ => false

/-- Whether a value is a complex number. -/
def isComplex : Value → Bool
  | .complex _ _ => true
  | _ => false

/-- Numbers are the same if their exact parts agree. A part that is no number agrees with
    itself in complex numbers only. -/
theorem same_iff_of_isPlainNumber {a b : Value} (number : a.isPlainNumber = true) :
    same a b = true ↔ ∃ re im, a.number? = some (re, im) ∧ b.number? = some (re, im) ∧
      (re ≠ .nan ∧ im ≠ .nan ∨ a.isComplex = true ∧ b.isComplex = true) := by
  rw [same.eq_def]
  cases a <;> cases b <;>
    simp_all [isPlainNumber, isComplex, number?, sameNumber_iff]

theorem isPlainNumber_of_same {a b : Value} (number : a.isPlainNumber = true)
    (h : same a b = true) : b.isPlainNumber = true := by
  obtain ⟨re, im, -, hb, hr⟩ := (same_iff_of_isPlainNumber number).mp h
  cases b <;> simp_all [isPlainNumber, isComplex, number?, real?]

theorem not_sameNumber {a : Value} (nothing : a.number? = none) (b : Value) :
    sameNumber a b = false := by
  simp [sameNumber, nothing]

/-- What equals a tuple is a tuple. -/
theorem tuple_of_same {as : List Value} {b : Value} (h : same (.tuple as) b = true) :
    ∃ bs, b = .tuple bs ∧ sameItems as bs = true := by
  rw [same.eq_def] at h
  split at h <;> try simp_all
  rw [not_sameNumber rfl] at h
  cases h

/-- What equals an absent value, a marked NaN, a text or bytes is no other value. -/
theorem eq_of_same {a b : Value} (h : same a b = true) (ha : a.hashable = true)
    (plain : a.isPlainNumber = false) (noTuple : ∀ items, a ≠ .tuple items) : a = b := by
  rw [same.eq_def] at h
  split at h <;> try simp_all [hashable, isPlainNumber]
  obtain ⟨re, im, hre, -, hne, -⟩ := sameNumber_iff.mp h
  cases a <;> simp_all [number?, real?]

mutual

theorem same_symm {a b : Value} (ha : a.hashable = true) (h : same a b = true) :
    same b a = true := by
  match a with
  | .tuple as =>
      obtain ⟨bs, rfl, items⟩ := tuple_of_same h
      rw [hashable] at ha
      rw [same]
      exact sameItems_symm ha items
  | .bool _ | .int _ | .float _ | .complex _ _ =>
      have number := isPlainNumber_of_same rfl h
      obtain ⟨re, im, hre, hre', parts⟩ := (same_iff_of_isPlainNumber rfl).mp h
      exact (same_iff_of_isPlainNumber number).mpr ⟨re, im, hre', hre, parts.imp_right And.symm⟩
  | .null | .dots | .nan _ | .str _ | .bytes _ =>
      obtain rfl := eq_of_same h ha rfl (by simp)
      exact h
  | .list _ | .table _ | .record _ => simp [hashable] at ha

theorem sameItems_symm {as bs : List Value} (ha : allHashable as = true)
    (h : sameItems as bs = true) : sameItems bs as = true := by
  match as, bs with
  | [], [] => simp [sameItems]
  | [], _ :: _ | _ :: _, [] => simp [sameItems] at h
  | a :: as, b :: bs =>
      simp only [allHashable, sameItems, Bool.and_eq_true] at ha h ⊢
      exact ⟨same_symm ha.1 h.1, sameItems_symm ha.2 h.2⟩

end

mutual

/-- What equals an id can be one. -/
theorem hashable_of_same {a b : Value} (ha : a.hashable = true) (h : same a b = true) :
    b.hashable = true := by
  match a with
  | .tuple as =>
      obtain ⟨bs, rfl, items⟩ := tuple_of_same h
      rw [hashable] at ha ⊢
      exact allHashable_of_sameItems ha items
  | .bool _ | .int _ | .float _ | .complex _ _ =>
      have number := isPlainNumber_of_same rfl h
      cases b <;> first | rfl | cases number
  | .null | .dots | .nan _ | .str _ | .bytes _ =>
      obtain rfl := eq_of_same h ha rfl (by simp)
      exact ha
  | .list _ | .table _ | .record _ => simp [hashable] at ha

theorem allHashable_of_sameItems {as bs : List Value} (ha : allHashable as = true)
    (h : sameItems as bs = true) : allHashable bs = true := by
  match as, bs with
  | [], [] => exact ha
  | [], _ :: _ | _ :: _, [] => simp [sameItems] at h
  | a :: as, b :: bs =>
      simp only [allHashable, sameItems, Bool.and_eq_true] at ha h ⊢
      exact ⟨hashable_of_same ha.1 h.1, allHashable_of_sameItems ha.2 h.2⟩

end

mutual

theorem same_trans {a b c : Value} (ha : a.hashable = true) (h : same a b = true)
    (h' : same b c = true) : same a c = true := by
  match a with
  | .tuple as =>
      obtain ⟨bs, rfl, items⟩ := tuple_of_same h
      obtain ⟨cs, rfl, items'⟩ := tuple_of_same h'
      rw [hashable] at ha
      rw [same]
      exact sameItems_trans ha items items'
  | .bool _ | .int _ | .float _ | .complex _ _ =>
      have number := isPlainNumber_of_same rfl h
      obtain ⟨re, im, hre, hb, parts⟩ := (same_iff_of_isPlainNumber rfl).mp h
      obtain ⟨re', im', hb', hc, parts'⟩ := (same_iff_of_isPlainNumber number).mp h'
      rw [hb] at hb'
      cases hb'
      exact (same_iff_of_isPlainNumber rfl).mpr ⟨re, im, hre, hc, by tauto⟩
  | .null | .dots | .nan _ | .str _ | .bytes _ =>
      obtain rfl := eq_of_same h ha rfl (by simp)
      exact h'
  | .list _ | .table _ | .record _ => simp [hashable] at ha

theorem sameItems_trans {as bs cs : List Value} (ha : allHashable as = true)
    (h : sameItems as bs = true) (h' : sameItems bs cs = true) : sameItems as cs = true := by
  match as, bs, cs with
  | [], [], [] => simp [sameItems]
  | [], _ :: _, _ | _ :: _, [], _ => simp [sameItems] at h
  | [], [], _ :: _ | _ :: _, _ :: _, [] => simp [sameItems] at h'
  | a :: as, b :: bs, c :: cs =>
      simp only [allHashable, sameItems, Bool.and_eq_true] at ha h h' ⊢
      exact ⟨same_trans ha.1 h.1 h'.1, sameItems_trans ha.2 h.2 h'.2⟩

end

theorem same_comm {a b : Value} (ha : a.hashable = true) (hb : b.hashable = true) :
    same a b = same b a :=
  Bool.eq_iff_iff.mpr ⟨same_symm ha, same_symm hb⟩

/-- Equal values are equal to the same values. -/
theorem same_congr {a b c : Value} (ha : a.hashable = true) (hb : b.hashable = true)
    (h : same a b = true) : same a c = same b c :=
  Bool.eq_iff_iff.mpr ⟨same_trans hb (same_symm ha h), same_trans ha h⟩

/-- A value that can be a key, and is found again where it was put. -/
structure IsKey (v : Value) : Prop where
  hashable : v.hashable = true
  same_self : v.same v = true

/-- Items that can be a key together. -/
structure AreKey (items : List Value) : Prop where
  hashable : allHashable items = true
  same_self : sameItems items items = true

instance (v : Value) : Decidable v.IsKey :=
  decidable_of_iff (v.hashable = true ∧ v.same v = true) ⟨fun h => ⟨h.1, h.2⟩, fun h => ⟨h.1, h.2⟩⟩

instance (items : List Value) : Decidable (AreKey items) :=
  decidable_of_iff (allHashable items = true ∧ sameItems items items = true)
    ⟨fun h => ⟨h.1, h.2⟩, fun h => ⟨h.1, h.2⟩⟩

theorem areKey_nil : AreKey [] :=
  ⟨rfl, by simp [sameItems]⟩

mutual

@[simp] theorem marked_hashable (mark : Nat) (v : Value) :
    (v.marked mark).hashable = v.hashable := by
  match v with
  | .tuple items =>
      simp only [marked, hashable]
      exact allMarked_hashable mark items
  | .float x =>
      simp only [marked]
      split <;> rfl
  | .null | .dots | .bool _ | .int _ | .nan _ | .complex _ _ | .str _ | .bytes _ | .list _
  | .table _ | .record _ => rfl

theorem allMarked_hashable (mark : Nat) (items : List Value) :
    allHashable (allMarked mark items) = allHashable items := by
  match items with
  | [] => rfl
  | v :: rest => simp only [allMarked, allHashable, marked_hashable, allMarked_hashable mark rest]

end

mutual

/-- With marks on its NaNs a value is the same as itself. -/
theorem marked_same_self (mark : Nat) {v : Value} (h : v.hashable = true) :
    (v.marked mark).same (v.marked mark) = true := by
  match v with
  | .tuple items =>
      rw [hashable] at h
      simp only [marked, same]
      exact allMarked_same_self mark h
  | .float x =>
      by_cases nan : Binary64.isNaN x = true
      · simp [marked, nan, same]
      · simp only [marked, nan]
        have number : Binary64.exact x ≠ .nan := by simpa [Binary64.isNaN] using nan
        exact (same_iff_of_isPlainNumber rfl).mpr
          ⟨_, _, rfl, rfl, .inl ⟨number, by simp⟩⟩
  | .bool _ | .int _ =>
      exact (same_iff_of_isPlainNumber rfl).mpr ⟨_, _, rfl, rfl, .inl ⟨by simp, by simp⟩⟩
  | .null | .dots | .nan _ | .complex _ _ | .str _ | .bytes _ => simp [marked, same]
  | .list _ | .table _ | .record _ => simp [hashable] at h

theorem allMarked_same_self (mark : Nat) {items : List Value} (h : allHashable items = true) :
    sameItems (allMarked mark items) (allMarked mark items) = true := by
  match items with
  | [] => simp [allMarked, sameItems]
  | v :: rest =>
      simp only [allHashable, Bool.and_eq_true] at h
      simp only [allMarked, sameItems, Bool.and_eq_true]
      exact ⟨marked_same_self mark h.1, allMarked_same_self mark h.2⟩

end

theorem marked_isKey (mark : Nat) {v : Value} (h : v.hashable = true) : (v.marked mark).IsKey :=
  ⟨by simpa using h, marked_same_self mark h⟩

end Value

end BlockAngular
