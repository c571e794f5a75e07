import BlockAngular.Proofs.Affine.Exact
import BlockAngular.Proofs.Decomposition.Progress
import BlockAngular.Proofs.Number.Binary64

/-! # What rebuilt constraints admit

A constraint admits the numbers between its sides, compared exactly. What it is rebuilt from are
its limits: the sides as doubles, with infinite ones left out on either side. The rebuilt
constraint admits what the limits allow, which is more than the sides do if one of them is an
infinity that no number meets: it is left out as if it asked for nothing.
-/

namespace BlockAngular

/-- Whether a number of the extended line lies on its side of a rational, or is equal to it. A
NaN lies nowhere. -/
def Exact.bounds (isLower : Bool) (x : Exact) (v : Rat) : Bool :=
  (if isLower then x.below (.finite v) else (Exact.finite v).below x) || x.same (.finite v)

namespace Numeric

/-- Whether a number of any kind is a lower or an upper bound of a rational. -/
def Bounds (isLower : Bool) (k : Numeric) (v : Rat) : Prop :=
  ∃ x, k.toExact? = some x ∧ x.bounds isLower v = true

/-- A number that has a double, and is no NaN. -/
def IsNumber (k : Numeric) : Prop :=
  (∃ y, k.real = .ok y) ∧ k.toExact? ≠ some .nan

/-- The double that a number is taken for as a limit; an infinite one is none. -/
def limit? (k : Numeric) : Option Float :=
  match k.real with
  | .ok y => if Binary64.isInfinite y then none else some y
  | .error _ => none

/-- Whether the limit of a side says what the side says: some rational keeps to it, and a limit
that there is has its value. -/
def IsKept (isLower : Bool) (k : Numeric) : Prop :=
  (∃ v, k.Bounds isLower v) ∧ ∀ y ∈ k.limit?, k.toExact? = some (Binary64.exact y)

variable {k : Numeric} {isLower : Bool} {v w : Rat}

theorem limit?_of_real {y : Float} (real : k.real = .ok y) :
    k.limit? = if Binary64.isInfinite y then none else some y := by
  simp only [limit?, real]

/-- A number is finite and has a finite limit, or is infinite and has none. -/
theorem IsNumber.limit?_cases (h : k.IsNumber) :
    (∃ y q p, k.limit? = some y ∧ Binary64.exact y = .finite q ∧ k.toExact? = some (.finite p)) ∨
      ∃ negative, k.limit? = none ∧ k.toExact? = some (.infinite negative) := by
  obtain ⟨⟨y, real⟩, number⟩ := h
  have limit := limit?_of_real real
  cases k with
  | int n =>
      have read : toDouble n = .ok y := real
      simp only [toDouble] at read
      split at read
      · rename_i nearest
        cases read
        obtain ⟨q, value⟩ := Binary64.exact_of_ofInt? nearest
        exact .inl ⟨y, q, n, by simp [limit, Binary64.isInfinite, value], value, rfl⟩
      · cases read
  | float x =>
      cases real
      cases value : Binary64.exact y with
      | nan => exact absurd (congrArg some value) number
      | infinite negative =>
          exact .inr ⟨negative, by simp [limit, Binary64.isInfinite, value], congrArg some value⟩
      | finite q =>
          exact .inl ⟨y, q, q, by simp [limit, Binary64.isInfinite, value], value,
            congrArg some value⟩
  | complex => cases real

theorem bounds_of_finite {q : Rat} (exact : k.toExact? = some (.finite q)) :
    k.Bounds isLower v ↔ if isLower then q ≤ v else v ≤ q := by
  have order : k.Bounds isLower v ↔ (Exact.finite q).bounds isLower v = true := by
    simp [Bounds, exact]
  rw [order, Exact.bounds]
  cases isLower with
  | true => simp [Exact.below, Exact.same, le_iff_lt_or_eq]
  | false => simp [Exact.below, Exact.same, le_iff_lt_or_eq, eq_comm (a := v)]

/-- A bound of a rational is one of all that are farther from it. -/
theorem Bounds.mono (h : k.Bounds isLower v) (farther : if isLower then v ≤ w else w ≤ v) :
    k.Bounds isLower w := by
  obtain ⟨x, exact, bounds⟩ := h
  cases x with
  | nan => cases isLower <;> cases bounds
  | infinite negative =>
      exact ⟨_, exact, by
        cases negative <;> cases isLower <;> simp_all [Exact.bounds, Exact.below, Exact.same]⟩
  | finite q =>
      have own := (bounds_of_finite exact).mp ⟨_, exact, bounds⟩
      refine (bounds_of_finite exact).mpr ?_
      cases isLower with
      | true => exact le_trans own farther
      | false => exact le_trans farther own

/-- A double that is a limit bounds as its rational does. -/
theorem bounds_float {y : Float} (finite : Binary64.isInfinite y = false) :
    (float y).Bounds isLower v ↔
      ∃ q, Binary64.toRat? y = some q ∧ if isLower then q ≤ v else v ≤ q := by
  cases value : Binary64.exact y with
  | nan =>
      cases isLower <;> simp [Bounds, toExact?, Binary64.toRat?, value, Exact.bounds, Exact.below,
        Exact.same]
  | infinite negative => simp [Binary64.isInfinite, value] at finite
  | finite q =>
      rw [bounds_of_finite (q := q) (by simp [toExact?, value])]
      simp [Binary64.toRat?, value]

/-- A side that is kept bounds as its limit does. -/
theorem IsKept.bounds_iff (kept : k.IsKept isLower) (number : k.IsNumber) :
    k.Bounds isLower v ↔ ∀ y ∈ k.limit?, (float y).Bounds isLower v := by
  obtain ⟨⟨q, met⟩, same⟩ := kept
  obtain ⟨y, -, -, limit, -, -⟩ | ⟨negative, limit, infinite⟩ := number.limit?_cases
  · have equal : k.toExact? = (float y).toExact? := same y limit
    simp [limit, Bounds, equal]
  · -- an infinity bounds all rationals or none
    have all : k.Bounds isLower v := by
      obtain ⟨x, exact, bounds⟩ := met
      obtain rfl := Option.some.inj (exact.symm.trans infinite)
      exact ⟨_, exact, by
        cases negative <;> cases isLower <;> simp_all [Exact.bounds, Exact.below, Exact.same]⟩
    simp [limit, all]

/-- A side that bounds as its limit does from some rational on is kept. -/
theorem isKept_of_agree (number : k.IsNumber) (met : k.Bounds isLower w)
    (agree : ∀ v, (if isLower then v ≤ w else w ≤ v) →
      (k.Bounds isLower v ↔ ∀ y ∈ k.limit?, (float y).Bounds isLower v)) :
    k.IsKept isLower := by
  refine ⟨⟨w, met⟩, fun y limit => ?_⟩
  obtain ⟨z, q, p, limit', value, exact⟩ | ⟨negative, none, -⟩ := number.limit?_cases
  · obtain rfl := Option.some.inj (limit.symm.trans limit')
    have double : (float y).toExact? = some (.finite q) := congrArg some value
    have agrees (v : Rat) (near : if isLower then v ≤ w else w ≤ v) :
        (if isLower then p ≤ v else v ≤ p) ↔ if isLower then q ≤ v else v ≤ q := by
      have bounds := agree v near
      rw [Option.mem_def.mp limit, bounds_of_finite exact] at bounds
      simpa [bounds_of_finite double] using bounds
    have own : if isLower then p ≤ w else w ≤ p := (bounds_of_finite exact).mp met
    have other := (agrees w (by cases isLower <;> simp)).mp own
    have equal : p = q := by
      cases isLower with
      | true => exact le_antisymm ((agrees q other).mpr le_rfl) ((agrees p own).mp le_rfl)
      | false => exact le_antisymm ((agrees p own).mp le_rfl) ((agrees q other).mpr le_rfl)
    rw [exact, value, equal]
  · cases none.symm.trans limit

/-- Integers of less than 53 bits are kept. -/
theorem isKept_int {n : Int} (small : n.natAbs < 2 ^ 53) : (int n).IsKept isLower := by
  refine ⟨⟨n, (bounds_of_finite rfl).mpr (by simp)⟩, fun y limit => ?_⟩
  have value := Binary64.exact_nearest small
  have real : (int n).real = .ok (Binary64.nearest n) := by
    simp [Numeric.real, asDouble, toDouble, Binary64.ofInt?, Binary64.isInfinite, value]
  rw [limit?_of_real real] at limit
  simp only [Binary64.isInfinite, value, Bool.false_eq_true, if_false, Option.mem_some] at limit
  rw [← limit, value]
  rfl

/-- Finite doubles are kept. -/
theorem isKept_float {x : Float} {q : Rat} (finite : Binary64.exact x = .finite q) :
    (float x).IsKept isLower := by
  have exact : (float x).toExact? = some (.finite q) := congrArg some finite
  refine ⟨⟨q, (bounds_of_finite exact).mpr (by simp)⟩, fun y limit => ?_⟩
  rw [limit?_of_real rfl] at limit
  simp only [Binary64.isInfinite, finite, Bool.false_eq_true, if_false, Option.mem_some] at limit
  rw [← limit]
  rfl

/-- An infinity is kept on the side where every rational keeps to it, and only there. -/
theorem isKept_of_infinite {x : Float} {negative : Bool}
    (infinite : Binary64.exact x = .infinite negative) :
    (float x).IsKept isLower ↔ negative = isLower := by
  have none : (float x).limit? = none := by
    rw [limit?_of_real rfl]
    simp [Binary64.isInfinite, infinite]
  cases negative <;> cases isLower <;>
    simp [IsKept, none, Bounds, toExact?, infinite, Exact.bounds, Exact.below, Exact.same]

end Numeric

namespace Limits

/-- What holds of the limits on both sides. -/
def All {β : Type} (P : β → Prop) (limits : Limits β) : Prop :=
  (∀ b ∈ limits.lower, P b) ∧ ∀ b ∈ limits.upper, P b

/-- Whether a rational keeps to sides that are given as numbers. -/
def Admit (sides : Limits Numeric) (v : Rat) : Prop :=
  if sides.equality then ∃ k ∈ sides.lower, k.toExact? = some (.finite v)
  else (∀ k ∈ sides.lower, k.Bounds true v) ∧ ∀ k ∈ sides.upper, k.Bounds false v

/-- Whether each side is kept by its limit. -/
def IsKept (sides : Limits Numeric) : Prop :=
  (∀ k ∈ sides.lower, k.IsKept true) ∧ ∀ k ∈ sides.upper, k.IsKept false

/-- The limits that sides come down to. -/
def ofSides (sides : Limits Numeric) : Limits Float :=
  ⟨sides.lower.bind Numeric.limit?, sides.upper.bind Numeric.limit?, sides.equality⟩

/-- Limits as the sides of a constraint. -/
def toSides (limits : Limits Float) : Limits Numeric :=
  ⟨limits.lower.map .float, limits.upper.map .float, limits.equality⟩

/-- An equality has one side, and a constraint is made from no NaN. -/
structure AreSides (sides : Limits Numeric) : Prop where
  numbers : sides.All Numeric.IsNumber
  one : sides.equality = true → sides.lower = sides.upper

variable {sides : Limits Numeric} {v w : Rat}

/-- What the limits of a range ask for, side by side. -/
theorem admit_range (range : sides.equality = false) : (ofSides sides).toSides.Admit v ↔
    (∀ k ∈ sides.lower, ∀ y ∈ k.limit?, (Numeric.float y).Bounds true v) ∧
      ∀ k ∈ sides.upper, ∀ y ∈ k.limit?, (Numeric.float y).Bounds false v := by
  have side (k? : Option Numeric) (isLower : Bool) :
      (∀ k ∈ (k?.bind Numeric.limit?).map Numeric.float, k.Bounds isLower v) ↔
        ∀ k ∈ k?, ∀ y ∈ k.limit?, (Numeric.float y).Bounds isLower v := by
    cases k? <;> simp
  simp only [Admit, toSides, ofSides, range, Bool.false_eq_true, if_false, side]

/-- What the limits of an equality ask for. -/
theorem admit_equality (equality : sides.equality = true) : (ofSides sides).toSides.Admit v ↔
    ∃ k ∈ sides.lower, ∃ y ∈ k.limit?, Binary64.exact y = .finite v := by
  simp only [Admit, toSides, ofSides, equality, if_true]
  cases sides.lower with
  | none => simp
  | some k => cases limit : k.limit? <;> simp [limit, Numeric.toExact?]

/-- Sides that are kept ask for what their limits ask for. -/
theorem IsKept.admit_iff (kept : sides.IsKept) (ok : sides.AreSides) :
    sides.Admit v ↔ (ofSides sides).toSides.Admit v := by
  obtain ⟨numbers, -⟩ := ok
  cases equality : sides.equality with
  | true =>
      rw [admit_equality equality]
      simp only [Admit, equality, if_true]
      refine exists_congr fun k => and_congr_right fun side => ?_
      obtain ⟨y, q, p, limit, value, exact⟩ | ⟨negative, limit, exact⟩ :=
        (numbers.1 k side).limit?_cases
      · have same := (kept.1 k side).2 y limit
        simp [limit, same]
      · simp [limit, exact]
  | false =>
      rw [admit_range equality]
      simp only [Admit, equality, Bool.false_eq_true, if_false]
      exact and_congr
        (forall₂_congr fun k side => (kept.1 k side).bounds_iff (numbers.1 k side))
        (forall₂_congr fun k side => (kept.2 k side).bounds_iff (numbers.2 k side))

section OfAdmit

variable (numbers : sides.All Numeric.IsNumber) (met : (ofSides sides).toSides.Admit w)
  (same : ∀ v, sides.Admit v ↔ (ofSides sides).toSides.Admit v)

include numbers met same

theorem isKept_of_equality (equality : sides.equality = true)
    (one : sides.lower = sides.upper) : sides.IsKept := by
  rw [admit_equality equality] at met
  obtain ⟨k, side, y, limit, -⟩ := met
  have kept (isLower : Bool) : k.IsKept isLower := by
    obtain ⟨z, q, p, limit', value, exact⟩ | ⟨-, none, -⟩ := (numbers.1 k side).limit?_cases
    · have equal : p = q := by
        have admits := same q
        rw [admit_equality equality, Option.mem_def.mp side] at admits
        simpa [Admit, equality, Option.mem_def.mp side, exact, limit', value] using admits
      refine ⟨⟨p, (Numeric.bounds_of_finite exact).mpr (by simp)⟩, fun y limit => ?_⟩
      obtain rfl := Option.some.inj (limit'.symm.trans limit)
      rw [exact, value, equal]
    · cases none.symm.trans limit
  have only (k' : Numeric) (side' : k' ∈ sides.lower) : k' = k :=
    Option.some.inj (side'.symm.trans side)
  exact ⟨fun k' side' => only k' side' ▸ kept true,
    fun k' side' => only k' (one ▸ side') ▸ kept false⟩

theorem isKept_of_range (range : sides.equality = false) : sides.IsKept := by
  have both := (same w).mpr met
  rw [admit_range range] at met
  have agree (v : Rat) := (same v).trans (admit_range range)
  simp only [Admit, range, Bool.false_eq_true, if_false] at agree both
  -- towards the other side, only the side itself decides
  refine ⟨fun k side => Numeric.isKept_of_agree (numbers.1 k side) (both.1 k side) ?_,
    fun k side => Numeric.isKept_of_agree (numbers.2 k side) (both.2 k side) ?_⟩
  · intro v near
    have others : ∀ k ∈ sides.upper, k.Bounds false v := fun k side => (both.2 k side).mono near
    have limits : ∀ k ∈ sides.upper, ∀ y ∈ k.limit?, (Numeric.float y).Bounds false v :=
      fun k side y limit => (met.2 k side y limit).mono near
    have own := agree v
    rw [and_iff_left others, and_iff_left limits, Option.mem_def.mp side] at own
    simpa using own
  · intro v near
    have others : ∀ k ∈ sides.lower, k.Bounds true v := fun k side => (both.1 k side).mono near
    have limits : ∀ k ∈ sides.lower, ∀ y ∈ k.limit?, (Numeric.float y).Bounds true v :=
      fun k side y limit => (met.1 k side y limit).mono near
    have own := agree v
    rw [and_iff_right others, and_iff_right limits, Option.mem_def.mp side] at own
    simpa using own

end OfAdmit

/-- Sides that ask for what their limits ask for are kept, if these can be met. -/
theorem isKept_of_admit (ok : sides.AreSides) (met : (ofSides sides).toSides.Admit w)
    (same : ∀ v, sides.Admit v ↔ (ofSides sides).toSides.Admit v) : sides.IsKept := by
  cases equality : sides.equality with
  | true => exact isKept_of_equality ok.numbers met same equality (ok.one equality)
  | false => exact isKept_of_range ok.numbers met same equality

/-- Limits ask for the same as the sides of a constraint that has them. -/
theorem admit_toSides {limits : Limits Float} (read : limits.AreRead) :
    limits.toSides.Admit v ↔ limits.Holds v := by
  obtain ⟨lower, upper, equality⟩ := limits
  obtain ⟨finiteLower, finiteUpper, -⟩ := read
  simp only at finiteLower finiteUpper
  cases equality with
  | true =>
      simp only [toSides, Admit, Holds, if_true]
      cases lower with
      | none => simp
      | some y =>
          cases value : Binary64.exact y <;>
            simp [Numeric.toExact?, Binary64.toRat?, value]
  | false =>
      simp only [toSides, Admit, Holds, Bool.false_eq_true, if_false]
      refine and_congr ?_ ?_
      · cases lower with
        | none => simp
        | some y =>
          have bounds : (Numeric.float y).Bounds true v ↔ _ :=
            Numeric.bounds_float (finiteLower y rfl)
          simpa using bounds
      · cases upper with
        | none => simp
        | some y =>
          have bounds : (Numeric.float y).Bounds false v ↔ _ :=
            Numeric.bounds_float (finiteUpper y rfl)
          simpa using bounds

theorem AreRead.settled {limits : Limits Float} (read : limits.AreRead) :
    limits.settled.AreRead := by
  by_cases point : limits.isPoint = true
  · rw [Limits.settled, if_pos point]
    exact ⟨read.upper, read.upper, fun _ => rfl⟩
  · rwa [settled_of_not_isPoint (by simpa using point)]

/-- The limits of numbers are finite. -/
theorem ofSides_finite (numbers : sides.All Numeric.IsNumber) :
    (ofSides sides).All fun y => ∃ q, Binary64.exact y = .finite q := by
  have finite {k? : Option Numeric} (number : ∀ k ∈ k?, k.IsNumber) :
      ∀ y ∈ k?.bind Numeric.limit?, ∃ q, Binary64.exact y = .finite q := by
    intro y hy
    obtain ⟨k, side, limit⟩ := Option.bind_eq_some_iff.mp hy
    obtain ⟨z, q, -, limit', value, -⟩ | ⟨-, none, -⟩ := (number k side).limit?_cases
    · exact ⟨q, Option.some.inj (limit.symm.trans limit') ▸ value⟩
    · cases none.symm.trans limit
  exact ⟨finite numbers.1, finite numbers.2⟩

/-- Finite limits that a constraint can have are met by some rational. -/
theorem exists_holds {limits : Limits Float} (possible : limits.relatable = .ok ())
    (finite : limits.All fun y => ∃ q, Binary64.exact y = .finite q) : ∃ v, limits.Holds v := by
  obtain ⟨lower, upper, equality⟩ := limits
  obtain ⟨finiteLower, finiteUpper⟩ := finite
  simp only at finiteLower finiteUpper
  cases lower with
  | none =>
      cases equality with
      | true => cases possible
      | false =>
          cases upper with
          | none => cases possible
          | some y =>
              obtain ⟨q, value⟩ := finiteUpper y rfl
              exact ⟨q, by simp [Holds, Binary64.toRat?, value]⟩
  | some x =>
      obtain ⟨p, value⟩ := finiteLower x rfl
      refine ⟨p, ?_⟩
      cases equality with
      | true => simp [Holds, Binary64.toRat?, value]
      | false =>
          cases upper with
          | none => simp [Holds, Binary64.toRat?, value]
          | some y =>
              obtain ⟨q, value'⟩ := finiteUpper y rfl
              have between : p ≤ q := by
                simp only [relatable, Verdict.require] at possible
                split at possible
                · rename_i order
                  simpa [value, value', Exact.below, Exact.same, le_iff_lt_or_eq] using order
                · cases possible
              simp [Holds, Binary64.toRat?, value, value', between]

end Limits

namespace Constraint

/-- The sides of a constraint; an equality has one side only. -/
def sides (c : Constraint) : Limits Expression :=
  if c.equality then ⟨c.upper.or c.lower, c.upper.or c.lower, true⟩ else ⟨c.lower, c.upper, false⟩

/-- The number that a side stands for. -/
def number? (r : Expression.Reading) : Option Expression → Except Fault (Option Numeric)
  | none => .ok none
  | some e => return some (← e.evaluate r)

/-- The sides of a constraint as the numbers that they stand for. -/
def numbers (r : Expression.Reading) (c : Constraint) : Except Fault (Limits Numeric) := do
  let lower ← number? r c.sides.lower
  let upper ← number? r c.sides.upper
  return ⟨lower, upper, c.equality⟩

/-- Whether a constraint holds if its body has a value: exactly, and nothing left out. -/
def Admits (r : Expression.Reading) (c : Constraint) (v : Rat) : Prop :=
  ∃ sides, c.numbers r = .ok sides ∧ sides.Admit v

variable {r : Expression.Reading} {c : Constraint} {sides : Limits Numeric} {v : Rat}

theorem admits_iff (read : c.numbers r = .ok sides) : c.Admits r v ↔ sides.Admit v := by
  simp [Admits, read]

theorem numbers_one (read : c.numbers r = .ok sides) (equality : sides.equality = true) :
    sides.lower = sides.upper := by
  simp only [numbers, Success.bind_ok, Success.pure_ok] at read
  obtain ⟨lower, readLower, upper, readUpper, rfl⟩ := read
  simp only at equality
  simp only [Constraint.sides, equality, if_true] at readLower readUpper
  exact Except.ok.inj (readLower.symm.trans readUpper)

/-- A side has the limit of its number, if the number has a double. -/
theorem side?_eq {side : Option Expression} {k? : Option Numeric}
    (read : number? r side = .ok k?) (doubles : ∀ k ∈ k?, ∃ y, k.real = .ok y) :
    Limits.side? r side = .ok (k?.bind Numeric.limit?) := by
  cases side with
  | none =>
      cases read
      rfl
  | some e =>
      simp only [number?, Success.bind_ok, Success.pure_ok] at read
      obtain ⟨k, evaluated, rfl⟩ := read
      obtain ⟨y, real⟩ := doubles k rfl
      simp [Limits.side?, evaluated, real, Numeric.limit?_of_real real, bind, Except.bind, pure,
        Except.pure]

/-- The limits of a constraint come from its sides, if these have doubles. -/
theorem ofConstraint?_eq (read : c.numbers r = .ok sides)
    (doubles : sides.All fun k => ∃ y, k.real = .ok y) :
    Limits.ofConstraint? r c = .ok (.ofSides sides) := by
  simp only [numbers, Success.bind_ok, Success.pure_ok] at read
  obtain ⟨lower, readLower, upper, readUpper, rfl⟩ := read
  have limitLower := side?_eq readLower doubles.1
  have limitUpper := side?_eq readUpper doubles.2
  cases equality : c.equality with
  | true =>
      simp only [Constraint.sides, equality, if_true] at limitLower limitUpper
      have one := Except.ok.inj (limitLower.symm.trans limitUpper)
      simp [Limits.ofConstraint?, Limits.ofSides, equality, limitLower, ← one, bind, Except.bind,
        pure, Except.pure]
  | false =>
      simp only [Constraint.sides, equality, Bool.false_eq_true, if_false] at limitLower limitUpper
      simp [Limits.ofConstraint?, Limits.ofSides, equality, limitLower, limitUpper, bind,
        Except.bind, pure, Except.pure]

theorem side?_ok {side : Option Expression} {x? : Option Float}
    (h : Limits.side? r side = .ok x?) :
    ∃ k?, number? r side = .ok k? ∧ ∀ k ∈ k?, ∃ y, k.real = .ok y := by
  cases side with
  | none => exact ⟨none, rfl, by simp⟩
  | some e =>
      simp only [Limits.side?, Success.bind_ok] at h
      obtain ⟨k, evaluated, y, real, -⟩ := h
      exact ⟨some k, by simp [number?, evaluated, bind, Except.bind, pure, Except.pure],
        fun _ side => Option.some.inj side ▸ ⟨y, real⟩⟩

/-- A constraint with limits has sides that stand for numbers with doubles. -/
theorem numbers_of_limits {limits : Limits Float} (h : Limits.ofConstraint? r c = .ok limits) :
    ∃ sides, c.numbers r = .ok sides ∧ sides.All fun k => ∃ y, k.real = .ok y := by
  simp only [Limits.ofConstraint?] at h
  cases equality : c.equality with
  | true =>
      simp only [equality, if_true, Success.bind_ok] at h
      obtain ⟨x, limit, -⟩ := h
      obtain ⟨k, read, double⟩ := side?_ok limit
      exact ⟨⟨k, k, true⟩, by simp [numbers, Constraint.sides, equality, read, bind, Except.bind,
        pure, Except.pure], double, double⟩
  | false =>
      simp only [equality, Bool.false_eq_true, if_false, Success.bind_ok] at h
      obtain ⟨x, limitLower, y, limitUpper, -⟩ := h
      obtain ⟨k, readLower, doubleLower⟩ := side?_ok limitLower
      obtain ⟨l, readUpper, doubleUpper⟩ := side?_ok limitUpper
      exact ⟨⟨k, l, false⟩, by simp [numbers, Constraint.sides, equality, readLower, readUpper,
        bind, Except.bind, pure, Except.pure], doubleLower, doubleUpper⟩

/-- A rebuilt constraint has its limits for sides, whatever parameters and variables stand for. -/
theorem numbers_constrain {limits : Limits Float} (limited : limits.AreRead) {body : Expression}
    (withVars : body.hasVariables = true) {rebuilt : Constraint}
    (h : limits.constrain body = .ok rebuilt) (s : Expression.Reading) :
    rebuilt.numbers s = .ok limits.settled.toSides := by
  obtain ⟨lower, upper, equality⟩ := limits
  have side (y? : Option Float) : number? s (y?.map Limits.literal) = .ok (y?.map .float) := by
    cases y? <;> rfl
  cases equality with
  | true =>
      obtain rfl : lower = upper := limited.equality rfl
      simp only [Limits.constrain, if_true] at h
      cases lower with
      | none => cases h
      | some y =>
          obtain rfl := Except.ok.inj h
          rfl
  | false =>
      simp only [Limits.constrain, Bool.false_eq_true, if_false] at h
      obtain rfl := Limits.range_literals withVars h
      by_cases point : Limits.isPoint ⟨lower, upper, false⟩ = true
      · obtain ⟨y, rfl⟩ := Limits.exists_upper_of_isPoint point
        simp only [numbers, Constraint.sides, Limits.settled, Limits.toSides, point, if_true,
          Option.map_some, Option.some_or]
        rfl
      · simp [numbers, Constraint.sides, Limits.settled, Limits.toSides, point, side, bind,
          Except.bind, pure, Except.pure]

/-- A rebuilt constraint admits what its limits allow. -/
theorem admits_constrain {limits : Limits Float} (limited : limits.AreRead) {body : Expression}
    (withVars : body.hasVariables = true) {rebuilt : Constraint}
    (h : limits.constrain body = .ok rebuilt) (s : Expression.Reading) :
    rebuilt.Admits s v ↔ limits.Holds v := by
  rw [admits_iff (numbers_constrain limited withVars h s), Limits.admit_toSides limited.settled,
    Limits.settled_holds]

/-- What becomes of a constraint that is rebuilt from its limits with some body. It has limits if
its sides stand for numbers that have doubles. It is refused if no side is left or the limits
cross, and else it admits what the limits allow. This is what the constraint admits if, and only
if, each of its sides is kept: an infinity that no number meets is left out like one that every
number meets. Limits are read back as they were if, and only if, they are not those of a range
between equal numbers. -/
theorem rebuilt_admits (r : Expression.Reading) (c : Constraint) {body : Expression}
    (withVars : body.hasVariables = true) :
    ((∃ limits, Limits.ofConstraint? r c = .ok limits) ↔
      ∃ sides, c.numbers r = .ok sides ∧ sides.All fun k => ∃ y, k.real = .ok y) ∧
    ∀ sides limits, c.numbers r = .ok sides → Limits.ofConstraint? r c = .ok limits →
      ((∃ rebuilt, limits.constrain body = .ok rebuilt) ↔ limits.relatable = .ok ()) ∧
      ∀ rebuilt, limits.constrain body = .ok rebuilt → rebuilt.body = body ∧
        (∀ s v, rebuilt.Admits s v ↔ limits.Holds v) ∧
        ((sides.All fun k => k.toExact? ≠ some .nan) →
          ((∀ s v, rebuilt.Admits s v ↔ c.Admits r v) ↔ sides.IsKept)) ∧
        ((∀ s, Limits.ofConstraint? s rebuilt = .ok limits) ↔ limits.isPoint = false) := by
  refine ⟨⟨fun ⟨limits, limited⟩ => numbers_of_limits limited,
    fun ⟨sides, read, doubles⟩ => ⟨_, ofConstraint?_eq read doubles⟩⟩, ?_⟩
  intro sides limits read limited
  obtain ⟨own, read', doubles⟩ := numbers_of_limits limited
  obtain rfl := Except.ok.inj (read.symm.trans read')
  obtain rfl := Except.ok.inj (limited.symm.trans (ofConstraint?_eq read doubles))
  have areRead := Limits.ofConstraint?_areRead limited
  have possible : (∃ rebuilt, (Limits.ofSides sides).constrain body = .ok rebuilt) ↔
      (Limits.ofSides sides).relatable = .ok () := by
    rw [← Limits.constrain_verdict _ withVars, Verdict.of_eq_ok]
    simp
  refine ⟨possible, fun rebuilt made => ?_⟩
  obtain ⟨bodied, -, kept⟩ := Limits.constrain_ok areRead withVars made
  have holds := fun s v => admits_constrain (v := v) areRead withVars made s
  refine ⟨bodied, holds, fun numbers => ?_, fun same => ?_, fun range s => ?_⟩
  · have ok : sides.AreSides :=
      ⟨⟨fun k side => ⟨doubles.1 k side, numbers.1 k side⟩,
        fun k side => ⟨doubles.2 k side, numbers.2 k side⟩⟩, numbers_one read⟩
    have limits v := Limits.admit_toSides (v := v) areRead
    constructor
    · intro same
      obtain ⟨w, met⟩ := Limits.exists_holds (possible.mp ⟨rebuilt, made⟩)
        (Limits.ofSides_finite ok.numbers)
      refine Limits.isKept_of_admit ok ((limits w).mpr met) fun v => ?_
      rw [limits, ← holds r, same, admits_iff read]
    · intro keeps s v
      rw [holds, admits_iff read, keeps.admit_iff ok, limits]
  · by_contra point
    have equal := (same r).symm.trans (kept r)
    exact Limits.settled_ne_of_isPoint (by simpa using point) (Except.ok.inj equal).symm
  · rw [kept, Limits.settled_of_not_isPoint range]

/-- A variable between a parameter and five. -/
def fromParameter : Constraint :=
  ⟨.variable ⟨0, "x", 0⟩, some (.parameter ⟨0, "p", 0⟩), some (.number (.int 5)), false, true⟩

/-- A reading in which parameters have one value. -/
def withParameter (v : Value) : Expression.Reading := ⟨fun _ => v, fun _ => .null, fun _ => false⟩

/-- With a parameter of two, nothing is lost of `2 ≤ x ≤ 5`. -/
theorem fromParameter_rebuilt : fromParameter.body.hasVariables = true ∧
    Limits.ofConstraint? (withParameter (.int 2)) fromParameter = .ok ⟨some 2.0, some 5.0, false⟩ ∧
    ∃ rebuilt, Limits.constrain ⟨some 2.0, some 5.0, false⟩ fromParameter.body = .ok rebuilt ∧
      ∀ s v, rebuilt.Admits s v ↔ fromParameter.Admits (withParameter (.int 2)) v := by
  have limited : Limits.ofConstraint? (withParameter (.int 2)) fromParameter =
      .ok ⟨some 2.0, some 5.0, false⟩ := rfl
  have read : fromParameter.numbers (withParameter (.int 2)) =
      .ok ⟨some (.int 2), some (.int 5), false⟩ := rfl
  have withVars : fromParameter.body.hasVariables = true := rfl
  obtain ⟨possible, built⟩ :=
    (rebuilt_admits (withParameter (.int 2)) fromParameter withVars).2 _ _ read limited
  have order : (Binary64.exact 2.0).below (Binary64.exact 5.0) = true := by decide +kernel
  obtain ⟨rebuilt, made⟩ := possible.mpr (by simp [Limits.relatable, Verdict.require, order])
  refine ⟨withVars, limited, rebuilt, made, ((built rebuilt made).2.2.1 ?_).mpr ?_⟩
  · simp [Limits.All, Numeric.toExact?]
  · exact ⟨fun _ side => Option.some.inj side ▸ Numeric.isKept_int (by decide),
      fun _ side => Option.some.inj side ▸ Numeric.isKept_int (by decide)⟩

/-- With an infinite parameter, `∞ ≤ x ≤ 5` is met by nothing, and is rebuilt as `x ≤ 5`. -/
theorem fromParameter_relaxed :
    between (.parameter ⟨0, "p", 0⟩) (.variable ⟨0, "x", 0⟩) (.number (.int 5)) =
      .ok fromParameter ∧
    ∃ limits rebuilt, Limits.ofConstraint? (withParameter (.float Binary64.infinity))
        fromParameter = .ok limits ∧ limits.constrain fromParameter.body = .ok rebuilt ∧
      (∀ s, rebuilt.Admits s 3) ∧
      ∀ v, ¬fromParameter.Admits (withParameter (.float Binary64.infinity)) v := by
  have limited : Limits.ofConstraint? (withParameter (.float Binary64.infinity)) fromParameter =
      .ok ⟨none, some 5.0, false⟩ := rfl
  have read : fromParameter.numbers (withParameter (.float Binary64.infinity)) =
      .ok ⟨some (.float Binary64.infinity), some (.int 5), false⟩ := rfl
  have body : fromParameter.body.hasVariables = true := rfl
  have infinite : Binary64.exact Binary64.infinity = .infinite false := by decide +kernel
  refine ⟨rfl, ⟨none, some 5.0, false⟩, _, limited, rfl, fun s => ?_, fun v => ?_⟩
  · rw [admits_constrain (Limits.ofConstraint?_areRead limited) body rfl]
    simp only [Limits.Holds, Binary64.toRat?]
    decide +kernel
  · rw [admits_iff read]
    simp [Limits.Admit, Numeric.Bounds, Numeric.toExact?, infinite, Exact.bounds, Exact.below,
      Exact.same]

end Constraint

end BlockAngular
