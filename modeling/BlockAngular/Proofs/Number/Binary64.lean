import BlockAngular.Model.Expression
import Mathlib.Algebra.Order.Field.Rat

/-! # Zeros, ones, integers and large doubles

A finite double is no larger than the largest one, and a double with an exponent is no zero. So
no integer but zero becomes a zero when it is taken for a double, and one of less than 53 bits
stays what it is. The doubles that are equal to zero are the two zeros, and only one is equal to
one.
-/

namespace BlockAngular

namespace Binary64

open Float.Model UnpackedFloat

theorem twoPow_pos (e : Int) : 0 < twoPow e := by
  unfold twoPow
  split
  · exact_mod_cast Nat.two_pow_pos e.toNat
  · rw [Rat.mkRat_eq_div]
    exact div_pos (by simp) (by exact_mod_cast Nat.two_pow_pos (-e).toNat)

theorem twoPow_le {e : Int} {k : Nat} (h : e ≤ k) : twoPow e ≤ 2 ^ k := by
  unfold twoPow
  split
  · have power : e.toNat ≤ k := by omega
    exact_mod_cast Nat.pow_le_pow_right (n := 2) (by decide) power
  · rw [Rat.mkRat_eq_div]
    have one : (1 : ℚ) ≤ (Nat.pow 2 (-e).toNat : ℕ) := by
      exact_mod_cast Nat.one_le_two_pow (n := (-e).toNat)
    calc ((1 : ℤ) : ℚ) / (Nat.pow 2 (-e).toNat : ℕ) ≤ 1 := by
          rw [Int.cast_one]; exact div_le_one_of_le₀ one (zero_le_one.trans one)
      _ ≤ 2 ^ k := one_le_pow₀ one_le_two

/-- A finite double is no larger than the largest one. -/
theorem abs_le_of_exact {x : Float} {q : ℚ} (h : exact x = .finite q) :
    ∃ m : Nat, m < 2 ^ 53 ∧ |q| ≤ m * 2 ^ 971 := by
  have exponent : exponentBits x < 2 ^ 11 := Nat.mod_lt _ (by decide)
  have fraction : fractionBits x < 2 ^ 52 := Nat.mod_lt _ (by decide)
  unfold exact at h
  split at h
  · split at h <;> cases h
  · rename_i finite
    have bounds : (scaled x).1 < 2 ^ 53 ∧ (scaled x).2 ≤ (971 : Nat) := by
      unfold scaled
      split
      · exact ⟨by omega, by simp⟩
      · refine ⟨?_, by omega⟩
        show 2 ^ 52 + fractionBits x < 2 ^ 53
        omega
    refine ⟨(scaled x).1, bounds.1, ?_⟩
    obtain rfl := Exact.finite.inj h
    have magnitude : |((scaled x).1 : ℚ) * twoPow (scaled x).2| ≤ (scaled x).1 * 2 ^ 971 := by
      have significand : (0 : ℚ) ≤ (scaled x).1 := Nat.cast_nonneg _
      rw [abs_of_nonneg (mul_nonneg significand (twoPow_pos _).le)]
      exact mul_le_mul_of_nonneg_left (twoPow_le bounds.2) significand
    split
    · rwa [abs_neg]
    · exact magnitude

/-- A double with an exponent is no zero. -/
theorem isZero_of_exponentBits {x : Float} (normal : exponentBits x ≠ 0) : isZero x = false := by
  have significand : ((scaled x).1 : ℚ) ≠ 0 := by
    rw [scaled, if_neg normal]
    exact_mod_cast (Nat.add_pos_left (Nat.two_pow_pos 52) _).ne'
  have magnitude := mul_ne_zero significand (twoPow_pos (scaled x).2).ne'
  unfold isZero exact
  split
  · split <;> rfl
  · dsimp only
    split <;> simp [magnitude]

theorem unpackExponent_toNat (v : BitVec 64) :
    (@unpackExponent .binary64 v).toNat = v.toNat / Nat.pow 2 52 % Nat.pow 2 11 := by
  simp [unpackExponent, Nat.shiftRight_eq_div_pow]

theorem log2_significand (m : BitVec 52) : (1#1 ++ m).toNat.log2 = 52 := by
  have small : (1#1 ++ m).toNat < 2 ^ 53 := (1#1 ++ m).isLt
  have large : 2 ^ 52 ≤ (1#1 ++ m).toNat := by
    rw [BitVec.toNat_append]
    exact le_trans (by decide) Nat.left_le_or
  exact (Nat.log2_eq_iff (by omega)).mpr ⟨large, small⟩

/-- What has all the bits of its exponent set is infinite or no number. -/
theorem unpack_of_top {v : BitVec 64} (top : @unpackExponent .binary64 v = -1#11) :
    (∃ s, UnpackedFloat.unpack .binary64 v = .infinity s) ∨
      UnpackedFloat.unpack .binary64 v = .notANumber := by
  by_cases fraction : @unpackMantissa .binary64 v = 0#52
  · exact .inl ⟨_, (if_pos top).trans (if_pos fraction)⟩
  · exact .inr ((if_pos top).trans (if_neg fraction))

theorem unpack_of_normal {v : BitVec 64} (finite : @unpackExponent .binary64 v ≠ -1#11)
    (normal : @unpackExponent .binary64 v ≠ 0#11) :
    ∃ positive, UnpackedFloat.unpack .binary64 v =
      .finite (.ofBitVec (@unpackSign .binary64 v)) (1#1 ++ @unpackMantissa .binary64 v).toNat
        ((@unpackExponent .binary64 v).toNat - (Format.binary64.exponentBias + (52 : Nat)))
        positive :=
  ⟨_, (if_neg finite).trans (if_neg normal)⟩

/-- What has no bit of its exponent set is zero, or has the least power. -/
theorem unpack_of_low {v : BitVec 64} (low : @unpackExponent .binary64 v = 0#11) :
    (@unpackMantissa .binary64 v = 0#52 ∧ ∃ s, UnpackedFloat.unpack .binary64 v = .zero s) ∨
      @unpackMantissa .binary64 v ≠ 0#52 ∧ ∃ s positive, UnpackedFloat.unpack .binary64 v =
        .finite s (@unpackMantissa .binary64 v).toNat (-1074) positive := by
  have bounded : @unpackExponent .binary64 v ≠ -1#11 := by
    rw [low]
    decide
  by_cases fraction : @unpackMantissa .binary64 v = 0#52
  · exact .inl ⟨fraction, _, (if_neg bounded).trans ((if_pos low).trans (dif_pos fraction))⟩
  · have least : ((@unpackExponent .binary64 v).toNat : Int) -
        (Format.binary64.exponentBias + (52 : Nat)) + 1 = -1074 := by
      rw [low]
      rfl
    rw [← least]
    exact .inr ⟨fraction, _, _, (if_neg bounded).trans ((if_pos low).trans (dif_neg fraction))⟩

theorem unpackMantissa_toNat (v : BitVec 64) :
    (@unpackMantissa .binary64 v).toNat = v.toNat % Nat.pow 2 52 := by
  simp [unpackMantissa]

theorem toNat_significand (m : BitVec 52) : (1#1 ++ m).toNat = 2 ^ 52 + m.toNat :=
  (BitVec.toNat_append ..).trans (Nat.two_pow_add_eq_or_of_lt m.isLt 1).symm

theorem packComponents_toNat (s : Sign) (e : BitVec 11) (m : BitVec 52) :
    (packComponents .binary64 s e m).toNat =
      s.toBitVec.toNat * 2 ^ 63 + e.toNat * 2 ^ 52 + m.toNat := by
  have fields : (packComponents .binary64 s e m).toNat =
      (s.toBitVec.toNat <<< 11 ||| e.toNat) <<< 52 ||| m.toNat :=
    (BitVec.toNat_append ..).trans (congrArg (· <<< 52 ||| m.toNat) (BitVec.toNat_append ..))
  rw [fields, ← Nat.shiftLeft_add_eq_or_of_lt e.isLt, ← Nat.shiftLeft_add_eq_or_of_lt m.isLt,
    Nat.shiftLeft_eq, Nat.shiftLeft_eq]
  omega

theorem unpackSign_toNat (v : BitVec 64) :
    (Sign.ofBitVec (@unpackSign .binary64 v)).toBitVec.toNat = v.toNat / 2 ^ 63 := by
  have bit : (@unpackSign .binary64 v).toNat = v.toNat / 2 ^ 63 % 2 := by
    rw [← Nat.shiftRight_eq_div_pow]
    exact BitVec.extractLsb_toNat 63 63 v
  have kept (s : BitVec 1) : (Sign.ofBitVec s).toBitVec = s := by
    revert s
    decide
  have small : v.toNat < 2 ^ 64 := v.isLt
  rw [kept, bit]
  omega

theorem pack_finite {s : Sign} {m : Nat} {e : Int} {positive : 0 < m}
    (low : (e + Format.binary64.exponentBias + (52 : Nat)).toNat + 1 < 2 ^ 11)
    (normal : m.log2 = 52) : UnpackedFloat.pack .binary64 (.finite s m e positive) =
      packComponents .binary64 s
        (BitVec.ofNat 11 (e + Format.binary64.exponentBias + (52 : Nat)).toNat)
        (BitVec.ofNat 52 m) :=
  (if_neg (Nat.not_le.mpr low)).trans (if_pos (congrArg (· + 1) normal))

/-- The bits of a double that is neither zero nor subnormal, infinite or no number are its own. -/
theorem pack_unpack {v : BitVec 64} (finite : @unpackExponent .binary64 v ≠ -1#11)
    (normal : @unpackExponent .binary64 v ≠ 0#11) :
    UnpackedFloat.pack .binary64 (UnpackedFloat.unpack .binary64 v) = v := by
  have sign := unpackSign_toNat v
  have exponent : _ = v.toNat / 2 ^ 52 % 2 ^ 11 := unpackExponent_toNat v
  have mantissa : _ = v.toNat % 2 ^ 52 := unpackMantissa_toNat v
  obtain ⟨positive, unpacked⟩ := unpack_of_normal finite normal
  have below : (@unpackExponent .binary64 v).toNat < 2047 := by
    have lt : (@unpackExponent .binary64 v).toNat < 2048 := (@unpackExponent .binary64 v).isLt
    have ne : (@unpackExponent .binary64 v).toNat ≠ 2047 := fun equal =>
      finite (BitVec.eq_of_toNat_eq equal)
    omega
  have biased : (((@unpackExponent .binary64 v).toNat : Int) -
      ((Format.binary64.exponentBias : Int) + (52 : Nat)) + (Format.binary64.exponentBias : Int) +
        (52 : Nat)).toNat = (@unpackExponent .binary64 v).toNat := by omega
  have significand := toNat_significand (@unpackMantissa .binary64 v)
  rw [unpacked, pack_finite (by omega) (log2_significand _), biased]
  apply BitVec.eq_of_toNat_eq
  rw [packComponents_toNat, sign, BitVec.toNat_ofNat, BitVec.toNat_ofNat, significand, exponent,
    mantissa]
  omega

/-- A double with an exponent keeps it. -/
theorem unpackExponent_pack_unpack {v : BitVec 64}
    (normal : @unpackExponent .binary64 v ≠ 0#11) :
    unpackExponent (UnpackedFloat.pack .binary64 (UnpackedFloat.unpack .binary64 v)) =
      @unpackExponent .binary64 v := by
  by_cases top : @unpackExponent .binary64 v = -1#11
  · obtain ⟨s, infinite⟩ | none := unpack_of_top top
    · rw [infinite, top]
      exact unpackExponent_packComponents
    · rw [none, top]
      exact unpackExponent_packComponents
  · rw [pack_unpack top normal]

theorem exponentBits_ofBits {b : UInt64} (normal : b.toNat / Nat.pow 2 52 % Nat.pow 2 11 ≠ 0) :
    exponentBits (Float.ofBits b) = b.toNat / Nat.pow 2 52 % Nat.pow 2 11 := by
  have bits := unpackExponent_toNat b.toBitVec
  have field : @unpackExponent .binary64 b.toBitVec ≠ 0#11 := fun zero =>
    normal (bits.symm.trans (congrArg BitVec.toNat zero))
  exact (unpackExponent_toNat _).symm.trans
    ((congrArg BitVec.toNat (unpackExponent_pack_unpack field)).trans bits)

theorem nearestBits_bounds {n : Nat} (positive : n ≠ 0) :
    2 ^ 52 ≤ nearestBits n 1 ∧ nearestBits n 1 ≤ 2047 * 2 ^ 52 := by
  have exponent (top : Int) (a b : Nat) (least : -1 ≤ top) : 2 ^ 52 ≤
      (max (top - 52) (-1074) + 1074).toNat * Nat.pow 2 52 + roundDiv a b := by
    have some : 1 ≤ (max (top - 52) (-1074) + 1074).toNat := by omega
    exact (Nat.le_mul_of_pos_left _ some).trans (Nat.le_add_right _ _)
  have guess : 0 ≤ (n.log2 : Int) - (Nat.log2 1 : Int) := by
    have one : Nat.log2 1 = 0 := by decide
    omega
  rw [nearestBits, if_neg positive]
  exact ⟨le_min (exponent _ _ _ (by split <;> omega)) (by decide), Nat.min_le_right ..⟩

/-- The exponent of the double nearest to an integer. -/
theorem exponentBits_nearest {n : Int} (h : n ≠ 0) :
    exponentBits (nearest (n : Rat)) = nearestBits n.natAbs 1 / 2 ^ 52 := by
  obtain ⟨low, high⟩ := nearestBits_bounds (n := n.natAbs) (by omega)
  rw [nearest, Rat.num_intCast, Rat.den_intCast]
  generalize nearestBits n.natAbs 1 = bits at *
  have field (sign : Prop) [Decidable sign] : (UInt64.ofNat
      (if sign then bits + Nat.pow 2 63 else bits)).toNat / Nat.pow 2 52 % Nat.pow 2 11 =
        bits / 2 ^ 52 := by
    rw [UInt64.toNat_ofNat']
    split <;> simp <;> omega
  have own := field ((n : Int) < 0)
  rw [exponentBits_ofBits (by omega), own]

/-- An integer that is not zero is no zero as a double. -/
theorem isZero_nearest {n : Int} (h : n ≠ 0) : isZero (nearest (n : Rat)) = false := by
  obtain ⟨low, -⟩ := nearestBits_bounds (n := n.natAbs) (by omega)
  have exponent := exponentBits_nearest h
  exact isZero_of_exponentBits (by omega)

theorem isInfinite_of_exponentBits {x : Float} (finite : exponentBits x ≠ 2047) :
    isInfinite x = false := by
  simp [isInfinite, exact, finite]

/-- Whether an integer has a double is up to its magnitude. -/
theorem ofInt?_isSome {n : Int} (h : n ≠ 0) :
    (ofInt? n).isSome = true ↔ nearestBits n.natAbs 1 ≠ 2047 * 2 ^ 52 := by
  obtain ⟨low, high⟩ := nearestBits_bounds (n := n.natAbs) (by omega)
  by_cases largest : nearestBits n.natAbs 1 = 2047 * 2 ^ 52
  · have infinite : isInfinite (nearest (n : Rat)) = true := by
      rw [nearest, Rat.num_intCast, Rat.den_intCast, largest]
      split <;> decide +kernel
    simp [ofInt?, infinite, largest]
  · have exponent := exponentBits_nearest h
    have finite := isInfinite_of_exponentBits (x := nearest (n : Rat)) (by omega)
    simpa [ofInt?, finite] using largest

/-- The double of an integer is finite. -/
theorem exact_of_ofInt? {n : Int} {x : Float} (h : ofInt? n = some x) :
    ∃ q, exact x = .finite q := by
  by_cases zero : n = 0
  · subst zero
    cases h
    exact ⟨0, by decide +kernel⟩
  · have some := (ofInt?_isSome zero).mp (by simp [h])
    obtain ⟨-, high⟩ := nearestBits_bounds (n := n.natAbs) (by omega)
    have exponent := exponentBits_nearest zero
    have finite : exponentBits (nearest (n : Rat)) ≠ 2047 := by omega
    simp only [ofInt?] at h
    split at h
    · cases h
    · cases h
      exact ⟨_, by rw [exact, if_neg finite]⟩

theorem ofInt?_neg_isSome (n : Int) : (ofInt? (-n)).isSome = (ofInt? n).isSome := by
  by_cases zero : n = 0
  · subst zero
    rfl
  · rw [Bool.eq_iff_iff, ofInt?_isSome zero, ofInt?_isSome (by omega), Int.natAbs_neg]

theorem toBits_injective {x y : Float} (h : x.toBits = y.toBits) : x = y := by
  obtain ⟨⟨bits, valid⟩⟩ := x
  obtain ⟨⟨bits', valid'⟩⟩ := y
  obtain rfl : bits = bits' := h
  rfl

/-- A double is zero if it has neither an exponent nor a fraction. -/
theorem isZero_iff {x : Float} : isZero x = true ↔ exponentBits x = 0 ∧ fractionBits x = 0 := by
  constructor
  · intro zero
    have exponent : exponentBits x = 0 := by
      by_contra normal
      rw [isZero_of_exponentBits normal] at zero
      cases zero
    refine ⟨exponent, ?_⟩
    have power := (twoPow_pos (-1074)).ne'
    have magnitude : (if negative x then -((fractionBits x : Rat) * twoPow (-1074))
        else (fractionBits x : Rat) * twoPow (-1074)) = 0 := by
      simpa [isZero, exact, scaled, exponent] using zero
    split at magnitude <;> simpa [power] using magnitude
  · rintro ⟨exponent, fraction⟩
    simp [isZero, exact, scaled, exponent, fraction]

theorem compare_zero {f : UnpackedFloat} {s : Sign} :
    f.compare (.zero s) = some .eq ↔ ∃ t, f = .zero t := by
  cases f with
  | infinity t => cases t <;> exact ⟨nofun, nofun⟩
  | notANumber => exact ⟨nofun, nofun⟩
  | zero t => exact ⟨fun _ => ⟨t, rfl⟩, fun _ => rfl⟩
  | finite t m e positive => cases t <;> exact ⟨nofun, nofun⟩

theorem unpack_eq_zero {v : BitVec 64} : (∃ s, UnpackedFloat.unpack .binary64 v = .zero s) ↔
    @unpackExponent .binary64 v = 0#11 ∧ @unpackMantissa .binary64 v = 0#52 := by
  by_cases top : @unpackExponent .binary64 v = -1#11
  · rw [top]
    obtain ⟨s, infinite⟩ | none := unpack_of_top top
    · simp [infinite]
    · simp [none]
  · by_cases low : @unpackExponent .binary64 v = 0#11
    · obtain ⟨fraction, zero⟩ | ⟨fraction, s, positive, least⟩ := unpack_of_low low
      · exact ⟨fun _ => ⟨low, fraction⟩, fun _ => zero⟩
      · refine ⟨fun ⟨_, same⟩ => ?_, fun h => absurd h.2 fraction⟩
        cases least.symm.trans same
    · obtain ⟨positive, finite⟩ := unpack_of_normal top low
      refine ⟨fun ⟨_, same⟩ => ?_, fun h => absurd h.1 low⟩
      cases finite.symm.trans same

/-- Only zeros are equal to zero. -/
theorem beq_zero (x : Float) : (x == 0.0) = isZero x := by
  have zero : UnpackedFloat.unpack .binary64 (0.0 : Float).toBits.toBitVec = .zero .positive := by
    have bits : (0.0 : Float).toBits.toBitVec = 0#64 := by decide +kernel
    rw [bits]
    rfl
  have compared : (x == 0.0) = ((UnpackedFloat.unpack .binary64 x.toBits.toBitVec).compare
      (UnpackedFloat.unpack .binary64 (0.0 : Float).toBits.toBitVec) == some .eq) := rfl
  rw [compared, zero, Bool.eq_iff_iff, beq_iff_eq, compare_zero, unpack_eq_zero, isZero_iff]
  have exponent : exponentBits x = (@unpackExponent .binary64 x.toBits.toBitVec).toNat :=
    (unpackExponent_toNat _).symm
  have fraction : fractionBits x = (@unpackMantissa .binary64 x.toBits.toBitVec).toNat :=
    (unpackMantissa_toNat _).symm
  rw [exponent, fraction, ← BitVec.toNat_inj, ← BitVec.toNat_inj]
  rfl

theorem lt_of_positive {v : BitVec 64} (h : Sign.ofBitVec (@unpackSign .binary64 v) = .positive) :
    v.toNat < 2 ^ 63 := by
  have clear : @unpackSign .binary64 v = 0#1 := by
    unfold Sign.ofBitVec at h
    split at h
    · assumption
    · cases h
  have bit := congrArg BitVec.toNat clear
  have small : v.toNat < 2 ^ 64 := v.isLt
  have sign : (@unpackSign .binary64 v).toNat = v.toNat / 2 ^ 63 % 2 := by
    rw [← Nat.shiftRight_eq_div_pow]
    exact BitVec.extractLsb_toNat 63 63 v
  have none : v.toNat / 2 ^ 63 % 2 = 0 := sign.symm.trans bit
  omega

theorem unpack_one : UnpackedFloat.unpack .binary64 (1.0 : Float).toBits.toBitVec =
    .finite .positive (2 ^ 52) (-52) (by decide) := by
  have bits : (1.0 : Float).toBits.toBitVec = 0x3FF0000000000000#64 := by decide +kernel
  rw [bits]
  rfl

theorem compare_one {f : UnpackedFloat}
    (h : f.compare (.finite .positive (2 ^ 52) (-52) (by decide)) = some .eq) :
    ∃ positive, f = .finite .positive (2 ^ 52) (-52) positive := by
  cases f with
  | infinity s => cases s <;> cases h
  | notANumber => cases h
  | zero s => cases h
  | finite s m e positive =>
      cases s with
      | negative => cases h
      | positive =>
          have both : (compare e (-52)).then (compare m (2 ^ 52)) = .eq := Option.some.inj h
          rw [Ordering.then_eq_eq, compare_eq_iff_eq, compare_eq_iff_eq] at both
          obtain ⟨rfl, rfl⟩ := both
          exact ⟨positive, rfl⟩

/-- Only the bits of one are taken apart into those of one: what has no exponent has another
power. -/
theorem toNat_of_unpack_one {v : BitVec 64} {positive : 0 < 2 ^ 52}
    (unpacked : UnpackedFloat.unpack .binary64 v = .finite .positive (2 ^ 52) (-52) positive) :
    v.toNat = 1023 * 2 ^ 52 := by
  by_cases top : @unpackExponent .binary64 v = -1#11
  · obtain ⟨s, infinite⟩ | none := unpack_of_top top
    · cases infinite.symm.trans unpacked
    · cases none.symm.trans unpacked
  · by_cases low : @unpackExponent .binary64 v = 0#11
    · obtain ⟨-, s, zero⟩ | ⟨-, s, positive, least⟩ := unpack_of_low low
      · cases zero.symm.trans unpacked
      · have wrong := (UnpackedFloat.finite.inj (least.symm.trans unpacked)).2.2
        exact absurd wrong (by decide)
    · obtain ⟨positive, finite⟩ := unpack_of_normal top low
      obtain ⟨sign, fraction, power⟩ := UnpackedFloat.finite.inj (finite.symm.trans unpacked)
      have small := lt_of_positive sign
      have biased : ((@unpackExponent .binary64 v).toNat : Int) - (1023 + 52) = -52 := power
      have exponent : (@unpackExponent .binary64 v).toNat = v.toNat / 2 ^ 52 % 2 ^ 11 :=
        unpackExponent_toNat v
      have significand : 2 ^ 52 + (@unpackMantissa .binary64 v).toNat = 2 ^ 52 :=
        (toNat_significand _).symm.trans fraction
      have mantissa : (@unpackMantissa .binary64 v).toNat = v.toNat % 2 ^ 52 :=
        unpackMantissa_toNat v
      have divided : v.toNat / 2 ^ 52 % 2 ^ 11 = 1023 := by omega
      have rest : v.toNat % 2 ^ 52 = 0 := by omega
      omega

/-- Only one is equal to one. -/
theorem eq_one_of_beq {x : Float} (h : (x == 1.0) = true) : x = 1.0 := by
  have compared : (UnpackedFloat.unpack .binary64 x.toBits.toBitVec).compare
      (UnpackedFloat.unpack .binary64 (1.0 : Float).toBits.toBitVec) = some .eq := eq_of_beq h
  rw [unpack_one] at compared
  obtain ⟨positive, unpacked⟩ := compare_one compared
  have value := toNat_of_unpack_one unpacked
  exact toBits_injective
    (UInt64.toBitVec_inj.mp (BitVec.eq_of_toNat_eq (value.trans (by decide +kernel))))

theorem toBits_ofBits {b : UInt64} (normal : b.toNat / 2 ^ 52 % 2 ^ 11 ≠ 0)
    (finite : b.toNat / 2 ^ 52 % 2 ^ 11 ≠ 2047) : (Float.ofBits b).toBits = b := by
  have exponent : (@unpackExponent .binary64 b.toBitVec).toNat = b.toNat / 2 ^ 52 % 2 ^ 11 :=
    unpackExponent_toNat b.toBitVec
  refine UInt64.toBitVec_inj.mp (pack_unpack (fun top => finite ?_) fun low => normal ?_)
  · rw [← exponent, top]
    decide
  · rw [← exponent, low]
    decide

theorem exact_ofBits {b : UInt64} (normal : b.toNat / 2 ^ 52 % 2 ^ 11 ≠ 0)
    (finite : b.toNat / 2 ^ 52 % 2 ^ 11 ≠ 2047) {q : Rat}
    (magnitude : ((2 ^ 52 + b.toNat % 2 ^ 52 : Nat) : Rat) *
      twoPow ((b.toNat / 2 ^ 52 % 2 ^ 11 : Nat) - 1075) = q) :
    exact (Float.ofBits b) = .finite (if b.toNat / 2 ^ 63 = 1 then -q else q) := by
  have bits := toBits_ofBits normal finite
  have exponent : exponentBits (Float.ofBits b) = b.toNat / 2 ^ 52 % 2 ^ 11 := by
    rw [exponentBits, bits]
    rfl
  have fraction : fractionBits (Float.ofBits b) = b.toNat % 2 ^ 52 := by
    rw [fractionBits, bits]
    rfl
  have sign : negative (Float.ofBits b) = (b.toNat / 2 ^ 63 == 1) := by
    rw [negative, bits]
    rfl
  have scale : scaled (Float.ofBits b) =
      (2 ^ 52 + b.toNat % 2 ^ 52, ((b.toNat / 2 ^ 52 % 2 ^ 11 : Nat) : Int) - 1075) := by
    rw [scaled, exponent, fraction, if_neg normal]
    rfl
  rw [exact, exponent, if_neg finite, scale, sign]
  simp only [magnitude, beq_iff_eq]

/-- A number of less than 53 bits, moved up to 53 of them. -/
theorem significand_bounds {n : Nat} (positive : n ≠ 0) (small : n < 2 ^ 53) :
    2 ^ 52 ≤ n * 2 ^ (52 - n.log2) ∧ n * 2 ^ (52 - n.log2) < 2 ^ 53 := by
  have log := (Nat.log2_lt positive).mpr small
  constructor
  · calc 2 ^ 52 = 2 ^ n.log2 * 2 ^ (52 - n.log2) := by
          rw [← Nat.pow_add, Nat.add_sub_of_le (by omega)]
      _ ≤ _ := Nat.mul_le_mul_right _ (Nat.log2_self_le positive)
  · calc n * 2 ^ (52 - n.log2) < 2 ^ (n.log2 + 1) * 2 ^ (52 - n.log2) :=
          Nat.mul_lt_mul_of_pos_right Nat.lt_log2_self (Nat.two_pow_pos _)
      _ = 2 ^ 53 := by rw [← Nat.pow_add, show n.log2 + 1 + (52 - n.log2) = 53 by omega]

theorem nearestBits_of_small {n : Nat} (positive : n ≠ 0) (small : n < 2 ^ 53) :
    nearestBits n 1 = (n.log2 + 1022) * 2 ^ 52 + n * 2 ^ (52 - n.log2) := by
  have log := (Nat.log2_lt positive).mpr small
  have bounds := significand_bounds positive small
  have one : Nat.log2 1 = 0 := by decide
  have guess : ¬ (shifted n 1 ((n.log2 : Int) - (0 : Nat))).1 <
      (shifted n 1 ((n.log2 : Int) - (0 : Nat))).2 := by
    simpa [shifted] using Nat.log2_self_le positive
  have top : max ((n.log2 : Int) - (0 : Nat) - 52) (-1074) = n.log2 - 52 := by omega
  have exact : shifted n 1 ((n.log2 : Int) - 52) = (n * 2 ^ (52 - n.log2), 1) := by
    unfold shifted
    split
    · have last : n.log2 = 52 := by omega
      simp [last]
    · simp
  have whole (a : Nat) : roundDiv a 1 = a := by simp [roundDiv, Nat.mod_one]
  have field : ((n.log2 : Int) - 52 + 1074).toNat = n.log2 + 1022 := by omega
  rw [nearestBits, if_neg positive]
  simp only [one, if_neg guess, top, exact, whole, field]
  refine min_eq_left ?_
  show (n.log2 + 1022) * 2 ^ 52 + n * 2 ^ (52 - n.log2) ≤ 2047 * 2 ^ 52
  omega

/-- An integer of less than 53 bits is its own double. -/
theorem exact_nearest {n : Int} (small : n.natAbs < 2 ^ 53) :
    exact (nearest (n : Rat)) = .finite n := by
  by_cases zero : n = 0
  · subst zero
    decide +kernel
  have nonzero : n.natAbs ≠ 0 := by omega
  have log := (Nat.log2_lt nonzero).mpr small
  have bits := nearestBits_of_small nonzero small
  obtain ⟨least, most⟩ := significand_bounds nonzero small
  have scale : ((n.natAbs * 2 ^ (52 - n.natAbs.log2) : Nat) : Rat) *
      twoPow ((n.natAbs.log2 : Int) - 52) = n.natAbs := by
    unfold twoPow
    split
    · have last : n.natAbs.log2 = 52 := by omega
      simp [last]
    · rw [Rat.mkRat_eq_div]
      simp
  rw [nearest, Rat.num_intCast, Rat.den_intCast, bits]
  generalize n.natAbs * 2 ^ (52 - n.natAbs.log2) = m at *
  generalize n.natAbs.log2 = e at *
  generalize bits : UInt64.ofNat (if n < 0 then (e + 1022) * 2 ^ 52 + m + Nat.pow 2 63
    else (e + 1022) * 2 ^ 52 + m) = word
  have fields :
      word.toNat = (if n < 0 then 2 ^ 63 else 0) + (e + 1023) * 2 ^ 52 + (m - 2 ^ 52) := by
    have shift : Nat.pow 2 63 = 2 ^ 63 := rfl
    rw [← bits, UInt64.toNat_ofNat', shift]
    split <;> omega
  have exponent : word.toNat / 2 ^ 52 % 2 ^ 11 = e + 1023 := by split at fields <;> omega
  have fraction : 2 ^ 52 + word.toNat % 2 ^ 52 = m := by split at fields <;> omega
  have sign : word.toNat / 2 ^ 63 = 1 ↔ n < 0 := by split at fields <;> omega
  have magnitude : ((2 ^ 52 + word.toNat % 2 ^ 52 : Nat) : Rat) *
      twoPow ((word.toNat / 2 ^ 52 % 2 ^ 11 : Nat) - 1075) = (n.natAbs : Nat) := by
    have power : ((e + 1023 : Nat) : Int) - 1075 = e - 52 := by omega
    rw [exponent, fraction, power, scale]
  rw [exact_ofBits (by omega) (by omega) magnitude]
  by_cases signed : n < 0
  · have value : n = -(n.natAbs : Int) := by omega
    rw [if_pos (sign.mpr signed), value]
    simp
  · have value : n = (n.natAbs : Int) := by omega
    rw [if_neg (mt sign.mp signed), value]
    simp
end Binary64

/-- What is no zero is none as a double. -/
theorem Numeric.isZero_of_real {x : Numeric} {y : Float} (nonzero : x.isZero = false)
    (h : x.real = .ok y) : Binary64.isZero y = false := by
  cases x with
  | int n =>
      have read : toDouble n = .ok y := h
      rw [toDouble, Binary64.ofInt?] at read
      have other : n ≠ 0 := by simpa [isZero] using nonzero
      split at read
      · rename_i z nearest
        split at nearest
        · cases nearest
        · cases nearest
          cases read
          exact Binary64.isZero_nearest other
      · cases read
  | float x =>
      cases h
      exact nonzero
  | complex => cases h

end BlockAngular
