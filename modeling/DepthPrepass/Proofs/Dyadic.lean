import DepthPrepass.Proofs.Units

/-!
# Fractions without rounding

A whole number of at most twenty-four digits has a place in the mantissa as it
is, and dividing it by a power of two only changes the exponent. So such a
fraction is a single-precision number, and it does not matter whether it comes
from a division, from a product with the inverse, or from a larger number that is
divided by more.

* `fraction`, `unpack_fraction`: the number, and what its parts are.
* `ofInt32_eq_fraction`: whole numbers.
* `fraction_mul`, `fraction_div`, `fraction_two_pow_mul`: three ways to a fraction.
* `ofBits_toBits_fraction`: storing it and reading it again.
* `toInt_toInt32_fraction`: converting a whole number back.
-/

namespace DepthPrepass.Binary32

open Float.Model Float.Model.UnpackedFloat

/-! ## The parts of a fraction -/

/-- The mantissa of a whole number: its digits, moved up as far as there is
room. -/
def mantissa (n : Nat) : Nat :=
  n <<< (23 - n.log2)

/-- A whole number divided by `2 ^ k`, taken apart. -/
def parts (s : Sign) (n k : Nat) : UnpackedFloat :=
  if h : 0 < mantissa n then .finite s (mantissa n) (n.log2 - 23 - k) h
  else .zero .positive

variable {n k : Nat} (s : Sign)

theorem mantissa_bounds (h : 0 < n) (hn : n < 2 ^ 24) :
    2 ^ 23 ≤ mantissa n ∧ mantissa n < 2 ^ 24 := by
  have hlog : n.log2 < 24 := (Nat.log2_lt h.ne').2 hn
  exact shiftLeft_bounds h (by omega)

theorem mantissa_pos (h : 0 < n) (hn : n < 2 ^ 24) : 0 < mantissa n :=
  Nat.lt_of_lt_of_le (by decide) (mantissa_bounds h hn).1

theorem parts_of_pos (h : 0 < n) (hn : n < 2 ^ 24) :
    parts s n k
      = .finite s (mantissa n) (n.log2 - 23 - k) (mantissa_pos h hn) :=
  dif_pos (mantissa_pos h hn)

theorem parts_zero : parts s 0 k = .zero .positive := rfl

/-- A power of two has one digit. -/
theorem parts_two_pow {i : Nat} (hi : i ≤ 23) :
    ∃ h, parts s (2 ^ i) k = .finite s (2 ^ 23) (i - 23 - k) h := by
  have hlt : 2 ^ i < 2 ^ 24 := Nat.pow_lt_pow_right (by decide) (by omega)
  have hmantissa : mantissa (2 ^ i) = 2 ^ 23 := by
    have hsum : i + (23 - i) = 23 := by omega
    rw [mantissa, Nat.log2_two_pow, Nat.shiftLeft_eq, ← Nat.pow_add, hsum]
  refine ⟨by decide, ?_⟩
  rw [parts_of_pos s (Nat.two_pow_pos i) hlt]
  congr 1
  rw [Nat.log2_two_pow]

/-- Packing loses nothing of a fraction. -/
theorem unpack_pack_parts (hn : n < 2 ^ 24) (hk : k ≤ 126) :
    UnpackedFloat.unpack .binary32 (UnpackedFloat.pack .binary32 (parts s n k))
      = parts s n k := by
  rcases Nat.eq_zero_or_pos n with rfl | h
  · rw [parts_zero]
    rfl
  · have hlog : n.log2 < 24 := (Nat.log2_lt h.ne').2 hn
    obtain ⟨hlo, hhi⟩ := mantissa_bounds h hn
    rw [parts_of_pos s h hn]
    exact unpack_pack_normal s _ hlo hhi (by omega) (by omega)

theorem ofNat_eq_parts (hn : n < 2 ^ 24) :
    UnpackedFloat.ofNat .binary32 n = parts .positive n 0 := by
  rcases Nat.eq_zero_or_pos n with rfl | h
  · rfl
  · have hlog : n.log2 < 24 := (Nat.log2_lt h.ne').2 hn
    obtain ⟨hlo, hhi⟩ := mantissa_bounds h hn
    have hexponent : -((23 - n.log2 : Nat) : Int) = n.log2 - 23 - (0 : Nat) := by
      omega
    rw [parts_of_pos .positive h hn, ofNat_eq h, hexponent]
    exact roundWithAccuracy_exact (mantissa_pos h hn) hlo hhi (by omega)

/-- A product with an inverse of a power of two. -/
theorem mul_parts {j : Nat} (hn : n < 2 ^ 24) (hjk : j + k ≤ 126) :
    UnpackedFloat.mul .binary32 (parts s n j) (parts .positive 1 k)
      = parts s n (j + k) := by
  obtain ⟨hpos, hone⟩ := parts_two_pow (k := k) .positive (Nat.zero_le 23)
  have hone : parts .positive 1 k
      = .finite .positive (2 ^ 23) ((0 : Nat) - 23 - k) hpos := hone
  -- zero has no digits that could be shifted, so it is a case of its own
  rcases Nat.eq_zero_or_pos n with rfl | h
  · rw [parts_zero, parts_zero, hone]
    rfl
  · have hlog : n.log2 < 24 := (Nat.log2_lt h.ne').2 hn
    obtain ⟨hlo, hhi⟩ := mantissa_bounds h hn
    have hsign : s * .positive = s := by cases s <;> rfl
    rw [parts_of_pos s h hn, parts_of_pos s h hn, hone]
    -- the factor adds zeros behind the mantissa, which rounding takes away
    show roundWithAccuracy .binary32 (s * .positive) (mantissa n * 2 ^ 23) _
      .exact = _
    rw [hsign, roundWithAccuracy_mul_two_pow s (mantissa_pos h hn) hlo hhi
      (by omega)]
    congr 1
    omega

/-- The quotient by a power of two has one digit more than a mantissa. -/
theorem divCore_two_pow {m : Nat} {e e' : Int} (hlog : m.log2 = 23)
    (he : -149 ≤ e - e' - 24) :
    divCore .binary32 m e (2 ^ 23) e'
      = (m * 2 ^ 1, e - e' - 24, Accuracy.exact) := by
  -- division aims at an exponent twenty-four below the difference
  have htarget : min (e - e') (Format.binary32.targetExponent
      (totalExponent m e - totalExponent (2 ^ 23) e')) = e - e' - 24 := by
    unfold totalExponent
    rw [Nat.log2_two_pow, hlog]
    show min (e - e') (max ((((23 : Nat) : Int) + 1 + e
      - ((23 : Nat) + 1 + e')) - 24) (-149)) = _
    omega
  have hshift : (e - e' - (e - e' - 24)).toNat = 24 := by omega
  -- the divisor goes into the shifted mantissa without a remainder
  have hdigits : m <<< 24 = m * 2 ^ 1 * 2 ^ 23 := by
    rw [Nat.shiftLeft_eq, Nat.mul_assoc, ← Nat.pow_add]
  unfold divCore
  dsimp only
  rw [htarget, hshift, hdigits, Nat.mul_div_cancel _ (by decide),
    Nat.mul_mod_left]
  rfl

/-- A quotient by a power of two. -/
theorem div_parts {j : Nat} (hn : n < 2 ^ 24) (hk : k ≤ 23)
    (hjk : j + k ≤ 125) :
    UnpackedFloat.div .binary32 (parts s n j) (parts .positive (2 ^ k) 0)
      = parts s n (j + k) := by
  obtain ⟨hpos, hpower⟩ := parts_two_pow (k := 0) .positive hk
  rcases Nat.eq_zero_or_pos n with rfl | h
  · rw [parts_zero, parts_zero, hpower]
    rfl
  · have hlog : n.log2 < 24 := (Nat.log2_lt h.ne').2 hn
    obtain ⟨hlo, hhi⟩ := mantissa_bounds h hn
    have hsign : s / .positive = s := by cases s <;> rfl
    -- the quotient is the mantissa and one more digit, which is zero
    rw [parts_of_pos s h hn, parts_of_pos s h hn, hpower]
    unfold UnpackedFloat.div
    dsimp only
    rw [divCore_two_pow (log2_eq_23 hlo hhi) (by omega), hsign]
    dsimp only
    rw [roundWithAccuracy_mul_two_pow s (mantissa_pos h hn) hlo hhi (by omega)]
    congr 1
    omega

/-- A common factor of both numbers. -/
theorem parts_two_pow_mul {j : Nat} (hn : 2 ^ j * n < 2 ^ 24) :
    parts s (2 ^ j * n) (k + j) = parts s n k := by
  rcases Nat.eq_zero_or_pos n with rfl | h
  · rw [Nat.mul_zero, parts_zero, parts_zero]
  · have hle : n ≤ 2 ^ j * n := Nat.le_mul_of_pos_left n (Nat.two_pow_pos j)
    have hpos : 0 < 2 ^ j * n := Nat.lt_of_lt_of_le h hle
    -- the factor moves the leading digit by `j` and leaves the mantissa
    have hlog : (2 ^ j * n).log2 = j + n.log2 := by
      refine (Nat.log2_eq_iff hpos.ne').2 ⟨?_, ?_⟩
      · rw [Nat.pow_add]
        exact Nat.mul_le_mul_left _ (Nat.log2_self_le h.ne')
      · rw [Nat.add_assoc, Nat.pow_add]
        exact Nat.mul_lt_mul_of_pos_left Nat.lt_log2_self (Nat.two_pow_pos j)
    have hlt : (2 ^ j * n).log2 < 24 := (Nat.log2_lt hpos.ne').2 hn
    have hmantissa : mantissa (2 ^ j * n) = mantissa n := by
      have hsum : 23 - n.log2 = j + (23 - (j + n.log2)) := by omega
      rw [mantissa, mantissa, hlog, hsum, Nat.shiftLeft_eq, Nat.shiftLeft_eq,
        Nat.pow_add, Nat.mul_comm (2 ^ j) n, Nat.mul_assoc]
    rw [parts_of_pos s hpos hn, parts_of_pos s h (Nat.lt_of_le_of_lt hle hn)]
    congr 1
    omega

/-! ## Fractions -/

/-- The sign of a whole number. Zero is taken to be positive. -/
def signOf (n : Int) : Sign :=
  if n < 0 then .negative else .positive

theorem signOf_natCast (n : Nat) : signOf n = .positive :=
  if_neg (Int.not_lt.2 (Int.natCast_nonneg n))

/-- A whole number divided by `2 ^ k`. -/
def fraction (n : Int) (k : Nat) : Float32 :=
  .ofModel (.pack (parts (signOf n) n.natAbs k))

section Fraction

variable {n : Int} {j k : Nat}

theorem unpack_fraction (hn : n.natAbs < 2 ^ 24) (hk : k ≤ 126) :
    (fraction n k).toModel.unpack = parts (signOf n) n.natAbs k :=
  unpack_pack_parts _ hn hk

/-- **Stored and read again**, a fraction is what it was. -/
theorem ofBits_toBits_fraction (hn : n.natAbs < 2 ^ 24) (hk : k ≤ 126) :
    Float32.ofBits (fraction n k).toBits = fraction n k :=
  congrArg (fun u => Float32.ofModel (.pack u)) (unpack_fraction hn hk)

/-- **A product** with the inverse of a power of two. -/
theorem fraction_mul (hn : n.natAbs < 2 ^ 24) (hjk : j + k ≤ 126) :
    fraction n j * fraction 1 k = fraction n (j + k) := by
  have hmul : UnpackedFloat.mul .binary32 (fraction n j).toModel.unpack
      (fraction 1 k).toModel.unpack = parts (signOf n) n.natAbs (j + k) := by
    rw [unpack_fraction hn (by omega), unpack_fraction (by decide) (by omega)]
    exact mul_parts _ hn hjk
  exact congrArg (fun u => Float32.ofModel (.pack u)) hmul

/-- **A quotient** by a power of two. -/
theorem fraction_div (hn : n.natAbs < 2 ^ 24) (hk : k ≤ 23)
    (hjk : j + k ≤ 125) :
    fraction n j / fraction (2 ^ k : Nat) 0 = fraction n (j + k) := by
  have hpower : ((2 ^ k : Nat) : Int).natAbs < 2 ^ 24 :=
    Nat.pow_lt_pow_right (by decide) (by omega)
  have hdiv : UnpackedFloat.div .binary32 (fraction n j).toModel.unpack
      (fraction (2 ^ k : Nat) 0).toModel.unpack
        = parts (signOf n) n.natAbs (j + k) := by
    rw [unpack_fraction hn (by omega), unpack_fraction hpower (by omega),
      signOf_natCast]
    exact div_parts _ hn hk hjk
  exact congrArg (fun u => Float32.ofModel (.pack u)) hdiv

/-- **The same fraction** of a number that is larger by a power of two. -/
theorem fraction_two_pow_mul (hn : (2 ^ j * n).natAbs < 2 ^ 24) :
    fraction (2 ^ j * n) (k + j) = fraction n k := by
  have hpos : (0 : Int) < 2 ^ j := Int.pow_pos (by decide)
  have hneg : 2 ^ j * n < 0 ↔ n < 0 :=
    ⟨(neg_of_mul_neg_right · hpos.le), mul_neg_of_pos_of_neg hpos⟩
  have hsign : signOf (2 ^ j * n) = signOf n := if_congr hneg rfl rfl
  have habs : (2 ^ j * n).natAbs = 2 ^ j * n.natAbs := by
    rw [Int.natAbs_mul, Int.natAbs_pow]
    rfl
  rw [habs] at hn
  unfold fraction
  rw [hsign, habs, parts_two_pow_mul _ hn]

/-! ## Whole numbers -/

/-- A whole number that is not negative. -/
theorem toFloat32_eq_fraction {n : Int32} (h : 0 ≤ n) (hn : n.toInt < 2 ^ 24) :
    n.toUInt32.toFloat32 = fraction n.toInt 0 := by
  have hnonneg : 0 ≤ n.toInt := Int32.le_iff_toInt_le.1 h
  have hnat : (n.toUInt32.toNat : Int) = n.toInt := by
    rw [Int32.toNat_toUInt32_of_le h]
    exact Int.toNat_of_nonneg hnonneg
  have hparts := ofNat_eq_parts (n := n.toUInt32.toNat) (by omega)
  rw [← signOf_natCast n.toUInt32.toNat] at hparts
  rw [← hnat]
  exact congrArg (fun u => Float32.ofModel (.pack u)) hparts

/-- The opposite of a fraction. That of zero would be another zero. -/
theorem neg_fraction (h : n ≠ 0) (hn : n.natAbs < 2 ^ 24) (hk : k ≤ 126) :
    -fraction n k = fraction (-n) k := by
  have hsign : signOf (-n) = -signOf n := by
    unfold signOf
    rcases Int.lt_or_gt_of_ne h with hneg | hpos
    · rw [if_neg (by omega), if_pos hneg]
      rfl
    · rw [if_pos (by omega), if_neg (by omega)]
      rfl
  have hneg : (fraction n k).toModel.unpack.neg
      = parts (signOf (-n)) (-n).natAbs k := by
    -- only the sign differs, as the magnitude is not zero
    have hpos : 0 < n.natAbs := Int.natAbs_pos.2 h
    rw [unpack_fraction hn hk, hsign, Int.natAbs_neg, parts_of_pos _ hpos hn,
      parts_of_pos _ hpos hn]
    rfl
  exact congrArg (fun u => Float32.ofModel (.pack u)) hneg

/-- **A whole number** of at most twenty-four digits is converted to itself. -/
theorem ofInt32_eq_fraction {n : Int32} (hn : n.toInt.natAbs < 2 ^ 24) :
    ofInt32 n = fraction n.toInt 0 := by
  by_cases h : n < 0
  · -- within these bounds the magnitude does not wrap
    have hneg : n.toInt < 0 := Int32.lt_iff_toInt_lt.1 h
    have hopposite : (-n).toInt = -n.toInt := by
      rw [Int32.toInt_neg]
      exact Int.bmod_eq_of_le (by omega) (by omega)
    have hpos : 0 ≤ -n := by
      rw [Int32.le_iff_toInt_le, hopposite, Int32.toInt_zero]
      omega
    rw [ofInt32, if_pos h, toFloat32_eq_fraction hpos (by omega), hopposite,
      neg_fraction (by omega) (by omega) (by omega), Int.neg_neg]
  · have hnonneg : 0 ≤ n := Int32.not_lt.1 h
    rw [ofInt32, if_neg h, toFloat32_eq_fraction hnonneg (by omega)]

/-! ## Whole parts -/

theorem zero_le_fraction (h : 0 ≤ n) (hn : n.natAbs < 2 ^ 24) (hk : k ≤ 126) :
    0 ≤ fraction n k := by
  have hsign : signOf n = .positive := if_neg (by omega)
  rw [zero_le_iff, unpack_fraction hn hk, hsign, parts]
  split
  · rfl
  · trivial

theorem fraction_lt_zero (h : n < 0) (hn : n.natAbs < 2 ^ 24) (hk : k ≤ 126) :
    fraction n k < 0 := by
  have hsign : signOf n = .negative := if_pos h
  rw [lt_iff_unpack_lt, unpack_fraction hn hk, hsign,
    parts_of_pos _ (by omega) hn]
  rfl

/-- A whole number is as many units as it should be. -/
theorem units_fraction (hn : n.natAbs < 2 ^ 24) :
    units (fraction n 0) = n.natAbs * 2 ^ 149 := by
  rw [units, unpack_fraction hn (by omega)]
  rcases Nat.eq_zero_or_pos n.natAbs with hzero | hpos
  · rw [hzero]
    rfl
  · -- the two shifts, to the leading digit and by the exponent, are one
    have hlog : n.natAbs.log2 < 24 := (Nat.log2_lt hpos.ne').2 hn
    have hexponent : ((n.natAbs.log2 : Int) - 23 - (0 : Nat) + 149).toNat
        = 126 + n.natAbs.log2 := by omega
    have hsum : 149 = (23 - n.natAbs.log2) + (126 + n.natAbs.log2) := by omega
    have hpow : 2 ^ 149
        = 2 ^ (23 - n.natAbs.log2) * 2 ^ (126 + n.natAbs.log2) := by
      rw [← Nat.pow_add, ← hsum]
    rw [parts_of_pos _ hpos hn, partUnits, hexponent, mantissa,
      Nat.shiftLeft_eq, hpow, Nat.mul_assoc]

theorem toNat_toUInt32_fraction (h : 0 ≤ n) (hn : n.natAbs < 2 ^ 24) :
    (fraction n 0).toUInt32.toNat = n.natAbs := by
  rw [toNat_toUInt32 (zero_le_fraction h hn (by decide)), units_fraction hn,
    Nat.mul_div_cancel _ (Nat.two_pow_pos 149)]
  omega

/-- **A whole number is converted back** to itself. -/
theorem toInt_toInt32_fraction (hn : n.natAbs < 2 ^ 24) :
    (toInt32 (fraction n 0)).toInt = n := by
  -- magnitudes of so few digits are signed words
  have hmagnitude {m : Int} (h : 0 ≤ m) (hm : m.natAbs < 2 ^ 24) :
      ¬ signedLimit ≤ (fraction m 0).toUInt32
        ∧ ((fraction m 0).toUInt32.toInt32).toInt = m := by
    have htoNat := toNat_toUInt32_fraction h hm
    have hlimit : signedLimit.toNat = 2 ^ 31 := rfl
    constructor
    · rw [UInt32.le_iff_toNat_le]
      omega
    · show (fraction m 0).toUInt32.toBitVec.toInt = m
      rw [BitVec.toInt_eq_toNat_of_lt, UInt32.toNat_toBitVec, htoNat]
      · omega
      · rw [UInt32.toNat_toBitVec]
        omega
  unfold toInt32
  by_cases h : n < 0
  · obtain ⟨hlimit, hvalue⟩ :=
      hmagnitude (m := -n) (by omega) (by omega)
    rw [if_pos (fraction_lt_zero h hn (by decide)),
      neg_fraction (by omega) hn (by decide)]
    dsimp only
    rw [if_neg hlimit, Int32.toInt_neg, hvalue, Int.neg_neg]
    exact Int.bmod_eq_of_le (by omega) (by omega)
  · have hnonneg : 0 ≤ fraction n 0 :=
      zero_le_fraction (by omega) hn (by decide)
    have hlt : ¬ fraction n 0 < 0 := by
      have hzero : (0 : Float32) ≤ 0 :=
        zero_le_iff.2 (show Nonneg (.zero .positive) from trivial)
      rw [lt_iff_units hnonneg hzero]
      exact Nat.not_lt_zero _
    obtain ⟨hlimit, hvalue⟩ := hmagnitude (Int.not_lt.1 h) hn
    rw [if_neg hlt]
    dsimp only
    rw [if_neg hlimit, hvalue]

end Fraction

end DepthPrepass.Binary32
