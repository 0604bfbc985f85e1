import DepthPrepass.Proofs.Rounding

/-!
# Single-precision numbers in units

Every single-precision number that is not negative is a whole multiple of the
smallest one. Counted in that unit, comparing two numbers is comparing two
whole numbers, and dropping what is behind the point is a division. Infinity
takes the place of the first number that is too large.

* `units`: a number in units.
* `lt_iff_units`, `le_iff_units`, `beq_iff_units`: comparisons.
* `toNat_toUInt16`: the whole part, within the range of depths.
* `units_toFloat32`: a depth as a number.
* `toFloat32_le_toFloat32_iff`: depths compared as numbers.
* `lt_toFloat32_iff`, `toUInt16_le_of_le`, `toUInt16_eq_of_beq`: a number
  compared with a depth, and its whole part compared with that depth.
-/

namespace DepthPrepass.Binary32

open Float.Model Float.Model.UnpackedFloat

/-! ## What unpacking gives -/

/-- A number that has been taken apart: its mantissa is not longer than stored
mantissas are, and it is shorter only for the smallest exponent. -/
def Canonical : UnpackedFloat → Prop
  | .finite _ m e _ =>
    m < 2 ^ 24 ∧ -149 ≤ e ∧ e ≤ 104 ∧ (2 ^ 23 ≤ m ∨ e = -149)
  | _ => True

theorem canonical_unpack (x : Float32) : Canonical x.toModel.unpack := by
  show Canonical (UnpackedFloat.unpack .binary32 x.toModel.toBits.toBitVec)
  generalize x.toModel.toBits.toBitVec = b
  have hmantissa : (@unpackMantissa .binary32 b).toNat < 2 ^ 23 :=
    BitVec.isLt _
  have hexponent : (@unpackExponent .binary32 b).toNat < 256 :=
    BitVec.isLt _
  have hbias : ((Format.binary32.exponentBias : Int)
      + Format.binary32.mantissaBitsWithoutImplicit) = 150 := rfl
  unfold UnpackedFloat.unpack
  dsimp only
  rw [hbias]
  -- three ranges: infinity, numbers without a leading digit, the others
  split
  · split <;> trivial
  · next hinfinity =>
    have hinfinity : (@unpackExponent .binary32 b).toNat ≠ 255 :=
      fun h => hinfinity (BitVec.eq_of_toNat_eq h)
    split
    · next hzero =>
      have hzero : (@unpackExponent .binary32 b).toNat = 0 :=
        congrArg BitVec.toNat hzero
      split
      · trivial
      · exact ⟨by omega, by omega, by omega, .inr (by omega)⟩
    · next hzero =>
      have hzero : (@unpackExponent .binary32 b).toNat ≠ 0 :=
        fun h => hzero (BitVec.eq_of_toNat_eq h)
      have happend : (1#1 ++ @unpackMantissa .binary32 b).toNat
          = 2 ^ 23 + (@unpackMantissa .binary32 b).toNat :=
        toNat_one_append _
      exact ⟨by omega, by omega, by omega, .inl (by omega)⟩

/-! ## Units -/

/-- A number that has been taken apart, in units of the smallest one. -/
def partUnits : UnpackedFloat → Nat
  | .finite _ m e _ => m * 2 ^ (e + 149).toNat
  | .infinity _ => 2 ^ 24 * 2 ^ 253
  | .zero _ | .notANumber => 0

/-- A number that is not negative, in units of the smallest positive one. -/
def units (x : Float32) : Nat :=
  partUnits x.toModel.unpack

/-- Of two mantissas with different exponents, the one with the larger exponent
has its leading digit, so it is the larger number. -/
theorem units_lt_of_exponent_lt {m m' : Nat} {e e' : Int} (hm : m < 2 ^ 24)
    (he : -149 ≤ e) (hm' : 2 ^ 23 ≤ m') (hlt : e < e') :
    m * 2 ^ (e + 149).toNat < m' * 2 ^ (e' + 149).toNat := by
  have hsucc : (e + 149).toNat + 1 ≤ (e' + 149).toNat := by omega
  calc m * 2 ^ (e + 149).toNat
      < 2 ^ 24 * 2 ^ (e + 149).toNat :=
        Nat.mul_lt_mul_of_pos_right hm (Nat.two_pow_pos _)
    _ = 2 ^ 23 * 2 ^ ((e + 149).toNat + 1) := by
        rw [Nat.pow_succ 2 (e + 149).toNat]
        omega
    _ ≤ m' * 2 ^ (e' + 149).toNat :=
        Nat.mul_le_mul hm' (Nat.pow_le_pow_right (by decide) hsucc)

theorem units_finite_lt_infinity {m : Nat} {e : Int} (hm : m < 2 ^ 24)
    (he : e ≤ 104) : m * 2 ^ (e + 149).toNat < 2 ^ 24 * 2 ^ 253 := by
  have hsmall : (e + 149).toNat ≤ 253 := by omega
  calc m * 2 ^ (e + 149).toNat
      < 2 ^ 24 * 2 ^ (e + 149).toNat :=
        Nat.mul_lt_mul_of_pos_right hm (Nat.two_pow_pos _)
    _ ≤ 2 ^ 24 * 2 ^ 253 :=
        Nat.mul_le_mul_left _ (Nat.pow_le_pow_right (by decide) hsmall)

/-- The exponents of positive numbers decide, and the mantissas if those are
equal. -/
theorem compare_finite {m m' : Nat} {e e' : Int} {h : 0 < m} {h' : 0 < m'}
    (hu : Canonical (.finite .positive m e h))
    (hv : Canonical (.finite .positive m' e' h')) :
    (compare e e').then (compare m m')
      = compare (m * 2 ^ (e + 149).toNat) (m' * 2 ^ (e' + 149).toNat) := by
  obtain ⟨hm, he, -, hlead⟩ := hu
  obtain ⟨hm', he', -, hlead'⟩ := hv
  -- a greater exponent outweighs the mantissa by its leading digit
  rcases Int.lt_trichotomy e e' with hlt | rfl | hgt
  · rw [Int.compare_eq_lt.2 hlt]
    have hlead' : 2 ^ 23 ≤ m' := by omega
    exact (Nat.compare_eq_lt.2 (units_lt_of_exponent_lt hm he hlead' hlt)).symm
  · have hpos : 0 < 2 ^ (e + 149).toNat := Nat.two_pow_pos _
    rw [Int.compare_eq_eq.2 rfl]
    rcases Nat.lt_trichotomy m m' with hlt | rfl | hgt
    · rw [Nat.compare_eq_lt.2 hlt,
        Nat.compare_eq_lt.2 (Nat.mul_lt_mul_of_pos_right hlt hpos)]
      rfl
    · rw [Nat.compare_eq_eq.2 rfl, Nat.compare_eq_eq.2 rfl]
      rfl
    · rw [Nat.compare_eq_gt.2 hgt,
        Nat.compare_eq_gt.2 (Nat.mul_lt_mul_of_pos_right hgt hpos)]
      rfl
  · rw [Int.compare_eq_gt.2 hgt]
    have hlead : 2 ^ 23 ≤ m := by omega
    exact (Nat.compare_eq_gt.2 (units_lt_of_exponent_lt hm' he' hlead hgt)).symm

/-- **Comparing** numbers that are not negative is comparing them in units. -/
theorem compare_eq_compare_partUnits {u v : UnpackedFloat} (hu : Canonical u)
    (hv : Canonical v) (hu' : Nonneg u) (hv' : Nonneg v) :
    u.compare v = some (compare (partUnits u) (partUnits v)) := by
  have finite_pos {m : Nat} (h : 0 < m) (k : Nat) : 0 < m * 2 ^ k :=
    Nat.mul_pos h (Nat.two_pow_pos k)
  -- infinity is given more units than any number has
  have infinity_pos : 0 < 2 ^ 24 * 2 ^ 253 := by decide
  cases u with
  | notANumber => exact hu'.elim
  | infinity s =>
    obtain rfl : s = .positive := hu'
    cases v with
    | notANumber => exact hv'.elim
    | infinity s =>
      obtain rfl : s = .positive := hv'
      exact congrArg some (Nat.compare_eq_eq.2 rfl).symm
    | zero s => exact congrArg some (Nat.compare_eq_gt.2 infinity_pos).symm
    | finite s m e h =>
      obtain ⟨hm, -, he, -⟩ := hv
      exact congrArg some
        (Nat.compare_eq_gt.2 (units_finite_lt_infinity hm he)).symm
  | zero s =>
    cases v with
    | notANumber => exact hv'.elim
    | infinity s' =>
      obtain rfl : s' = .positive := hv'
      exact congrArg some (Nat.compare_eq_lt.2 infinity_pos).symm
    | zero s' => exact congrArg some (Nat.compare_eq_eq.2 rfl).symm
    | finite s' m e h =>
      obtain rfl : s' = .positive := hv'
      exact congrArg some (Nat.compare_eq_lt.2 (finite_pos h _)).symm
  | finite s m e h =>
    obtain rfl : s = .positive := hu'
    cases v with
    | notANumber => exact hv'.elim
    | infinity s =>
      obtain rfl : s = .positive := hv'
      obtain ⟨hm, -, he, -⟩ := hu
      exact congrArg some
        (Nat.compare_eq_lt.2 (units_finite_lt_infinity hm he)).symm
    | zero s => exact congrArg some (Nat.compare_eq_gt.2 (finite_pos h _)).symm
    | finite s m' e' h' =>
      obtain rfl : s = .positive := hv'
      exact congrArg some (compare_finite hu hv)

variable {x y : Float32}

theorem compare_eq_compare_units (hx : 0 ≤ x) (hy : 0 ≤ y) :
    x.toModel.unpack.compare y.toModel.unpack
      = some (compare (units x) (units y)) :=
  compare_eq_compare_partUnits (canonical_unpack x) (canonical_unpack y)
    (zero_le_iff.1 hx) (zero_le_iff.1 hy)

theorem lt_iff_unpack_lt :
    x < y ↔ x.toModel.unpack.lt y.toModel.unpack = true := by
  show Float32.lt x y = true ↔ _
  unfold Float32.lt
  rw [decide_eq_true_iff]
  rfl

theorem lt_iff_units (hx : 0 ≤ x) (hy : 0 ≤ y) :
    x < y ↔ units x < units y := by
  rw [lt_iff_unpack_lt, UnpackedFloat.lt, compare_eq_compare_units hx hy, beq_iff_eq,
    Option.some.injEq, Nat.compare_eq_lt]

theorem le_iff_units (hx : 0 ≤ x) (hy : 0 ≤ y) :
    x ≤ y ↔ units x ≤ units y := by
  have hle : x ≤ y ↔ x.toModel.unpack.le y.toModel.unpack = true := by
    show Float32.le x y = true ↔ _
    unfold Float32.le
    rw [decide_eq_true_iff]
    rfl
  rw [hle, UnpackedFloat.le, compare_eq_compare_units hx hy, Option.any_some]
  exact Nat.isLE_compare

theorem beq_iff_units (hx : 0 ≤ x) (hy : 0 ≤ y) :
    (x == y) = true ↔ units x = units y := by
  have hbeq : (x == y) = x.toModel.unpack.beq y.toModel.unpack := rfl
  rw [hbeq, UnpackedFloat.beq, compare_eq_compare_units hx hy, beq_iff_eq,
    Option.some.injEq, Nat.compare_eq_eq]

/-! ## Whole parts -/

/-- The digits behind the point are shifted away. -/
theorem roundToInt_eq (m : Nat) {e : Int} (he : -149 ≤ e) :
    roundToInt .positive m e = (m * 2 ^ (e + 149).toNat / 2 ^ 149 : Nat) := by
  have hparts : roundToInt .positive m e
      = (m * 2 ^ e.toNat / 2 ^ (-(e - e.toNat)).toNat : Nat) := by
    unfold roundToInt decreaseExponent shiftToExponent
    dsimp only
    rw [Int.sub_zero, Int.zero_sub]
    show ((_ : Nat) : Int) = _
    rw [mantissa_shiftRight, mantissa_ofMantissaAndAccuracy, Nat.shiftLeft_eq]
  rw [hparts]
  congr 1
  -- the digits behind the point, if any, are cut off by one division
  rcases Int.le_total 0 e with hnonneg | hneg
  · have hright : (-(e - e.toNat)).toNat = 0 := by omega
    have hunits : (e + 149).toNat = e.toNat + 149 := by omega
    rw [hright, hunits, Nat.pow_add, ← Nat.mul_assoc, Nat.pow_zero,
      Nat.div_one, Nat.mul_div_cancel _ (Nat.two_pow_pos 149)]
  · have hleft : e.toNat = 0 := by omega
    have hunits : 149 = (e + 149).toNat + (-(e - e.toNat)).toNat := by omega
    have hpow : 2 ^ 149
        = 2 ^ (e + 149).toNat * 2 ^ (-(e - e.toNat)).toNat := by
      rw [← Nat.pow_add, ← hunits]
    rw [hpow, Nat.mul_comm m (2 ^ (e + 149).toNat),
      Nat.mul_div_mul_left _ _ (Nat.two_pow_pos _), hleft, Nat.pow_zero,
      Nat.mul_one]

/-- A conversion to a word drops what is behind the point, and ends where the words
end. -/
theorem min_toInt (hx : 0 ≤ x) {limit : Nat} (hlimit : limit ≤ 2 ^ 64) :
    min (x.toModel.unpack.toInt 0 limit).toNat limit
      = min (units x / 2 ^ 149) limit := by
  have hnonneg := zero_le_iff.1 hx
  have hcanonical := canonical_unpack x
  rw [units]
  generalize x.toModel.unpack = u at hnonneg hcanonical
  cases u with
  | notANumber => exact hnonneg.elim
  | infinity s =>
    obtain rfl : s = .positive := hnonneg
    -- infinity is beyond any limit also in units
    have hlarge : 2 ^ 64 ≤ partUnits (.infinity .positive) / 2 ^ 149 := by
      decide
    show min (limit : Int).toNat limit = _
    omega
  | zero s =>
    show min 0 limit = min (0 / 2 ^ 149) limit
    rw [Nat.zero_div]
  | finite s m e h =>
    obtain rfl : s = .positive := hnonneg
    obtain ⟨-, he, -, -⟩ := hcanonical
    show min (roundToInt .positive m e).toNat limit = _
    rw [roundToInt_eq m he, Int.toNat_natCast]
    rfl

theorem toNat_ofNatClamp (n : Nat) :
    (UInt16.ofNatClamp n).toNat = min n 65535 := by
  unfold UInt16.ofNatClamp
  split
  · next h =>
    have h : n < 65536 := h
    show n = min n 65535
    omega
  · next h =>
    have h : ¬ n < 65536 := h
    show 65535 = min n 65535
    omega

theorem toNat_wordOfNatClamp (n : Nat) :
    (UInt32.ofNatClamp n).toNat = min n (2 ^ 32 - 1) := by
  unfold UInt32.ofNatClamp
  split
  · next h =>
    have h : n < 2 ^ 32 := h
    show n = min n (2 ^ 32 - 1)
    omega
  · next h =>
    have h : ¬ n < 2 ^ 32 := h
    show 2 ^ 32 - 1 = min n (2 ^ 32 - 1)
    omega

/-- **The whole part** of a number, within the range of depths. -/
theorem toNat_toUInt16 (hx : 0 ≤ x) :
    x.toUInt16.toNat = min (units x / 2 ^ 149) 65535 := by
  rw [← min_toInt hx (by decide)]
  exact toNat_ofNatClamp _

/-- The whole part of a number, within the range of words. -/
theorem toNat_toUInt32 (hx : 0 ≤ x) :
    x.toUInt32.toNat = min (units x / 2 ^ 149) (2 ^ 32 - 1) := by
  rw [← min_toInt hx (by decide)]
  exact toNat_wordOfNatClamp _

/-! ## Depths -/

/-- A positive depth as a number: its digits are those of the depth. -/
theorem unpack_toFloat32 {n : UInt16} (hn : 0 < n.toNat) :
    ∃ k ≤ 23, ∃ h, n.toFloat32.toModel.unpack
      = .finite .positive (n.toNat <<< k) (-(k : Nat)) h := by
  -- sixteen digits at most, moved up until the mantissa is full
  have hlog : n.toNat.log2 < 16 := (Nat.log2_lt hn.ne').2 n.toNat_lt
  obtain ⟨hlo, hhi⟩ := shiftLeft_bounds hn (by omega)
  generalize hk : 23 - n.toNat.log2 = k at hlo hhi
  have hpos : 0 < n.toNat <<< k := Nat.lt_of_lt_of_le (by decide) hlo
  have hconvert : UnpackedFloat.ofNat .binary32 n.toNat
      = .finite .positive (n.toNat <<< k) (-(k : Nat)) hpos := by
    rw [ofNat_eq hn, hk]
    exact roundWithAccuracy_exact hpos hlo hhi (by omega)
  refine ⟨k, by omega, hpos, ?_⟩
  rw [← unpack_pack_normal .positive hpos hlo hhi (by omega) (by omega),
    ← hconvert]
  rfl

/-- A depth is converted to the number equal to it. -/
theorem units_toFloat32 (n : UInt16) :
    units n.toFloat32 = n.toNat * 2 ^ 149 := by
  by_cases hn : n = 0
  · subst hn
    rfl
  · have hpos : 0 < n.toNat := UInt16.pos_iff_ne_zero.2 hn
    obtain ⟨k, hk, h, hunpack⟩ := unpack_toFloat32 hpos
    have hexponent : (-(k : Int) + 149).toNat = 149 - k := by omega
    have hsum : 149 = k + (149 - k) := by omega
    have hpow : 2 ^ 149 = 2 ^ k * 2 ^ (149 - k) := by
      rw [← Nat.pow_add, ← hsum]
    rw [units, hunpack, partUnits, hexponent, Nat.shiftLeft_eq, hpow,
      Nat.mul_assoc]

/-- A depth is the whole part of itself. -/
theorem toUInt16_toFloat32 (n : UInt16) : n.toFloat32.toUInt16 = n := by
  have hn := n.toNat_lt
  refine UInt16.toNat_inj.1 ?_
  rw [toNat_toUInt16 (zero_le_of_scaled (scaled_toFloat32 n)),
    units_toFloat32, Nat.mul_div_cancel _ (Nat.two_pow_pos 149)]
  omega

theorem zero_le_toFloat32 (n : UInt16) : 0 ≤ n.toFloat32 :=
  zero_le_of_scaled (scaled_toFloat32 n)

/-! ### Two depths -/

theorem toFloat32_le_toFloat32_iff (m n : UInt16) :
    m.toFloat32 ≤ n.toFloat32 ↔ m.toNat ≤ n.toNat := by
  rw [le_iff_units (zero_le_toFloat32 m) (zero_le_toFloat32 n), units_toFloat32,
    units_toFloat32, Nat.mul_le_mul_right_iff (Nat.two_pow_pos 149)]

theorem toFloat32_lt_toFloat32_iff (m n : UInt16) :
    m.toFloat32 < n.toFloat32 ↔ m.toNat < n.toNat := by
  rw [lt_iff_units (zero_le_toFloat32 m) (zero_le_toFloat32 n), units_toFloat32,
    units_toFloat32, Nat.mul_lt_mul_right (Nat.two_pow_pos 149)]

theorem toFloat32_beq_toFloat32 (m n : UInt16) :
    (m.toFloat32 == n.toFloat32) = decide (m.toNat = n.toNat) := by
  rw [Bool.eq_iff_iff, beq_iff_units (zero_le_toFloat32 m) (zero_le_toFloat32 n),
    units_toFloat32, units_toFloat32, Nat.mul_left_inj (Nat.two_pow_pos 149).ne',
    decide_eq_true_iff]

/-! ### A number and a depth -/

/-- **A depth exceeds a number** exactly if it exceeds the whole part of it. -/
theorem lt_toFloat32_iff (hx : 0 ≤ x) (n : UInt16) :
    x < n.toFloat32 ↔ x.toUInt16 < n := by
  have hn := n.toNat_lt
  rw [lt_iff_units hx (zero_le_toFloat32 n), units_toFloat32,
    UInt16.lt_iff_toNat_lt, toNat_toUInt16 hx,
    ← Nat.div_lt_iff_lt_mul (Nat.two_pow_pos 149)]
  omega

/-- A number that a depth is at least as large as has no larger whole part. -/
theorem toUInt16_le_of_le (hx : 0 ≤ x) {n : UInt16} (h : x ≤ n.toFloat32) :
    x.toUInt16 ≤ n := by
  rw [le_iff_units hx (zero_le_toFloat32 n), units_toFloat32] at h
  have hwhole : units x / 2 ^ 149 ≤ n.toNat := by
    calc units x / 2 ^ 149 ≤ n.toNat * 2 ^ 149 / 2 ^ 149 :=
          Nat.div_le_div_right h
      _ = n.toNat := Nat.mul_div_cancel _ (Nat.two_pow_pos 149)
  rw [UInt16.le_iff_toNat_le, toNat_toUInt16 hx]
  omega

/-- A number that is equal to a depth has it as whole part. -/
theorem toUInt16_eq_of_beq (hx : 0 ≤ x) {n : UInt16}
    (h : (x == n.toFloat32) = true) : x.toUInt16 = n := by
  have hn := n.toNat_lt
  rw [beq_iff_units hx (zero_le_toFloat32 n), units_toFloat32] at h
  refine UInt16.toNat_inj.1 ?_
  rw [toNat_toUInt16 hx, h, Nat.mul_div_cancel _ (Nat.two_pow_pos 149)]
  omega

theorem toFloat32_le_iff (hx : 0 ≤ x) (n : UInt16) :
    n.toFloat32 ≤ x ↔ ¬ x < n.toFloat32 := by
  rw [le_iff_units (zero_le_toFloat32 n) hx,
    lt_iff_units hx (zero_le_toFloat32 n), Nat.not_lt]

theorem toFloat32_lt_iff (hx : 0 ≤ x) (n : UInt16) :
    n.toFloat32 < x ↔ ¬ x ≤ n.toFloat32 := by
  rw [lt_iff_units (zero_le_toFloat32 n) hx,
    le_iff_units hx (zero_le_toFloat32 n), Nat.not_le]

theorem le_of_lt (hx : 0 ≤ x) (hy : 0 ≤ y) (h : x < y) : x ≤ y :=
  (le_iff_units hx hy).2 (Nat.le_of_lt ((lt_iff_units hx hy).1 h))

end DepthPrepass.Binary32
