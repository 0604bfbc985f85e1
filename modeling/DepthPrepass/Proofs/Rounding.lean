import Mathlib
import DepthPrepass.Binary32

/-!
# Rounding to single precision

A single-precision number is stored as a sign, an exponent and a mantissa, and
an operation takes its operands apart, computes with whole numbers, rounds and
packs the result. Depths are products and sums of numbers that are not negative
and far from the ends of the range. What is shown here is that such operations
stay away from the ends, so that none of them gives infinity or something that
is not a number.

* `roundWithAccuracy_eq`, `roundWithAccuracy_mul_two_pow`: rounding keeps the
  leading digits or goes up by one, and loses nothing if the others are zeros.
* `unpack_pack_normal`: packing loses nothing of a normal number.
* `Scaled`: zero, or normal with an exponent between two bounds.
* `scaled_ofInt32`, `Scaled.mul`, `Scaled.add`, `NormalIn.inverse`: conversions,
  products, sums and inverses of such numbers.
-/

namespace DepthPrepass.Binary32

open Float.Model Float.Model.UnpackedFloat

/-! ## Packing -/

/-- The leading digit that is not stored. -/
theorem toNat_one_append {w : Nat} (v : BitVec w) :
    (1#1 ++ v).toNat = 2 ^ w + v.toNat := by
  rw [BitVec.toNat_append, ← Nat.shiftLeft_add_eq_or_of_lt v.isLt]
  simp [Nat.shiftLeft_eq]

/-- The largest exponent stands for infinity and the smallest for numbers
without a leading digit. Those in between are read as they are. -/
theorem unpack_packComponents_normal (s : Sign) (e : Nat) (m : BitVec 23)
    (hlo : 1 ≤ e) (hhi : e ≤ 254) :
    UnpackedFloat.unpack .binary32
        (packComponents .binary32 s (BitVec.ofNat 8 e) m)
      = .finite s (2 ^ 23 + m.toNat) ((e : Int) - 150)
        (Nat.add_pos_left (by decide) _) := by
  have he : (BitVec.ofNat 8 e).toNat = e := by
    rw [BitVec.toNat_ofNat]
    omega
  have hinfinity : BitVec.ofNat 8 e ≠ -1#8 := by
    intro h
    have h : (BitVec.ofNat 8 e).toNat = 255 := congrArg BitVec.toNat h
    omega
  have hzero : BitVec.ofNat 8 e ≠ 0#8 := by
    intro h
    have h : (BitVec.ofNat 8 e).toNat = 0 := congrArg BitVec.toNat h
    omega
  unfold UnpackedFloat.unpack
  simp only [unpackMantissa_packComponents, unpackExponent_packComponents,
    unpackSign_packComponents, Sign.ofBitVec_toBitVec]
  rw [if_neg hinfinity, if_neg hzero]
  simp only [toNat_one_append, he]
  rfl

theorem log2_eq_23 {m : Nat} (hlo : 2 ^ 23 ≤ m) (hhi : m < 2 ^ 24) :
    m.log2 = 23 :=
  (Nat.log2_eq_iff (by omega)).2 ⟨hlo, hhi⟩

/-- Packing loses nothing of a normal number. -/
theorem unpack_pack_normal (s : Sign) {m : Nat} {e : Int} (h : 0 < m)
    (hlo : 2 ^ 23 ≤ m) (hhi : m < 2 ^ 24) (helo : -149 ≤ e) (hehi : e ≤ 104) :
    UnpackedFloat.unpack .binary32
        (UnpackedFloat.pack .binary32 (.finite s m e h))
      = .finite s m e h := by
  have hlog := log2_eq_23 hlo hhi
  have hbiased : (e + Format.binary32.exponentBias
      + Format.binary32.mantissaBitsWithoutImplicit).toNat
        = (e + 150).toNat := by
    show (e + (127 : Nat) + (23 : Nat)).toNat = (e + 150).toNat
    omega
  -- the biased exponent is not the one of infinity, and it is not zero
  have hsmall : ¬ 256 ≤ (e + 150).toNat + 1 := by omega
  have hpack : UnpackedFloat.pack .binary32 (.finite s m e h)
      = packComponents .binary32 s (BitVec.ofNat 8 (e + 150).toNat)
          (BitVec.ofNat 23 m) := by
    unfold UnpackedFloat.pack
    dsimp only
    rw [hbiased, if_neg hsmall, hlog]
    exact if_pos rfl
  -- the leading digit is dropped by packing and put back by unpacking
  have hmantissa : 2 ^ 23 + (BitVec.ofNat 23 m).toNat = m := by
    rw [BitVec.toNat_ofNat]
    omega
  rw [hpack, unpack_packComponents_normal s _ _ (by omega) (by omega)]
  congr 1
  omega

/-! ## Signs -/

/-- Whether a number that has been taken apart is not negative. What is not a
number is not among them. -/
def Nonneg : UnpackedFloat → Prop
  | .notANumber => False
  | .infinity s | .finite s _ _ _ => s = .positive
  | .zero _ => True

/-- Being at least zero is a matter of the sign, except for zero itself. -/
theorem zero_le_iff {x : Float32} : 0 ≤ x ↔ Nonneg x.toModel.unpack := by
  have hle : 0 ≤ x
      ↔ (UnpackedFloat.zero .positive).le x.toModel.unpack = true := by
    show Float32.le 0 x = true ↔ _
    unfold Float32.le
    rw [decide_eq_true_iff]
    rfl
  rw [hle]
  unfold UnpackedFloat.le Nonneg
  cases x.toModel.unpack with
  | notANumber => simp [UnpackedFloat.compare]
  | infinity s => cases s <;> simp [UnpackedFloat.compare]
  | zero s => cases s <;> simp [UnpackedFloat.compare]
  | finite s m e h => cases s <;> simp [UnpackedFloat.compare]

/-! ## Rounding -/

theorem mantissa_shiftRight (em : ExtendedMantissa) (n : Nat) :
    (em >>> n).mantissa = em.mantissa / 2 ^ n := by
  show (Nat.repeat ExtendedMantissa.shiftRightOne n em).mantissa = _
  induction n with
  | zero => exact (Nat.div_one _).symm
  | succ n ih =>
    rw [Nat.repeat, ExtendedMantissa.shiftRightOne, ih,
      Nat.div_div_eq_div_mul, Nat.pow_succ]

theorem mantissa_ofMantissaAndAccuracy (m : Nat) (accuracy : Accuracy) :
    (ExtendedMantissa.ofMantissaAndAccuracy m accuracy).mantissa = m := by
  cases accuracy with
  | exact => rfl
  | inexact ordering => cases ordering <;> rfl

theorem roundedMantissa_bounds (em : ExtendedMantissa) :
    em.mantissa ≤ em.roundedMantissa
      ∧ em.roundedMantissa ≤ em.mantissa + 1 := by
  obtain ⟨m, round, sticky⟩ := em
  cases round <;> cases sticky <;>
    simp only [ExtendedMantissa.roundedMantissa, ExtendedMantissa.accuracy,
      Accuracy.roundToNearestEven] <;>
    omega

/-- A shift by as many digits as the target exponent is higher. -/
theorem shiftToTargetExponent_eq {m k : Nat} {e : Int} (accuracy : Accuracy)
    (hk : max (m.log2 + 1 + e - 24) (-149) = e + k) :
    shiftToTargetExponent .binary32 m e accuracy
      = (ExtendedMantissa.ofMantissaAndAccuracy m accuracy >>> k, e + k) := by
  have htarget : Format.binary32.targetExponent (totalExponent m e) = e + k :=
    hk
  have hshift : (e + (k : Int) - e).toNat = k := by omega
  unfold shiftToTargetExponent shiftToExponent
  dsimp only
  rw [htarget, hshift]

/-- A mantissa that has been rounded needs no shift, or one if rounding has
given it one digit more. That digit is a zero. -/
theorem shiftToTargetExponent_rounded {m : Nat} {e : Int}
    (hlo : 2 ^ 23 ≤ m) (hhi : m ≤ 2 ^ 24) (he : -149 ≤ e) :
    ∃ k em, shiftToTargetExponent .binary32 m e .exact = (em, e + (k : Nat))
      ∧ k ≤ 1 ∧ 2 ^ 23 ≤ em.mantissa ∧ em.mantissa < 2 ^ 24
      ∧ em.mantissa * 2 ^ k = m := by
  rcases Nat.lt_or_eq_of_le hhi with hlt | rfl
  · have hlog := log2_eq_23 hlo hlt
    refine ⟨0, _, shiftToTargetExponent_eq .exact (by omega),
      Nat.zero_le 1, ?_⟩
    rw [mantissa_shiftRight, mantissa_ofMantissaAndAccuracy, Nat.pow_zero,
      Nat.div_one, Nat.mul_one]
    exact ⟨hlo, hlt, rfl⟩
  · have hlog : (2 ^ 24).log2 = 24 := Nat.log2_two_pow
    refine ⟨1, _, shiftToTargetExponent_eq .exact (by omega), Nat.le_refl 1, ?_⟩
    rw [mantissa_shiftRight, mantissa_ofMantissaAndAccuracy]
    decide

/-- A positive normal number, taken apart, with an exponent between two
bounds. -/
inductive NormalIn (lo hi : Int) : UnpackedFloat → Prop
  | intro {m : Nat} {e : Int} (h : 0 < m) (hmlo : 2 ^ 23 ≤ m) (hmhi : m < 2 ^ 24)
    (helo : lo ≤ e) (hehi : e ≤ hi) : NormalIn lo hi (.finite .positive m e h)

/-- **Rounding** a mantissa of `k` digits too many takes these digits away and
goes up by one or not at all. If it goes up to a power of two, there is one digit
more to take away, which is a zero. -/
theorem roundWithAccuracy_eq {m k : Nat} {e : Int} (accuracy : Accuracy)
    (hlo : 2 ^ (23 + k) ≤ m) (hhi : m < 2 ^ (24 + k)) (he : -149 ≤ e + k) :
    ∃ (n j : Nat) (h : 0 < n),
      roundWithAccuracy .binary32 .positive m e accuracy
          = .finite .positive n (e + k + j) h
        ∧ j ≤ 1 ∧ 2 ^ 23 ≤ n ∧ n < 2 ^ 24
        ∧ m / 2 ^ k ≤ n * 2 ^ j ∧ n * 2 ^ j ≤ m / 2 ^ k + 1 := by
  have hpos : 0 < m := Nat.lt_of_lt_of_le (Nat.two_pow_pos _) hlo
  have hlog : m.log2 = 23 + k :=
    (Nat.log2_eq_iff hpos.ne').2 ⟨hlo, by rwa [Nat.add_right_comm]⟩
  -- the first shift takes the `k` digits away and rounds what is left
  have hfirst := shiftToTargetExponent_eq (m := m) (e := e) (k := k) accuracy
    (by omega)
  have hmantissa :
      (ExtendedMantissa.ofMantissaAndAccuracy m accuracy >>> k).mantissa
        = m / 2 ^ k := by
    rw [mantissa_shiftRight, mantissa_ofMantissaAndAccuracy]
  have hdivlo : 2 ^ 23 ≤ m / 2 ^ k := by
    rw [Nat.le_div_iff_mul_le (Nat.two_pow_pos k), ← Nat.pow_add]
    exact hlo
  have hdivhi : m / 2 ^ k < 2 ^ 24 := by
    rw [Nat.div_lt_iff_lt_mul (Nat.two_pow_pos k), ← Nat.pow_add]
    exact hhi
  obtain ⟨hrlo, hrhi⟩ := roundedMantissa_bounds
    (ExtendedMantissa.ofMantissaAndAccuracy m accuracy >>> k)
  -- the second shift is needed only if rounding carries to a new digit
  obtain ⟨j, em, hsecond, hj, hemlo, hemhi, hem⟩ :=
    shiftToTargetExponent_rounded
      (m := (ExtendedMantissa.ofMantissaAndAccuracy m accuracy
        >>> k).roundedMantissa) (e := e + k) (by omega) (by omega) he
  refine ⟨em.mantissa, j, by omega, ?_, hj, hemlo, hemhi, by omega, by omega⟩
  unfold roundWithAccuracy
  rw [hfirst]
  dsimp only
  rw [hsecond]
  dsimp only
  rw [dif_neg (by omega)]

theorem roundWithAccuracy_normal {m k : Nat} {e : Int} (accuracy : Accuracy)
    (hlo : 2 ^ (23 + k) ≤ m) (hhi : m < 2 ^ (24 + k)) (he : -149 ≤ e + k) :
    NormalIn (e + k) (e + k + 1)
      (roundWithAccuracy .binary32 .positive m e accuracy) := by
  obtain ⟨n, j, h, heq, hj, hnlo, hnhi, -, -⟩ :=
    roundWithAccuracy_eq accuracy hlo hhi he
  rw [heq]
  exact .intro h hnlo hnhi (by omega) (by omega)

/-- Shifting out zeros leaves nothing to round. -/
theorem shiftRight_mul_two_pow (m k : Nat) :
    (⟨m * 2 ^ k, false, false⟩ : ExtendedMantissa) >>> k
      = ⟨m, false, false⟩ := by
  show Nat.repeat ExtendedMantissa.shiftRightOne k _ = _
  induction k generalizing m with
  | zero => rw [Nat.pow_zero, Nat.mul_one]; rfl
  | succ k ih =>
    rw [Nat.repeat, Nat.pow_succ', ← Nat.mul_assoc, ih,
      ExtendedMantissa.shiftRightOne, Nat.mul_div_cancel _ Nat.zero_lt_two,
      Nat.mul_mod_left]
    rfl

/-- **Rounding** a mantissa with some zeros at the end takes the zeros away and
nothing else. -/
theorem roundWithAccuracy_mul_two_pow (s : Sign) {m k : Nat} {e : Int}
    (h : 0 < m) (hlo : 2 ^ 23 ≤ m) (hhi : m < 2 ^ 24) (he : -149 ≤ e + k) :
    roundWithAccuracy .binary32 s (m * 2 ^ k) e .exact
      = .finite s m (e + k) h := by
  have hlog : (m * 2 ^ k).log2 = 23 + k := by
    refine (Nat.log2_eq_iff (Nat.mul_pos h (Nat.two_pow_pos k)).ne').2 ⟨?_, ?_⟩
    · rw [Nat.pow_add]
      exact Nat.mul_le_mul_right _ hlo
    · rw [Nat.add_right_comm, Nat.pow_add]
      exact Nat.mul_lt_mul_of_pos_right hhi (Nat.two_pow_pos k)
  -- the first shift takes zeros away, so nothing is rounded
  have hfirst : shiftToTargetExponent .binary32 (m * 2 ^ k) e .exact
      = (⟨m, false, false⟩, e + k) := by
    rw [shiftToTargetExponent_eq (k := k) .exact (by omega)]
    exact congrArg (·, e + (k : Int)) (shiftRight_mul_two_pow m k)
  have hlog' := log2_eq_23 hlo hhi
  have hsecond : shiftToTargetExponent .binary32 m (e + k) .exact
      = (⟨m, false, false⟩, e + k) := by
    rw [shiftToTargetExponent_eq (k := 0) .exact (by omega)]
    exact congrArg (_, ·) (Int.add_zero _)
  have hrounded : (⟨m, false, false⟩ : ExtendedMantissa).roundedMantissa = m :=
    rfl
  unfold roundWithAccuracy
  simp only [hfirst, hrounded, hsecond]
  rw [dif_neg h.ne']

/-- A mantissa that fits is kept. -/
theorem roundWithAccuracy_exact {m : Nat} {e : Int} (h : 0 < m)
    (hlo : 2 ^ 23 ≤ m) (hhi : m < 2 ^ 24) (he : -149 ≤ e) :
    roundWithAccuracy .binary32 .positive m e .exact
      = .finite .positive m e h := by
  have hround := roundWithAccuracy_mul_two_pow .positive (k := 0) h hlo hhi
    (by omega : -149 ≤ e + (0 : Nat))
  rw [Nat.pow_zero, Nat.mul_one] at hround
  rw [hround]
  congr 1
  exact Int.add_zero e

/-! ## Sums and whole numbers -/

/-- A mantissa of any length is first moved up as far as there is room. -/
theorem round_eq {n : Nat} {e : Int} (he : -126 ≤ n.log2 + e) :
    UnpackedFloat.round .binary32 .positive n e
      = roundWithAccuracy .binary32 .positive (n <<< (23 - n.log2))
          (e - (23 - n.log2 : Nat)) .exact := by
  have htarget : Format.binary32.targetExponent (totalExponent n e)
      = n.log2 + e - 23 := by
    show max (((n.log2 : Int) + 1 + e) - 24) (-149) = _
    omega
  have hshift : (e - (n.log2 + e - 23)).toNat = 23 - n.log2 := by omega
  unfold UnpackedFloat.round decreaseExponent
  dsimp only
  rw [htarget, hshift]

/-- After that it has as many digits as a mantissa, or the digits that it has too
many. -/
theorem shiftLeft_log2_bounds {n : Nat} (h : 0 < n) :
    2 ^ (23 + (n.log2 - 23)) ≤ n <<< (23 - n.log2)
      ∧ n <<< (23 - n.log2) < 2 ^ (24 + (n.log2 - 23)) := by
  have hlo : 2 ^ n.log2 ≤ n := Nat.log2_self_le h.ne'
  have hhi : n < 2 ^ (n.log2 + 1) := Nat.lt_log2_self
  have hdigits : 23 + (n.log2 - 23) = 23 - n.log2 + n.log2 := by omega
  have hdigits' : 24 + (n.log2 - 23) = 23 - n.log2 + (n.log2 + 1) := by omega
  rw [Nat.shiftLeft_eq, Nat.mul_comm, hdigits, hdigits', Nat.pow_add,
    Nat.pow_add]
  exact ⟨Nat.mul_le_mul_left _ hlo,
    Nat.mul_lt_mul_of_pos_left hhi (Nat.two_pow_pos _)⟩

/-- A number with at most as many digits as a mantissa has that many then. -/
theorem shiftLeft_bounds {n : Nat} (h : 0 < n) (hlog : n.log2 ≤ 23) :
    2 ^ 23 ≤ n <<< (23 - n.log2) ∧ n <<< (23 - n.log2) < 2 ^ 24 := by
  have hbounds := shiftLeft_log2_bounds h
  rw [Nat.sub_eq_zero_of_le hlog] at hbounds
  exact hbounds

/-- The exponent of a rounded number is what its number of digits is beyond the
digits of a mantissa. -/
theorem normalIn_round {n : Nat} {e : Int} (h : 0 < n)
    (he : -126 ≤ n.log2 + e) :
    NormalIn (n.log2 + e - 23) (n.log2 + e - 22)
      (UnpackedFloat.round .binary32 .positive n e) := by
  obtain ⟨hlo, hhi⟩ := shiftLeft_log2_bounds h
  have hround := roundWithAccuracy_normal
    (e := e - (23 - n.log2 : Nat)) .exact hlo hhi (by omega)
  rw [round_eq he]
  convert hround using 1 <;> omega

/-- A positive whole number is rounded. -/
theorem ofNat_eq_round {n : Nat} (h : 0 < n) :
    UnpackedFloat.ofNat .binary32 n
      = UnpackedFloat.round .binary32 .positive n 0 := by
  have hcompare : compare (n : Int) 0 = .gt :=
    Int.compare_eq_gt.2 (by omega)
  unfold UnpackedFloat.ofNat UnpackedFloat.ofInt UnpackedFloat.normalize
  rw [hcompare]
  rfl

/-- The number nearest to a positive whole number. The mantissa is the number
itself, moved up as far as there is room. -/
theorem ofNat_eq {n : Nat} (h : 0 < n) :
    UnpackedFloat.ofNat .binary32 n
      = roundWithAccuracy .binary32 .positive (n <<< (23 - n.log2))
          (-((23 - n.log2 : Nat) : Int)) .exact := by
  rw [ofNat_eq_round h, round_eq (by omega), Int.zero_sub]

theorem normalIn_ofNat {n : Nat} (h : 0 < n) :
    NormalIn (n.log2 - 23) (n.log2 - 22)
      (UnpackedFloat.ofNat .binary32 n) := by
  have hround := normalIn_round (e := 0) h (by omega)
  rw [Int.add_zero] at hround
  rw [ofNat_eq_round h]
  exact hround

/-! ## Numbers away from the ends of the range -/

/-- Zero, or a positive normal number, taken apart, with an exponent between two
bounds. -/
inductive Scaled (lo hi : Int) : UnpackedFloat → Prop
  | zero : Scaled lo hi (.zero .positive)
  | normal {u : UnpackedFloat} (h : NormalIn lo hi u) : Scaled lo hi u

variable {lo hi lo' hi' : Int} {u v : UnpackedFloat}

theorem NormalIn.mono (h : NormalIn lo hi u) (hlo : lo' ≤ lo)
    (hhi : hi ≤ hi') : NormalIn lo' hi' u := by
  obtain ⟨hpos, hmlo, hmhi, helo, hehi⟩ := h
  exact .intro hpos hmlo hmhi (by omega) (by omega)

theorem Scaled.unpack_pack (h : Scaled lo hi u) (hlo : -149 ≤ lo)
    (hhi : hi ≤ 104) :
    UnpackedFloat.unpack .binary32 (UnpackedFloat.pack .binary32 u) = u := by
  cases h with
  | zero => rfl
  | normal h =>
    obtain ⟨hpos, hmlo, hmhi, helo, hehi⟩ := h
    exact unpack_pack_normal .positive hpos hmlo hmhi (by omega) (by omega)

/-- Scaled numbers are numbers, and they are not negative. -/
theorem Scaled.nonneg (h : Scaled lo hi u) : Nonneg u := by
  cases h with
  | zero => trivial
  | normal h =>
    obtain ⟨hpos, -, -, -, -⟩ := h
    rfl

/-! ## Arithmetic, on parts -/

/-- The digits of a product are those of its factors together, or one less. -/
theorem mul_digits {m m' : Nat} (hmlo : 2 ^ 23 ≤ m) (hmhi : m < 2 ^ 24)
    (hmlo' : 2 ^ 23 ≤ m') (hmhi' : m' < 2 ^ 24) :
    ∃ k, (23 ≤ k ∧ k ≤ 24) ∧ 2 ^ (23 + k) ≤ m * m'
      ∧ m * m' < 2 ^ (24 + k) := by
  have hlo : 2 ^ 46 ≤ m * m' := by
    calc 2 ^ 46 = 2 ^ 23 * 2 ^ 23 := rfl
      _ ≤ m * m' := Nat.mul_le_mul hmlo hmlo'
  have hhi : m * m' < 2 ^ 48 := by
    calc m * m' < 2 ^ 24 * 2 ^ 24 := Nat.mul_lt_mul'' hmhi hmhi'
      _ = 2 ^ 48 := rfl
  rcases Nat.lt_or_ge (m * m') (2 ^ 47) with hlt | hge
  · exact ⟨23, ⟨by omega, by omega⟩, hlo, hlt⟩
  · exact ⟨24, ⟨by omega, by omega⟩, hge, hhi⟩

theorem NormalIn.mul {a b c d : Int} (hu : NormalIn a b u)
    (hv : NormalIn c d v) (hlo : -149 ≤ a + c + 23) :
    NormalIn (a + c + 23) (b + d + 25) (UnpackedFloat.mul .binary32 u v) := by
  obtain @⟨m, e, hm, hmlo, hmhi, helo, hehi⟩ := hu
  obtain @⟨m', e', hm', hmlo', hmhi', helo', hehi'⟩ := hv
  obtain ⟨k, hk, hprodlo, hprodhi⟩ := mul_digits hmlo hmhi hmlo' hmhi'
  show NormalIn _ _
    (roundWithAccuracy .binary32 .positive (m * m') (e + e') .exact)
  exact (roundWithAccuracy_normal .exact hprodlo hprodhi (by omega)).mono
    (by omega) (by omega)

/-- **Products** of scaled numbers are scaled. -/
theorem Scaled.mul {a b c d : Int} (hu : Scaled a b u) (hv : Scaled c d v)
    (hlo : -149 ≤ a + c + 23) :
    Scaled (a + c + 23) (b + d + 25) (UnpackedFloat.mul .binary32 u v) := by
  cases hu with
  | zero =>
    cases hv with
    | zero => exact .zero
    | normal hv =>
      obtain ⟨hpos, -, -, -, -⟩ := hv
      exact .zero
  | normal hu =>
    cases hv with
    | zero =>
      obtain ⟨hpos, -, -, -, -⟩ := hu
      exact .zero
    | normal hv => exact .normal (hu.mul hv hlo)

/-- The quotient in a division of one has as many digits as a mantissa, or one
more. -/
theorem divCore_one {m : Nat} {e : Int} (hlog : m.log2 = 23) (he : e ≤ 102) :
    divCore .binary32 (2 ^ 23) (-23) m e
      = (2 ^ 47 / m, -47 - e, accuracyOfFraction (2 ^ 47 % m) m) := by
  -- the bound on the exponent leaves room for twenty-four digits of quotient
  have htarget : min (-23 - e) (Format.binary32.targetExponent
      (totalExponent (2 ^ 23) (-23) - totalExponent m e)) = -47 - e := by
    unfold totalExponent
    rw [Nat.log2_two_pow, hlog]
    show min (-23 - e) (max ((((23 : Nat) : Int) + 1 + -23
      - ((23 : Nat) + 1 + e)) - 24) (-149)) = _
    omega
  have hshift : (-23 - e - (-47 - e)).toNat = 24 := by omega
  have hmantissa : (2 ^ 23) <<< 24 = 2 ^ 47 := rfl
  unfold divCore
  dsimp only
  rw [htarget, hshift, hmantissa]

/-- The quotient of a power of two by a mantissa has as many digits as a
mantissa, or one more. -/
theorem div_digits {m : Nat} (hmlo : 2 ^ 23 ≤ m) (hmhi : m < 2 ^ 24) :
    ∃ k ≤ 1, 2 ^ (23 + k) ≤ 2 ^ 47 / m ∧ 2 ^ 47 / m < 2 ^ (24 + k) := by
  have hm : 0 < m := Nat.lt_of_lt_of_le (by decide) hmlo
  -- the mantissa is between two powers of two, and so is the quotient
  have hlo : 2 ^ 23 ≤ 2 ^ 47 / m := by
    rw [Nat.le_div_iff_mul_le hm]
    calc 2 ^ 23 * m ≤ 2 ^ 23 * 2 ^ 24 := Nat.mul_le_mul_left _ hmhi.le
      _ = 2 ^ 47 := rfl
  have hhi : 2 ^ 47 / m < 2 ^ 25 := by
    rw [Nat.div_lt_iff_lt_mul hm]
    calc 2 ^ 47 < 2 ^ 25 * 2 ^ 23 := by decide
      _ ≤ 2 ^ 25 * m := Nat.mul_le_mul_left _ hmlo
  rcases Nat.lt_or_ge (2 ^ 47 / m) (2 ^ 24) with hlt | hge
  · exact ⟨0, Nat.zero_le 1, hlo, hlt⟩
  · exact ⟨1, Nat.le_refl 1, hge, hhi⟩

/-- A division of one comes to rounding this quotient. -/
theorem div_one_eq {m : Nat} {e : Int} (hm : 0 < m) (h : 0 < 2 ^ 23)
    (hlog : m.log2 = 23) (he : e ≤ 102) :
    UnpackedFloat.div .binary32 (.finite .positive (2 ^ 23) (-23) h)
        (.finite .positive m e hm)
      = roundWithAccuracy .binary32 .positive (2 ^ 47 / m) (-47 - e)
          (accuracyOfFraction (2 ^ 47 % m) m) := by
  unfold UnpackedFloat.div
  dsimp only
  rw [divCore_one hlog he]
  rfl

/-- **Inverses** of normal numbers are normal. -/
theorem NormalIn.inverse {c d : Int} (hv : NormalIn c d v) (hd : d ≤ 102)
    (h : 0 < 2 ^ 23) :
    NormalIn (-47 - d) (-45 - c) (UnpackedFloat.div .binary32
      (.finite .positive (2 ^ 23) (-23) h) v) := by
  obtain @⟨m, e, hm, hmlo, hmhi, helo, hehi⟩ := hv
  obtain ⟨k, hk, hquotlo, hquothi⟩ := div_digits hmlo hmhi
  rw [div_one_eq hm h (log2_eq_23 hmlo hmhi) (by omega)]
  exact (roundWithAccuracy_normal _ hquotlo hquothi (by omega)).mono
    (by omega) (by omega)

theorem shiftLeft_pos {m : Nat} (h : 0 < m) (d : Nat) : 0 < m <<< d := by
  rw [Nat.shiftLeft_eq]
  exact Nat.mul_pos h (Nat.two_pow_pos d)

/-- The sum of two positive numbers is rounded from the lower exponent. -/
theorem add_eq_round {m m' : Nat} {e e' : Int} (h : 0 < m) (h' : 0 < m') :
    UnpackedFloat.add .binary32 (.finite .positive m e h)
        (.finite .positive m' e' h')
      = UnpackedFloat.round .binary32 .positive
          (m <<< (e - min e e').toNat + m' <<< (e' - min e e').toNat)
          (min e e') := by
  have hcompare : compare ((m <<< (e - min e e').toNat
      + m' <<< (e' - min e e').toNat : Nat) : Int) 0 = .gt :=
    Int.compare_eq_gt.2
      (Int.natCast_pos.2 (Nat.add_pos_left (shiftLeft_pos h _) _))
  show UnpackedFloat.normalize .binary32
    ((m <<< (e - min e e').toNat : Nat) + (m' <<< (e' - min e e').toNat : Nat))
    (min e e') .positive = _
  rw [← Int.natCast_add]
  unfold UnpackedFloat.normalize
  rw [hcompare]
  rfl

/-- The sum of two mantissas has a digit more than the one that has been moved up
farther, or as many. -/
theorem log2_add_shiftLeft {m m' : Nat} (hmlo : 2 ^ 23 ≤ m) (hmhi : m < 2 ^ 24)
    (hmlo' : 2 ^ 23 ≤ m') (hmhi' : m' < 2 ^ 24) (d d' : Nat) :
    23 + max d d' ≤ (m <<< d + m' <<< d').log2
      ∧ (m <<< d + m' <<< d').log2 ≤ 24 + max d d' := by
  -- each summand is bounded by powers of two on both sides
  have hlo {m d : Nat} (hm : 2 ^ 23 ≤ m) : 2 ^ (23 + d) ≤ m <<< d := by
    rw [Nat.shiftLeft_eq, Nat.pow_add]
    exact Nat.mul_le_mul_right _ hm
  have hhi {m d k : Nat} (hm : m < 2 ^ 24) (hd : d ≤ k) :
      m <<< d < 2 ^ (24 + k) := by
    rw [Nat.shiftLeft_eq, Nat.pow_add]
    calc m * 2 ^ d < 2 ^ 24 * 2 ^ d :=
          Nat.mul_lt_mul_of_pos_right hm (Nat.two_pow_pos d)
      _ ≤ 2 ^ 24 * 2 ^ k :=
          Nat.mul_le_mul_left _ (Nat.pow_le_pow_right Nat.zero_lt_two hd)
  have hne : m <<< d + m' <<< d' ≠ 0 :=
    (Nat.add_pos_left (shiftLeft_pos (by omega) d) _).ne'
  constructor
  · rw [Nat.le_log2 hne]
    -- the one that is moved farther is enough for the lower bound
    rcases Nat.le_total d d' with hd | hd
    · rw [Nat.max_eq_right hd]
      exact (hlo hmlo').trans (Nat.le_add_left ..)
    · rw [Nat.max_eq_left hd]
      exact (hlo hmlo).trans (Nat.le_add_right ..)
  · refine Nat.lt_succ_iff.1 ((Nat.log2_lt hne).2 ?_)
    -- both together are at most twice the bound of that one
    calc m <<< d + m' <<< d'
        < 2 ^ (24 + max d d') + 2 ^ (24 + max d d') :=
          Nat.add_lt_add (hhi hmhi (Nat.le_max_left d d'))
            (hhi hmhi' (Nat.le_max_right d d'))
      _ = 2 ^ (24 + max d d' + 1) := by rw [Nat.pow_succ, Nat.mul_two]

/-- **Sums** of normal numbers are normal. -/
theorem NormalIn.add (hu : NormalIn lo hi u) (hv : NormalIn lo hi v)
    (hlo : -149 ≤ lo) :
    NormalIn lo (hi + 2) (UnpackedFloat.add .binary32 u v) := by
  obtain @⟨m, e, hm, hmlo, hmhi, helo, hehi⟩ := hu
  obtain @⟨m', e', hm', hmlo', hmhi', helo', hehi'⟩ := hv
  have hlog := log2_add_shiftLeft hmlo hmhi hmlo' hmhi' (e - min e e').toNat
    (e' - min e e').toNat
  rw [add_eq_round]
  exact (normalIn_round (Nat.add_pos_left (shiftLeft_pos hm _) _)
    (by omega)).mono (by omega) (by omega)

theorem Scaled.mono (h : Scaled lo hi u) (hlo : lo' ≤ lo) (hhi : hi ≤ hi') :
    Scaled lo' hi' u := by
  cases h with
  | zero => exact .zero
  | normal h => exact .normal (h.mono hlo hhi)

/-- **Sums** of scaled numbers are scaled. -/
theorem Scaled.add (hu : Scaled lo hi u) (hv : Scaled lo hi v)
    (hlo : -149 ≤ lo) :
    Scaled lo (hi + 2) (UnpackedFloat.add .binary32 u v) := by
  cases hu with
  | zero =>
    cases hv with
    | zero => exact .zero
    | normal hv =>
      obtain ⟨hpos, hmlo, hmhi, helo, hehi⟩ := hv
      exact .normal (.intro hpos hmlo hmhi helo (by omega))
  | normal hu =>
    cases hv with
    | zero =>
      obtain ⟨hpos, hmlo, hmhi, helo, hehi⟩ := hu
      exact .normal (.intro hpos hmlo hmhi helo (by omega))
    | normal hv => exact .normal (hu.add hv hlo)

/-! ## Conversions and arithmetic -/

theorem unpack_ofInt32 {n : Int32} (h : 0 ≤ n) :
    (ofInt32 n).toModel.unpack
      = UnpackedFloat.unpack .binary32 (UnpackedFloat.pack .binary32
          (UnpackedFloat.ofNat .binary32 n.toNatClampNeg)) := by
  have hconvert : ofInt32 n = n.toUInt32.toFloat32 :=
    if_neg (Int32.not_lt.2 h)
  rw [hconvert, ← Int32.toNat_toUInt32_of_le h]
  rfl

theorem log2_toNatClampNeg_lt (n : Int32) : n.toNatClampNeg.log2 < 31 := by
  have hlt : n.toNatClampNeg < 2 ^ 31 := n.toNatClampNeg_lt
  rcases Nat.eq_zero_or_pos n.toNatClampNeg with h | h
  · rw [h]
    decide
  · exact (Nat.log2_lt h.ne').2 hlt

/-- The number nearest to a word that is positive. -/
theorem normalIn_ofInt32 {n : Int32} (h : 0 < n) :
    NormalIn (-23) 8 (ofInt32 n).toModel.unpack := by
  have hpos : 0 < n.toNatClampNeg := by
    have := Int32.lt_iff_toInt_lt.1 h
    rw [Int32.toInt_zero] at this
    exact Int.lt_toNat.2 this
  have hlog := log2_toNatClampNeg_lt n
  have hnormal := normalIn_ofNat hpos
  rw [unpack_ofInt32 (Int32.le_of_lt h),
    (Scaled.normal hnormal).unpack_pack (by omega) (by omega)]
  exact hnormal.mono (by omega) (by omega)

/-- The number nearest to a word that is not negative. -/
theorem scaled_ofInt32 {n : Int32} (h : 0 ≤ n) :
    Scaled (-23) 8 (ofInt32 n).toModel.unpack := by
  by_cases hn : n = 0
  · subst hn
    exact .zero
  · exact .normal (normalIn_ofInt32 (Int32.lt_of_le_of_ne h (Ne.symm hn)))

/-- The number equal to a depth. -/
theorem scaled_toFloat32 (n : UInt16) :
    Scaled (-23) (-7) n.toFloat32.toModel.unpack := by
  by_cases hn : n = 0
  · subst hn
    exact .zero
  · have hpos : 0 < n.toNat := UInt16.pos_iff_ne_zero.2 hn
    have hlog : n.toNat.log2 < 16 := (Nat.log2_lt hpos.ne').2 n.toNat_lt
    have hnormal := normalIn_ofNat hpos
    have hunpack : n.toFloat32.toModel.unpack
        = UnpackedFloat.ofNat .binary32 n.toNat :=
      (Scaled.normal hnormal).unpack_pack (by omega) (by omega)
    rw [hunpack]
    exact .normal (hnormal.mono (by omega) (by omega))

/-- Packing loses nothing of a product that is away from the ends. -/
theorem unpack_mul {a b c d : Int} {x y : Float32}
    (hx : Scaled a b x.toModel.unpack) (hy : Scaled c d y.toModel.unpack)
    (hlo : -149 ≤ a + c + 23) (hhi : b + d + 25 ≤ 104) :
    (x * y).toModel.unpack
      = UnpackedFloat.mul .binary32 x.toModel.unpack y.toModel.unpack :=
  (hx.mul hy hlo).unpack_pack hlo hhi

theorem scaled_mul {a b c d : Int} {x y : Float32}
    (hx : Scaled a b x.toModel.unpack) (hy : Scaled c d y.toModel.unpack)
    (hlo : -149 ≤ a + c + 23) (hhi : b + d + 25 ≤ 104) :
    Scaled (a + c + 23) (b + d + 25) (x * y).toModel.unpack := by
  rw [unpack_mul hx hy hlo hhi]
  exact hx.mul hy hlo

theorem unpack_one : (1 : Float32).toModel.unpack
    = .finite .positive (2 ^ 23) (-23) (by decide) := rfl

theorem unpack_inverse {c d : Int} {x : Float32}
    (hx : NormalIn c d x.toModel.unpack) (hlo : -149 ≤ c) (hhi : d ≤ 102) :
    (1 / x).toModel.unpack
      = UnpackedFloat.div .binary32 (1 : Float32).toModel.unpack
          x.toModel.unpack := by
  have hdiv := hx.inverse hhi (by decide)
  rw [unpack_one]
  exact (Scaled.normal hdiv).unpack_pack (by omega) (by omega)

theorem normalIn_inverse {c d : Int} {x : Float32}
    (hx : NormalIn c d x.toModel.unpack) (hlo : -149 ≤ c) (hhi : d ≤ 102) :
    NormalIn (-47 - d) (-45 - c) (1 / x).toModel.unpack := by
  rw [unpack_inverse hx hlo hhi, unpack_one]
  exact hx.inverse hhi (by decide)

/-- Packing loses nothing of a sum that is away from the ends. -/
theorem unpack_add {x y : Float32} (hx : Scaled lo hi x.toModel.unpack)
    (hy : Scaled lo hi y.toModel.unpack) (hlo : -149 ≤ lo) (hhi : hi ≤ 102) :
    (x + y).toModel.unpack
      = UnpackedFloat.add .binary32 x.toModel.unpack y.toModel.unpack :=
  (hx.add hy hlo).unpack_pack hlo (by omega)

theorem zero_le_of_scaled {x : Float32} (h : Scaled lo hi x.toModel.unpack) :
    0 ≤ x :=
  zero_le_iff.2 h.nonneg

end DepthPrepass.Binary32
