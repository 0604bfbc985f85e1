import DepthPrepass.Proofs.Units

/-!
# How far rounding goes

A rounded number and the exact one are between the same two neighbours, so
neither exceeds the other by more than a factor `1 + 2 ^ -23`. Such factors
multiply in products and stay the same in sums. The error of an expression is
therefore known from how many roundings are on top of each other in it, as long
as none of its parts comes near the ends of the range.

* `Near`: two numbers that differ by at most so many roundings.
* `near_round`, `Scaled.near_mul`, `NormalIn.near_inverse`, `Scaled.near_add`: one
  operation, on parts.
* `Computes`: a computed number that is near an exact one and away from the
  ends.
* `Computes.mul`, `Computes.inverse`, `Computes.add`: the error of an expression.
* `Computes.toNat_toUInt16`: the whole part leaves the bounds of the exact number
  by one at most.
-/

namespace DepthPrepass.Binary32

open Float.Model Float.Model.UnpackedFloat

/-! ## Nearness -/

/-- The largest factor between a number and the number that it is rounded to. -/
def slack : ℚ := 1 + 1 / 2 ^ 23

theorem slack_pos : 0 < slack := by
  unfold slack
  positivity

theorem one_le_slack_pow (n : Nat) : 1 ≤ slack ^ n :=
  one_le_pow₀ (by unfold slack; norm_num)

/-- Of the exact number `p` and the computed one `q`, none is negative, and none
is larger than the other by more than `n` roundings. -/
structure Near (n : Nat) (p q : ℚ) : Prop where
  nonneg : 0 ≤ p
  le : q ≤ p * slack ^ n
  ge : p ≤ q * slack ^ n

namespace Near

variable {m n : Nat} {p q r p' q' : ℚ}

theorem nonneg_right (h : Near n p q) : 0 ≤ q :=
  nonneg_of_mul_nonneg_left (h.nonneg.trans h.ge) (pow_pos slack_pos n)

theorem refl (n : Nat) (hp : 0 ≤ p) : Near n p p :=
  ⟨hp, le_mul_of_one_le_right hp (one_le_slack_pow n),
    le_mul_of_one_le_right hp (one_le_slack_pow n)⟩

theorem trans (h : Near m p q) (h' : Near n q r) : Near (m + n) p r := by
  have hpos := (pow_pos slack_pos n).le
  refine ⟨h.nonneg, ?_, ?_⟩
  · calc r ≤ q * slack ^ n := h'.le
      _ ≤ p * slack ^ m * slack ^ n := mul_le_mul_of_nonneg_right h.le hpos
      _ = p * slack ^ (m + n) := by ring
  · calc p ≤ q * slack ^ m := h.ge
      _ ≤ r * slack ^ n * slack ^ m :=
        mul_le_mul_of_nonneg_right h'.ge (pow_pos slack_pos m).le
      _ = r * slack ^ (m + n) := by ring

theorem mul (h : Near m p q) (h' : Near n p' q') :
    Near (m + n) (p * p') (q * q') := by
  have hpos (k : Nat) := (pow_pos slack_pos k).le
  refine ⟨mul_nonneg h.nonneg h'.nonneg, ?_, ?_⟩
  · calc q * q' ≤ p * slack ^ m * (p' * slack ^ n) :=
        mul_le_mul h.le h'.le h'.nonneg_right (mul_nonneg h.nonneg (hpos m))
      _ = p * p' * slack ^ (m + n) := by ring
  · calc p * p' ≤ q * slack ^ m * (q' * slack ^ n) :=
        mul_le_mul h.ge h'.ge h'.nonneg (mul_nonneg h.nonneg_right (hpos m))
      _ = q * q' * slack ^ (m + n) := by ring

theorem add (h : Near n p q) (h' : Near n p' q') :
    Near n (p + p') (q + q') := by
  refine ⟨Left.add_nonneg h.nonneg h'.nonneg, ?_, ?_⟩
  · rw [add_mul]
    exact add_le_add h.le h'.le
  · rw [add_mul]
    exact add_le_add h.ge h'.ge

theorem inverse (h : Near n p q) (hp : 0 < p) : Near n (1 / p) (1 / q) := by
  have hq : 0 < q :=
    (mul_pos_iff_of_pos_right (pow_pos slack_pos n)).1 (hp.trans_le h.ge)
  refine ⟨by positivity, ?_, ?_⟩
  · rw [div_mul_eq_mul_div, one_mul, div_le_div_iff₀ hq hp, one_mul, mul_comm]
    exact h.ge
  · rw [div_mul_eq_mul_div, one_mul, div_le_div_iff₀ hp hq, one_mul, mul_comm]
    exact h.le

theorem mono (h : Near m p q) (hmn : m ≤ n) : Near n p q := by
  obtain ⟨k, rfl⟩ := Nat.exists_eq_add_of_le hmn
  exact h.trans (refl k h.nonneg_right)

/-- Two numbers between neighbours that are not smaller than `2 ^ 23` units. -/
theorem of_between {unit : ℚ} {k : Nat} (hunit : 0 < unit) (hk : 2 ^ 23 ≤ k)
    (hp : k * unit ≤ p ∧ p ≤ (k + 1) * unit)
    (hq : k * unit ≤ q ∧ q ≤ (k + 1) * unit) : Near 1 p q := by
  -- next to `2 ^ 23` units one unit more is no more than the slack allows
  have hstep : (k + 1) * unit ≤ k * unit * slack := by
    have hk : (2 ^ 23 : ℚ) ≤ k := by exact_mod_cast hk
    have : (k + 1 : ℚ) ≤ k * slack := by
      unfold slack
      linarith
    calc (k + 1) * unit ≤ k * slack * unit :=
          mul_le_mul_of_nonneg_right this hunit.le
      _ = k * unit * slack := by ring
  refine ⟨le_trans (by positivity) hp.1, ?_, ?_⟩
  · rw [pow_one]
    exact (hq.2.trans hstep).trans
      (mul_le_mul_of_nonneg_right hp.1 slack_pos.le)
  · rw [pow_one]
    exact (hp.2.trans hstep).trans
      (mul_le_mul_of_nonneg_right hq.1 slack_pos.le)

end Near

/-! ## Parts as rational numbers -/

/-- A number that has been taken apart, as a rational number. What is infinite or
not a number counts as zero here. -/
def partValue : UnpackedFloat → ℚ
  | .finite _ m e _ => m * 2 ^ e
  | _ => 0

variable {lo hi : Int} {u v : UnpackedFloat}

@[simp] theorem partValue_zero (s : Sign) : partValue (.zero s) = 0 := rfl

theorem two_zpow_pos (e : Int) : (0 : ℚ) < 2 ^ e :=
  zpow_pos zero_lt_two e

/-- A mantissa that is moved up stands for a number with a higher exponent. -/
theorem shiftLeft_mul_zpow (m d : Nat) (e : Int) :
    ((m <<< d : Nat) : ℚ) * 2 ^ e = m * 2 ^ (e + d) := by
  rw [Nat.shiftLeft_eq, zpow_add₀ two_ne_zero, zpow_natCast]
  push_cast
  ring

theorem Scaled.partValue_nonneg (h : Scaled lo hi u) : 0 ≤ partValue u := by
  cases h with
  | zero => exact le_rfl
  | normal h =>
    obtain @⟨m, e, hpos, -, -, -, -⟩ := h
    exact mul_nonneg (Nat.cast_nonneg m) (two_zpow_pos e).le

/-- A number in units of the smallest one. -/
theorem Scaled.partUnits_eq (h : Scaled lo hi u) (hlo : -149 ≤ lo) :
    (partUnits u : ℚ) = partValue u * 2 ^ 149 := by
  cases h with
  | zero => simp [partUnits]
  | normal h =>
    obtain @⟨m, e, hpos, -, -, helo, -⟩ := h
    -- the shift is to the left, as no exponent is below the smallest one
    have hexponent : e + (149 : Nat) = ((e + 149).toNat : Int) := by omega
    have hpow : (2 : ℚ) ^ e * 2 ^ 149 = 2 ^ (e + 149).toNat := by
      rw [← zpow_natCast, ← zpow_natCast, ← zpow_add₀ two_ne_zero, hexponent]
    show ((m * 2 ^ (e + 149).toNat : Nat) : ℚ) = m * 2 ^ e * 2 ^ 149
    rw [mul_assoc, hpow]
    push_cast
    rfl

/-- **One rounding**: if what has been computed of a number ends before its
digits do, the rounded number is still near it. -/
theorem near_roundWithAccuracy {m k : Nat} {e : Int} (accuracy : Accuracy)
    (hlo : 2 ^ (23 + k) ≤ m) (hhi : m < 2 ^ (24 + k)) (he : -149 ≤ e + k)
    {p : ℚ} (hp : m * 2 ^ e ≤ p) (hp' : p ≤ (m + 1) * 2 ^ e) :
    Near 1 p
      (partValue (roundWithAccuracy .binary32 .positive m e accuracy)) := by
  obtain ⟨n, j, h, heq, -, -, -, hnlo, hnhi⟩ :=
    roundWithAccuracy_eq accuracy hlo hhi he
  -- the digits that are kept, `m / 2 ^ k`, are enough for `Near.of_between`
  have hdiv : 2 ^ 23 ≤ m / 2 ^ k := by
    rw [Nat.le_div_iff_mul_le (Nat.two_pow_pos k), ← Nat.pow_add]
    exact hlo
  have hunit : (2 : ℚ) ^ (e + k) = 2 ^ k * 2 ^ e := by
    rw [zpow_add₀ two_ne_zero, zpow_natCast, mul_comm]
  have hvalue : partValue (roundWithAccuracy .binary32 .positive m e accuracy)
      = (n * 2 ^ j : Nat) * 2 ^ (e + k) := by
    rw [heq]
    show (n : ℚ) * 2 ^ (e + k + j) = _
    rw [zpow_add₀ two_ne_zero, zpow_natCast]
    push_cast
    ring
  have hpos := two_zpow_pos (e + k)
  -- both numbers are between the kept digits and the next ones
  refine Near.of_between hpos hdiv ⟨?_, ?_⟩ ⟨?_, ?_⟩
  · have hle : m / 2 ^ k * 2 ^ k ≤ m := Nat.div_mul_le_self ..
    have hle : ((m / 2 ^ k : Nat) : ℚ) * 2 ^ k ≤ m := by exact_mod_cast hle
    rw [hunit, ← mul_assoc]
    exact (mul_le_mul_of_nonneg_right hle (two_zpow_pos e).le).trans hp
  · have hlt : m < (m / 2 ^ k + 1) * 2 ^ k :=
      Nat.lt_mul_of_div_lt (Nat.lt_succ_self _) (Nat.two_pow_pos k)
    have hle : (m + 1 : ℚ) ≤ ((m / 2 ^ k : Nat) + 1) * 2 ^ k := by
      exact_mod_cast hlt
    rw [hunit, ← mul_assoc]
    exact hp'.trans (mul_le_mul_of_nonneg_right hle (two_zpow_pos e).le)
  · rw [hvalue]
    exact mul_le_mul_of_nonneg_right (by exact_mod_cast hnlo) hpos.le
  · rw [hvalue]
    exact mul_le_mul_of_nonneg_right (by exact_mod_cast hnhi) hpos.le

/-- The same for a number that has been computed exactly. -/
theorem near_roundWithAccuracy_exact {m k : Nat} {e : Int}
    (hlo : 2 ^ (23 + k) ≤ m) (hhi : m < 2 ^ (24 + k)) (he : -149 ≤ e + k) :
    Near 1 (m * 2 ^ e)
      (partValue (roundWithAccuracy .binary32 .positive m e .exact)) := by
  refine near_roundWithAccuracy .exact hlo hhi he le_rfl ?_
  exact mul_le_mul_of_nonneg_right (by linarith) (two_zpow_pos e).le

theorem near_round {n : Nat} {e : Int} (h : 0 < n) (he : -126 ≤ n.log2 + e) :
    Near 1 (n * 2 ^ e)
      (partValue (UnpackedFloat.round .binary32 .positive n e)) := by
  obtain ⟨hlo, hhi⟩ := shiftLeft_log2_bounds h
  have hround := near_roundWithAccuracy_exact
    (e := e - (23 - n.log2 : Nat)) hlo hhi (by omega)
  rw [shiftLeft_mul_zpow, Int.sub_add_cancel] at hround
  rw [round_eq he]
  exact hround

/-! ## One operation, on parts -/

theorem NormalIn.near_mul {a b c d : Int} (hu : NormalIn a b u)
    (hv : NormalIn c d v) (hlo : -149 ≤ a + c + 23) :
    Near 1 (partValue u * partValue v)
      (partValue (UnpackedFloat.mul .binary32 u v)) := by
  obtain @⟨m, e, hm, hmlo, hmhi, helo, hehi⟩ := hu
  obtain @⟨m', e', hm', hmlo', hmhi', helo', hehi'⟩ := hv
  -- the exact product has all the digits that are kept and more of them
  obtain ⟨k, hk, hprodlo, hprodhi⟩ := mul_digits hmlo hmhi hmlo' hmhi'
  have hround := near_roundWithAccuracy_exact (m := m * m') (e := e + e')
    hprodlo hprodhi (by omega)
  have hvalue : partValue (.finite .positive m e hm)
      * partValue (.finite .positive m' e' hm')
        = (m * m' : Nat) * 2 ^ (e + e') := by
    show (m : ℚ) * 2 ^ e * (m' * 2 ^ e') = _
    rw [zpow_add₀ two_ne_zero]
    push_cast
    ring
  rw [hvalue]
  exact hround

/-- **A product** is rounded once. -/
theorem Scaled.near_mul {a b c d : Int} (hu : Scaled a b u)
    (hv : Scaled c d v) (hlo : -149 ≤ a + c + 23) :
    Near 1 (partValue u * partValue v)
      (partValue (UnpackedFloat.mul .binary32 u v)) := by
  cases hu with
  | zero =>
    rw [partValue_zero, zero_mul]
    cases hv with
    | zero => exact .refl 1 le_rfl
    | normal hv =>
      obtain ⟨hpos, -, -, -, -⟩ := hv
      exact .refl 1 le_rfl
  | normal hu =>
    cases hv with
    | zero =>
      rw [partValue_zero, mul_zero]
      obtain ⟨hpos, -, -, -, -⟩ := hu
      exact .refl 1 le_rfl
    | normal hv => exact hu.near_mul hv hlo

/-- **An inverse** is rounded once. -/
theorem NormalIn.near_inverse {c d : Int} (hv : NormalIn c d v) (hd : d ≤ 102)
    (h : 0 < 2 ^ 23) :
    Near 1 (1 / partValue v) (partValue (UnpackedFloat.div .binary32
      (.finite .positive (2 ^ 23) (-23) h) v)) := by
  obtain @⟨m, e, hm, hmlo, hmhi, helo, hehi⟩ := hv
  obtain ⟨k, hk, hquotlo, hquothi⟩ := div_digits hmlo hmhi
  have hpos : (0 : ℚ) < m := by exact_mod_cast hm
  have hvalue : 1 / partValue (.finite .positive m e hm)
      = 2 ^ 47 / m * 2 ^ (-47 - e) := by
    show 1 / ((m : ℚ) * 2 ^ e) = _
    rw [zpow_sub₀ two_ne_zero, zpow_neg, ← zpow_natCast]
    field_simp
    norm_num
  -- the quotient without its remainder is below the exact one, by less than one
  have hle : ((2 ^ 47 / m : Nat) : ℚ) ≤ 2 ^ 47 / m := by
    rw [le_div_iff₀ hpos]
    exact_mod_cast Nat.div_mul_le_self (2 ^ 47) m
  have hlt : (2 ^ 47 / m : ℚ) ≤ (2 ^ 47 / m : Nat) + 1 := by
    rw [div_le_iff₀ hpos]
    exact_mod_cast (Nat.lt_mul_of_div_lt (Nat.lt_succ_self _) hm).le
  rw [div_one_eq hm h (log2_eq_23 hmlo hmhi) (by omega), hvalue]
  refine near_roundWithAccuracy _ hquotlo hquothi (by omega) ?_ ?_
  · exact mul_le_mul_of_nonneg_right hle (two_zpow_pos _).le
  · exact mul_le_mul_of_nonneg_right hlt (two_zpow_pos _).le

theorem NormalIn.near_add (hu : NormalIn lo hi u) (hv : NormalIn lo hi v)
    (hlo : -149 ≤ lo) :
    Near 1 (partValue u + partValue v)
      (partValue (UnpackedFloat.add .binary32 u v)) := by
  obtain @⟨m, e, hm, hmlo, hmhi, helo, hehi⟩ := hu
  obtain @⟨m', e', hm', hmlo', hmhi', helo', hehi'⟩ := hv
  have hlog := log2_add_shiftLeft hmlo hmhi hmlo' hmhi'
    (e - min e e').toNat (e' - min e e').toNat
  have hround := near_round (e := min e e')
    (Nat.add_pos_left (shiftLeft_pos hm (e - min e e').toNat)
      (m' <<< (e' - min e e').toNat)) (by omega)
  -- both mantissas are moved up by as much as their exponents go down
  have hexponent {f : Int} (hf : min e e' ≤ f) :
      min e e' + (f - min e e').toNat = f := by omega
  have hvalue : partValue (.finite .positive m e hm)
      + partValue (.finite .positive m' e' hm')
        = ((m <<< (e - min e e').toNat + m' <<< (e' - min e e').toNat : Nat)
          : ℚ) * 2 ^ (min e e') := by
    rw [Nat.cast_add, add_mul, shiftLeft_mul_zpow, shiftLeft_mul_zpow,
      hexponent (min_le_left e e'), hexponent (min_le_right e e')]
    rfl
  rw [add_eq_round, hvalue]
  exact hround

/-- **A sum** is rounded once. -/
theorem Scaled.near_add (hu : Scaled lo hi u) (hv : Scaled lo hi v)
    (hlo : -149 ≤ lo) :
    Near 1 (partValue u + partValue v)
      (partValue (UnpackedFloat.add .binary32 u v)) := by
  have hunonneg := hu.partValue_nonneg
  have hvnonneg := hv.partValue_nonneg
  cases hu with
  | zero =>
    rw [partValue_zero, zero_add]
    cases hv with
    | zero => exact .refl 1 le_rfl
    | normal hv =>
      obtain ⟨hpos, -, -, -, -⟩ := hv
      exact .refl 1 hvnonneg
  | normal hu =>
    cases hv with
    | zero =>
      rw [partValue_zero, add_zero]
      obtain ⟨hpos, -, -, -, -⟩ := hu
      exact .refl 1 hunonneg
    | normal hv => exact hu.near_add hv hlo

theorem near_ofNat {n : Nat} (h : 0 < n) :
    Near 1 n (partValue (UnpackedFloat.ofNat .binary32 n)) := by
  have hround := near_round (e := 0) h (by omega)
  rw [zpow_zero, mul_one] at hround
  rw [ofNat_eq_round h]
  exact hround

/-! ## Expressions -/

/-- A single-precision number as a rational number. -/
def value (x : Float32) : ℚ :=
  partValue x.toModel.unpack

/-- `x` has been computed for the number `p` with at most `n` roundings on top of
each other, and it is away from the ends of the range. -/
structure Computes (n : Nat) (lo hi : Int) (p : ℚ) (x : Float32) : Prop where
  scaled : Scaled lo hi x.toModel.unpack
  near : Near n p (value x)

variable {m n : Nat} {a b c d : Int} {p q : ℚ} {x y : Float32}

namespace Computes

theorem mul (hx : Computes m a b p x) (hy : Computes n c d q y)
    (hlo : -149 ≤ a + c + 23) (hhi : b + d + 25 ≤ 104) :
    Computes (m + n + 1) (a + c + 23) (b + d + 25) (p * q) (x * y) where
  scaled := scaled_mul hx.scaled hy.scaled hlo hhi
  near := by
    have hround := hx.scaled.near_mul hy.scaled hlo
    rw [← unpack_mul hx.scaled hy.scaled hlo hhi] at hround
    exact (hx.near.mul hy.near).trans hround

theorem add (hx : Computes m lo hi p x) (hy : Computes n lo hi q y)
    (hlo : -149 ≤ lo) (hhi : hi ≤ 102) :
    Computes (max m n + 1) lo (hi + 2) (p + q) (x + y) where
  scaled := by
    rw [unpack_add hx.scaled hy.scaled hlo hhi]
    exact hx.scaled.add hy.scaled hlo
  near := by
    have hround := hx.scaled.near_add hy.scaled hlo
    rw [← unpack_add hx.scaled hy.scaled hlo hhi] at hround
    exact ((hx.near.mono (Nat.le_max_left m n)).add
      (hy.near.mono (Nat.le_max_right m n))).trans hround

/-- The inverse of a number that is not zero. -/
theorem inverse (hx : NormalIn c d x.toModel.unpack) (hnear : Near n p (value x))
    (hp : 0 < p) (hlo : -149 ≤ c) (hhi : d ≤ 102) :
    Computes (n + 1) (-47 - d) (-45 - c) (1 / p) (1 / x) where
  scaled := .normal (normalIn_inverse hx hlo hhi)
  near := by
    have hround := hx.near_inverse hhi (by decide)
    rw [← unpack_one, ← unpack_inverse hx hlo hhi] at hround
    exact (hnear.inverse hp).trans hround

theorem mono (hx : Computes n a b p x) (hlo : c ≤ a) (hhi : b ≤ d) :
    Computes n c d p x :=
  ⟨hx.scaled.mono hlo hhi, hx.near⟩

/-- A word that is not negative. -/
theorem ofInt32 {n : Int32} (h : 0 ≤ n) :
    Computes 1 (-23) 8 n.toInt (ofInt32 n) where
  scaled := scaled_ofInt32 h
  near := by
    -- zero has no leading digit, which the rounding lemma asks for
    by_cases hn : n = 0
    · subst hn
      exact .refl 1 le_rfl
    · have hpos : 0 < n := Int32.lt_of_le_of_ne h (Ne.symm hn)
      have hpos : 0 < n.toInt := Int32.lt_iff_toInt_lt.1 hpos
      have hnat : (n.toNatClampNeg : Int) = n.toInt := Int.toNat_of_nonneg hpos.le
      have hlog := log2_toNatClampNeg_lt n
      have hposNat : 0 < n.toNatClampNeg := by omega
      have hround := near_ofNat hposNat
      rw [value, unpack_ofInt32 h,
        (Scaled.normal (normalIn_ofNat hposNat)).unpack_pack (by omega)
          (by omega)]
      have hcast : ((n.toNatClampNeg : Nat) : ℚ) = n.toInt := by
        rw [← hnat]
        rfl
      rw [← hcast]
      exact hround

/-- A depth, which is converted without rounding. -/
theorem ofDepth (n : UInt16) : Computes 0 (-23) (-7) n.toNat n.toFloat32 where
  scaled := scaled_toFloat32 n
  near := by
    -- sixteen digits at most: compared in the units in which they are exact
    have hunits := (scaled_toFloat32 n).partUnits_eq (by decide)
    have hvalue : value n.toFloat32 = n.toNat := by
      have hunits' : ((units n.toFloat32 : Nat) : ℚ) = n.toNat * 2 ^ 149 := by
        rw [units_toFloat32]
        push_cast
        rfl
      exact mul_right_cancel₀ (by positivity) (hunits.symm.trans hunits')
    rw [hvalue]
    exact .refl 0 (Nat.cast_nonneg _)

/-- **The whole part** of a number that has been computed for one between two
depths, with so few roundings that they do not add up to one: it is between these
depths too, or one less than the smaller one. -/
theorem toNat_toUInt16 {near far : Nat} (hx : Computes n lo hi p x)
    (hlo : -149 ≤ lo) (hn : 65535 * (slack ^ n - 1) < 1) (hnear : near ≤ p)
    (hfar : p ≤ far) (hlimit : far ≤ 65535) :
    x.toUInt16.toNat ≤ far ∧ near ≤ x.toUInt16.toNat + 1 := by
  have hlimit' : (far : ℚ) ≤ 65535 := by exact_mod_cast hlimit
  have hone := one_le_slack_pow n
  have hslack {k : ℚ} (hk : k ≤ 65535) : k * slack ^ n < k + 1 := by
    have := mul_le_mul_of_nonneg_right hk
      (show (0 : ℚ) ≤ slack ^ n - 1 by linarith)
    linarith
  have hlt : value x < far + 1 := by
    calc value x ≤ p * slack ^ n := hx.near.le
      _ ≤ far * slack ^ n := mul_le_mul_of_nonneg_right hfar (by linarith)
      _ < far + 1 := hslack hlimit'
  have hgt : near < value x + 1 := by
    -- a value of one less would still be too small with all the slack
    by_contra hsmall
    have hle : p ≤ (near - 1) * slack ^ n :=
      hx.near.ge.trans
        (mul_le_mul_of_nonneg_right (by linarith) (by linarith))
    have := hslack (hnear.trans (hfar.trans hlimit'))
    linarith
  have hunits : (units x : ℚ) = value x * 2 ^ 149 :=
    hx.scaled.partUnits_eq hlo
  have hpos : (0 : ℚ) < 2 ^ 149 := by positivity
  have hlt : units x < (far + 1) * 2 ^ 149 := by
    have : (units x : ℚ) < (far + 1) * 2 ^ 149 := by
      rw [hunits]
      exact mul_lt_mul_of_pos_right hlt hpos
    exact_mod_cast this
  have hgt : near * 2 ^ 149 < units x + 2 ^ 149 := by
    have : (near : ℚ) * 2 ^ 149 < units x + 2 ^ 149 := by
      have := mul_lt_mul_of_pos_right hgt hpos
      linarith
    exact_mod_cast this
  rw [Binary32.toNat_toUInt16 (zero_le_of_scaled hx.scaled)]
  omega

end Computes

end DepthPrepass.Binary32
