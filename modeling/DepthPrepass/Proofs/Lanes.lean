import Mathlib.Algebra.GroupWithZero.Nat
import DepthPrepass.Triangle.Walk

/-!
# What the wide operations do in each lane

A register multiplies only two of its four words at a time, and as unsigned
numbers at that. Put together from two such products, the product of four words
is still the wrapped product in each place: the lower half of a product does not
depend on the signs, and each of the moves can be followed word by word. The
mask of the pixels that are inside comes out of a register, too: the union of
three words is negative if one of them is, and the sign bits of a register can
be read off at once.

* `Register.word_mulWords`: the product of registers, word by word.
* `Quad.lane_add`, `Quad.lane_mul`, `Quad.lane_or`: the operations on quads.
* `Quad.signMask_eq_signBits`: the sign mask, read off a register.
* `Walk.inside_iff`: a pixel is inside if none of its edge values is negative.
* `Walk.testBit_insideMask`: the bits of the mask are the lanes that are inside.
* `Walk.registers_lane_by_lane`: products and masks from registers, lane by
  lane.
-/

namespace DepthPrepass

namespace Register

/-! ## Halves and words -/

/-- A register is known by its words. -/
theorem ext_word {r s : Register} (h : ∀ i : Fin 4, r.word i = s.word i) :
    r = s := by
  have bit_word (r : Register) (n : Nat) :
      r.getLsbD n = (r.word (n / 32)).getLsbD (n % 32) := by
    rw [word, BitVec.getLsbD_extractLsb', Nat.div_add_mod,
      decide_eq_true (Nat.mod_lt n (by decide)), Bool.true_and]
  apply BitVec.eq_of_getLsbD_eq
  intro n hn
  rw [bit_word r, bit_word s, h ⟨n / 32, by omega⟩]

theorem word_or (r s : Register) (i : Nat) :
    (r ||| s).word i = r.word i ||| s.word i :=
  BitVec.extractLsb'_or

theorem word_ofHalves_zero (low high : BitVec 64) :
    (ofHalves low high).word 0 = low.setWidth 32 := by
  rw [BitVec.setWidth_eq_extractLsb' (by decide)]
  exact BitVec.extractLsb'_append_eq_of_add_le (by decide)

theorem word_ofHalves_two (low high : BitVec 64) :
    (ofHalves low high).word 2 = high.setWidth 32 := by
  rw [BitVec.setWidth_eq_extractLsb' (by decide)]
  exact BitVec.extractLsb'_append_eq_of_le (by decide)

theorem word_joinLowHalves_zero (r s : Register) :
    (joinLowHalves r s).word 0 = r.word 0 := by
  show (ofHalves r.lowHalf s.lowHalf).word 0 = r.word 0
  rw [word_ofHalves_zero, BitVec.setWidth_eq_extractLsb' (by decide)]
  exact BitVec.extractLsb'_extractLsb'_of_le (by decide)

/-- Word 1 is the higher word of the lower half. -/
theorem word_joinLowHalves_one (r s : Register) :
    (joinLowHalves r s).word 1 = r.word 1 := by
  show ((s.lowHalf ++ r.lowHalf).extractLsb' 32 32) = r.word 1
  rw [BitVec.extractLsb'_append_eq_of_add_le (by decide)]
  exact BitVec.extractLsb'_extractLsb'_of_le (by decide)

theorem word_joinLowHalves_two (r s : Register) :
    (joinLowHalves r s).word 2 = s.word 0 := by
  show (ofHalves r.lowHalf s.lowHalf).word 2 = s.word 0
  rw [word_ofHalves_two, BitVec.setWidth_eq_extractLsb' (by decide)]
  exact BitVec.extractLsb'_extractLsb'_of_le (by decide)

/-- Word 3 is the higher word of the higher half. -/
theorem word_joinLowHalves_three (r s : Register) :
    (joinLowHalves r s).word 3 = s.word 1 := by
  show ((s.lowHalf ++ r.lowHalf).extractLsb' 96 32) = s.word 1
  rw [BitVec.extractLsb'_append_eq_of_le (by decide)]
  exact BitVec.extractLsb'_extractLsb'_of_le (by decide)

/-! ## Products -/

/-- The lower word of the full product is the wrapped product. -/
theorem setWidth_mul_setWidth (a b : BitVec 32) :
    (a.setWidth 64 * b.setWidth 64).setWidth 32 = a * b := by
  rw [BitVec.setWidth_mul _ _ (by decide),
    BitVec.setWidth_setWidth_of_le _ (by decide),
    BitVec.setWidth_setWidth_of_le _ (by decide),
    BitVec.setWidth_eq, BitVec.setWidth_eq]

theorem word_mulEvenWords_zero (r s : Register) :
    (mulEvenWords r s).word 0 = r.word 0 * s.word 0 := by
  rw [← setWidth_mul_setWidth]
  exact word_ofHalves_zero ..

theorem word_mulEvenWords_two (r s : Register) :
    (mulEvenWords r s).word 2 = r.word 2 * s.word 2 := by
  rw [← setWidth_mul_setWidth]
  exact word_ofHalves_two ..

/-- The control `0xF5` brings word 1 to place 0 and word 3 to place 2. -/
theorem word_shuffleWords_odd (r : Register) :
    (shuffleWords r 0xF5).word 0 = r.word 1
      ∧ (shuffleWords r 0xF5).word 2 = r.word 3 :=
  ⟨word_ofWords _ _ _ _ 0, word_ofWords _ _ _ _ 2⟩

/-- **The product of four words**: each place of the result holds the wrapped
product of the words in that place. -/
theorem word_mulWords (r s : Register) (i : Fin 4) :
    (mulWords r s).word i = r.word i * s.word i := by
  let even := mulEvenWords r s
  let odd := mulEvenWords (shuffleWords r 0xF5) (shuffleWords s 0xF5)
  -- the odd words are moved to even places, where products are made
  have hodd₀ : odd.word 0 = r.word 1 * s.word 1 := by
    rw [word_mulEvenWords_zero, (word_shuffleWords_odd r).1,
      (word_shuffleWords_odd s).1]
  have hodd₂ : odd.word 2 = r.word 3 * s.word 3 := by
    rw [word_mulEvenWords_two, (word_shuffleWords_odd r).2,
      (word_shuffleWords_odd s).2]
  -- the low words of the products are put back into order, even and odd in turn
  match i with
  | 0 =>
    calc (mulWords r s).word 0
        = (interleaveLowWords even odd).word 0 := word_joinLowHalves_zero ..
      _ = even.word 0 := word_ofWords _ _ _ _ 0
      _ = r.word 0 * s.word 0 := word_mulEvenWords_zero ..
  | 1 =>
    calc (mulWords r s).word 1
        = (interleaveLowWords even odd).word 1 := word_joinLowHalves_one ..
      _ = odd.word 0 := word_ofWords _ _ _ _ 1
      _ = r.word 1 * s.word 1 := hodd₀
  | 2 =>
    calc (mulWords r s).word 2
        = (interleaveHighWords even odd).word 0 := word_joinLowHalves_two ..
      _ = even.word 2 := word_ofWords _ _ _ _ 0
      _ = r.word 2 * s.word 2 := word_mulEvenWords_two ..
  | 3 =>
    calc (mulWords r s).word 3
        = (interleaveHighWords even odd).word 1 := word_joinLowHalves_three ..
      _ = odd.word 2 := word_ofWords _ _ _ _ 1
      _ = r.word 3 * s.word 3 := hodd₂

/-! ## Signs -/

/-- The sign bits of the four words, in the order of the words. All other bits
are clear. -/
def signBits (r : Register) : UInt32 :=
  let signs := BitVec.ofBoolListLE
    [(r.word 0).msb, (r.word 1).msb, (r.word 2).msb, (r.word 3).msb]
  .ofBitVec (signs.setWidth 32)

theorem testBit_signBits (r : Register) (n : Nat) :
    r.signBits.toNat.testBit n = (decide (n < 4) && (r.word n).msb) := by
  show (BitVec.setWidth 32 _).toNat.testBit n = _
  rw [BitVec.testBit_toNat, BitVec.getLsbD_setWidth,
    BitVec.getLsbD_ofBoolListLE]
  match n with
  | 0 | 1 | 2 | 3 => rfl
  | n + 4 =>
    rw [decide_eq_false (by omega : ¬ n + 4 < 4), Bool.false_and]
    exact Bool.and_false _

end Register

namespace Quad

/-- Quads with the same lanes are the same. -/
theorem ext_lane {α : Type} {q r : Quad α}
    (h : ∀ i, q.lane i = r.lane i) : q = r := by
  obtain ⟨a₀, a₁, a₂, a₃⟩ := q
  obtain ⟨b₀, b₁, b₂, b₃⟩ := r
  have h₀ : a₀ = b₀ := h 0
  have h₁ : a₁ = b₁ := h 1
  have h₂ : a₂ = b₂ := h 2
  have h₃ : a₃ = b₃ := h 3
  rw [h₀, h₁, h₂, h₃]

/-! ## Quads of words -/

@[simp] theorem lane_add (q r : Quad Int32) (i : Fin 4) :
    (q + r).lane i = q.lane i + r.lane i :=
  lane_zipWith ..

@[simp] theorem lane_or (q r : Quad Int32) (i : Fin 4) :
    (q ||| r).lane i = q.lane i ||| r.lane i :=
  lane_zipWith ..

theorem word_toRegister (q : Quad Int32) (i : Fin 4) :
    q.toRegister.word i = (q.lane i).toBitVec := by
  rw [toRegister, Register.word_ofWords]
  match i with
  | 0 | 1 | 2 | 3 => rfl

theorem lane_ofRegister (r : Register) (i : Fin 4) :
    (ofRegister r).lane i = .ofBitVec (r.word i) := by
  match i with
  | 0 | 1 | 2 | 3 => rfl

/-- The product goes through registers and is still the product in each lane,
in the order of the lanes. -/
@[simp] theorem lane_mul (q r : Quad Int32) (i : Fin 4) :
    (q * r).lane i = q.lane i * r.lane i := by
  show (ofRegister (q.toRegister.mulWords r.toRegister)).lane i = _
  rw [lane_ofRegister, Register.word_mulWords, word_toRegister,
    word_toRegister]
  rfl

/-- The union in each lane is the union of all bits of the registers. -/
theorem toRegister_or (q r : Quad Int32) :
    (q ||| r).toRegister = q.toRegister ||| r.toRegister := by
  refine Register.ext_word fun i => ?_
  rw [Register.word_or, word_toRegister, word_toRegister, word_toRegister,
    lane_or, Int32.toBitVec_or]

/-! ## Signs of words -/

/-- A word is not negative if its sign bit is clear. -/
theorem zero_le_iff_msb (n : Int32) : 0 ≤ n ↔ n.toBitVec.msb = false := by
  rw [Int32.le_iff_toInt_le, Int32.toInt_zero, BitVec.msb_eq_toInt,
    Int32.toInt_toBitVec, decide_eq_false_iff_not, Int.not_lt]

/-- A word moved down by 31 places is its sign bit. -/
theorem toUInt32_shiftRight_31 (n : Int32) :
    n.toUInt32 >>> 31 = n.toBitVec.msb.toUInt32 := by
  have hshift : (n.toUInt32 >>> 31).toNat = n.toBitVec.toNat / 2 ^ 31 := by
    rw [UInt32.toNat_shiftRight, Nat.shiftRight_eq_div_pow]
    rfl
  have hlt := n.toBitVec.isLt
  rw [← UInt32.toNat_inj, hshift, BitVec.msb_eq_decide]
  -- the quotient is one or zero, as the sign bit says
  by_cases h : 2 ^ (32 - 1) ≤ n.toBitVec.toNat
  · rw [decide_eq_true h]
    show _ = 1
    omega
  · rw [decide_eq_false h]
    show _ = 0
    omega

/-- Four bits moved to their places one by one, or put there at once. -/
theorem union_shifted (b₀ b₁ b₂ b₃ : Bool) :
    b₀.toUInt32 ||| b₁.toUInt32 <<< 1 ||| b₂.toUInt32 <<< 2
        ||| b₃.toUInt32 <<< 3
      = .ofBitVec ((BitVec.ofBoolListLE [b₀, b₁, b₂, b₃]).setWidth 32) := by
  revert b₀ b₁ b₂ b₃
  decide

/-- The sign mask, put together lane by lane, is what the register of the four
words has for sign bits. -/
theorem signMask_eq_signBits (q : Quad Int32) :
    q.signMask = q.toRegister.signBits := by
  have hword₀ : q.toRegister.word 0 = _ := q.word_toRegister 0
  have hword₁ : q.toRegister.word 1 = _ := q.word_toRegister 1
  have hword₂ : q.toRegister.word 2 = _ := q.word_toRegister 2
  have hword₃ : q.toRegister.word 3 = _ := q.word_toRegister 3
  calc q.signMask
      = (q.toRegister.word 0).msb.toUInt32
          ||| (q.toRegister.word 1).msb.toUInt32 <<< 1
          ||| (q.toRegister.word 2).msb.toUInt32 <<< 2
          ||| (q.toRegister.word 3).msb.toUInt32 <<< 3 := by
        rw [hword₀, hword₁, hword₂, hword₃]
        simp only [signMask, toUInt32_shiftRight_31]
        rfl
    _ = q.toRegister.signBits := union_shifted ..

/-- The inverted sign mask has the bits of the lanes that are not negative, and
no other. -/
theorem testBit_signMask (q : Quad Int32) (n : Nat) :
    (q.signMask ^^^ 0xF).toNat.testBit n = true
      ↔ ∃ i : Fin 4, n = i ∧ 0 ≤ q.lane i := by
  have hlanes : (0xF : UInt32).toNat = 2 ^ 4 - 1 := rfl
  rw [signMask_eq_signBits, UInt32.toNat_xor, Nat.testBit_xor,
    Register.testBit_signBits, hlanes, Nat.testBit_two_pow_sub_one]
  -- within the lanes the inversion turns the sign around
  by_cases h : n < 4
  · have hword : q.toRegister.word n = _ := q.word_toRegister ⟨n, h⟩
    rw [decide_eq_true h, Bool.true_and, Bool.xor_true, hword,
      Bool.not_eq_true', ← zero_le_iff_msb]
    constructor
    · intro hlane
      exact ⟨⟨n, h⟩, rfl, hlane⟩
    · rintro ⟨i, rfl, hlane⟩
      exact hlane
  · -- beyond the lanes neither the signs nor the inversion set a bit
    rw [decide_eq_false h, Bool.false_and]
    constructor
    · nofun
    · rintro ⟨i, rfl, -⟩
      exact absurd i.isLt h

/-- The bit of a lane, looked at by itself. -/
theorem and_laneBit_ne_zero_iff (mask : UInt32) (i : Fin 4) :
    mask &&& (1 : UInt32) <<< i.val.toUInt32 ≠ 0
      ↔ mask.toNat.testBit i = true := by
  -- the shifted one is a power of two, so one bit of the mask is left at most
  have hbit : ((1 : UInt32) <<< i.val.toUInt32).toBitVec
      = BitVec.twoPow 32 i := by
    revert i
    decide
  have hne : BitVec.twoPow 32 i ≠ (0 : UInt32).toBitVec := by
    revert i
    decide
  show _ ↔ mask.toBitVec.toNat.testBit i = true
  rw [ne_eq, ← UInt32.toBitVec_inj, UInt32.toBitVec_and, hbit,
    BitVec.and_twoPow, BitVec.testBit_toNat]
  split
  · next h => exact iff_of_true hne h
  · next h => exact iff_of_false (not_not_intro rfl) h

/-! ## Quads of single-precision numbers -/

@[simp] theorem lane_addFloat (q r : Quad Float32) (i : Fin 4) :
    (q + r).lane i = q.lane i + r.lane i :=
  lane_zipWith ..

@[simp] theorem lane_mulFloat (q r : Quad Float32) (i : Fin 4) :
    (q * r).lane i = q.lane i * r.lane i :=
  lane_zipWith ..

@[simp] theorem lane_toFloat32 (q : Quad Int32) (i : Fin 4) :
    q.toFloat32.lane i = Binary32.ofInt32 (q.lane i) :=
  lane_map ..

end Quad

namespace Walk

/-! ## Masks -/

/-- A combined sign bit is clear if each of them is: a pixel is inside if none
of its edge values is negative. -/
theorem inside_iff_zero_le {w : Triple Int32} :
    inside w = true ↔ 0 ≤ w.first ∧ 0 ≤ w.second ∧ 0 ≤ w.third := by
  simp only [inside, decide_eq_true_iff, Quad.zero_le_iff_msb,
    Int32.toBitVec_or, BitVec.msb_or, Bool.or_eq_false_iff, and_assoc]

/-- The same in whole numbers. -/
theorem inside_iff {w : Triple Int32} :
    inside w = true
      ↔ 0 ≤ w.first.toInt ∧ 0 ≤ w.second.toInt ∧ 0 ≤ w.third.toInt := by
  rw [inside_iff_zero_le]
  simp only [Int32.le_iff_toInt_le, Int32.toInt_zero]

/-- **The mask of a quad**: its bits are the lanes in which the pixel is
inside. -/
theorem testBit_insideMask (e : Triple (Quad Int32)) (n : Nat) :
    (insideMask e).toNat.testBit n = true
      ↔ ∃ i : Fin 4, n = i ∧ inside (e.map (·.lane i)) = true := by
  have hlane (i : Fin 4) : 0 ≤ (e.first ||| e.second ||| e.third).lane i
      ↔ inside (e.map (·.lane i)) = true := by
    rw [Quad.lane_or, Quad.lane_or, inside, decide_eq_true_iff]
    rfl
  rw [insideMask, Quad.testBit_signMask]
  simp only [hlane]

/-- The same in the way in which a walk looks at the lanes. -/
theorem insideMask_and_ne_zero (e : Triple (Quad Int32)) (i : Fin 4) :
    insideMask e &&& (1 : UInt32) <<< i.val.toUInt32 ≠ 0
      ↔ inside (e.map (·.lane i)) = true := by
  rw [Quad.and_laneBit_ne_zero_iff, testBit_insideMask]
  constructor
  · rintro ⟨j, hj, h⟩
    rwa [Fin.ext hj]
  · intro h
    exact ⟨i, rfl, h⟩

/-- **Registers work lane by lane.** What they put together from the products of
even words holds the wrapped product in each lane, in the order of the lanes and
whatever the signs. The sign bits of the union of three registers, inverted, are
set exactly for the lanes in which none of the three words is negative; no other
bit is. Both are what quads are multiplied and masked with. -/
theorem registers_lane_by_lane (q r : Quad Int32) (e : Triple (Quad Int32)) :
    let product := Quad.ofRegister (q.toRegister.mulWords r.toRegister)
    let union :=
      e.first.toRegister ||| e.second.toRegister ||| e.third.toRegister
    let mask := Register.signBits union ^^^ 0xF
    (q * r = product
        ∧ product = q.zipWith (· * ·) r
        ∧ ∀ i, (product.lane i).toInt
          = ((q.lane i).toInt * (r.lane i).toInt).bmod (2 ^ 32))
      ∧ insideMask e = mask
      ∧ ∀ n, mask.toNat.testBit n = true
        ↔ ∃ i : Fin 4, n = i ∧ 0 ≤ e.first.lane i
          ∧ 0 ≤ e.second.lane i ∧ 0 ≤ e.third.lane i := by
  intro product union mask
  have hproduct (i : Fin 4) : product.lane i = q.lane i * r.lane i :=
    q.lane_mul r i
  -- signs of a union are the union of signs, of registers as of quads
  have hmask : insideMask e = mask := by
    rw [insideMask, Quad.signMask_eq_signBits, Quad.toRegister_or,
      Quad.toRegister_or]
  refine ⟨⟨rfl, Quad.ext_lane fun i => ?_, fun i => ?_⟩, hmask, fun n => ?_⟩
  · rw [hproduct, Quad.lane_zipWith]
  · rw [hproduct, Int32.toInt_mul]
  · rw [← hmask, testBit_insideMask]
    simp only [inside_iff_zero_le]
    rfl

end Walk

end DepthPrepass
