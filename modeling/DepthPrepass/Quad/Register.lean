/-!
# 128-bit registers

A register holds 128 bits, read as four 32-bit words or two 64-bit words, the
lowest first. The operations here rearrange words, or multiply some of them;
each is described by the words of its result.

* `word_ofWords`: a register put together from words has those words.
-/

namespace DepthPrepass

/-- The bits of a register. -/
abbrev Register := BitVec 128

namespace Register

/-- Put a register together from its words, the lowest first. -/
def ofWords (w₀ w₁ w₂ w₃ : BitVec 32) : Register :=
  w₃ ++ w₂ ++ w₁ ++ w₀

/-- Put a register together from its halves, the lower first. -/
def ofHalves (low high : BitVec 64) : Register :=
  high ++ low

/-- Word `i` of a register. -/
def word (r : Register) (i : Nat) : BitVec 32 :=
  r.extractLsb' (32 * i) 32

theorem word_ofWords (w₀ w₁ w₂ w₃ : BitVec 32) (i : Fin 4) :
    (ofWords w₀ w₁ w₂ w₃).word i = match i with
      | 0 => w₀
      | 1 => w₁
      | 2 => w₂
      | 3 => w₃ := by
  apply BitVec.eq_of_getLsbD_eq
  intro j hj
  simp only [word, ofWords, BitVec.getLsbD_extractLsb',
    BitVec.getLsbD_append]
  match i with
  | 0 | 1 | 2 | 3 => grind

/-- The lower half of a register. -/
def lowHalf (r : Register) : BitVec 64 :=
  r.extractLsb' 0 64

/-- Choose a word of `r` for each place: bits `2i` and `2i + 1` of the
control say which one comes to place `i`. -/
def shuffleWords (r : Register) (control : BitVec 8) : Register :=
  let choose (i : Nat) := r.word (control.extractLsb' (2 * i) 2).toNat
  ofWords (choose 0) (choose 1) (choose 2) (choose 3)

/-- The full unsigned products of words 0 and of words 2. -/
def mulEvenWords (r s : Register) : Register :=
  let product (i : Nat) :=
    (r.word i).setWidth 64 * (s.word i).setWidth 64
  ofHalves (product 0) (product 2)

/-- The lower words of two registers, in turn. -/
def interleaveLowWords (r s : Register) : Register :=
  ofWords (r.word 0) (s.word 0) (r.word 1) (s.word 1)

/-- The higher words of two registers, in turn. -/
def interleaveHighWords (r s : Register) : Register :=
  ofWords (r.word 2) (s.word 2) (r.word 3) (s.word 3)

/-- The lower halves of two registers. -/
def joinLowHalves (r s : Register) : Register :=
  ofHalves r.lowHalf s.lowHalf

/-- The products of the four words, each without its higher half. There is
only a product of even words, so the odd ones are moved to even places for a
second one, and the lower halves of the four results are put back in order. -/
def mulWords (r s : Register) : Register :=
  let oddToEven : BitVec 8 := 0xF5
  let even := mulEvenWords r s
  let odd := mulEvenWords (shuffleWords r oddToEven) (shuffleWords s oddToEven)
  joinLowHalves (interleaveLowWords even odd) (interleaveHighWords even odd)

end Register

end DepthPrepass
