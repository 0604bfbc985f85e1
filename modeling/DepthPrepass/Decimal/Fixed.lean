/-!
# Fixed-point decimal text

A number with a fixed number of decimal places: the exact value is scaled by a
power of ten, rounded to the nearest whole number and cut into digits. A value
that lies halfway goes to the even neighbour. A double-precision number is
written through its exact value, a quotient of whole numbers, so that there is
one rounding only.

* `roundDiv_mul_le`, `le_roundDiv_mul`: a rounded quotient is within half a
  unit of the exact one.
-/

namespace DepthPrepass.Decimal

/-- The whole number nearest to `num / den`, the even one of two. -/
def roundDiv (num den : Nat) : Nat :=
  let quotient := num / den
  let rest := 2 * (num % den)
  if rest < den then quotient
  else if den < rest then quotient + 1
  else quotient + quotient % 2

/-- The quotient stays up to half a unit of rest, and goes up from there. -/
theorem roundDiv_cases (num den : Nat) :
    (2 * (num % den) ≤ den ∧ roundDiv num den = num / den)
      ∨ (den ≤ 2 * (num % den) ∧ roundDiv num den = num / den + 1) := by
  unfold roundDiv
  dsimp only
  split
  · omega
  · split
    · omega
    · -- a tie goes up only from an odd quotient
      omega

theorem roundDiv_mul_le (num den : Nat) :
    2 * (roundDiv num den * den) ≤ 2 * num + den := by
  have h := Nat.div_add_mod' num den
  rcases roundDiv_cases num den with ⟨-, hround⟩ | ⟨hrest, hround⟩
  · rw [hround]
    omega
  · rw [hround, Nat.add_mul]
    omega

theorem le_roundDiv_mul {den : Nat} (num : Nat) (hd : 0 < den) :
    2 * num ≤ 2 * (roundDiv num den * den) + den := by
  have h := Nat.div_add_mod' num den
  have hm := Nat.mod_lt num hd
  rcases roundDiv_cases num den with ⟨hrest, hround⟩ | ⟨-, hround⟩
  · rw [hround]
    omega
  · rw [hround, Nat.add_mul]
    omega

/-- A finite double-precision number that is not negative, as numerator and
denominator. All but the smallest have a leading digit that is not stored. -/
def fraction (x : Float) : Nat × Nat :=
  let digits := (x.toBits &&& 0xfffffffffffff).toNat
  let exponent := ((x.toBits >>> 52) &&& 0x7ff).toNat
  let leading := 0x10000000000000
  if exponent = 0 then (digits, 1 <<< 1074)
  else if exponent < 1075 then (leading + digits, 1 <<< (1075 - exponent))
  else ((leading + digits) <<< (exponent - 1075), 1)

/-- Put blanks before a text up to a width. A longer text is left as it is. -/
def alignRight (width : Nat) (text : String) : String :=
  "".pushn ' ' (width - text.length) ++ text

/-- Put blanks after a text up to a width. -/
def alignLeft (width : Nat) (text : String) : String :=
  text.pushn ' ' (width - text.length)

/-- A number with leading zeros up to a width. -/
def zeroPadded (width n : Nat) : String :=
  let digits := toString n
  "".pushn '0' (width - digits.length) ++ digits

/-- The text of `num / den` with a number of decimal places. -/
def fixed (places num den : Nat) : String :=
  let unit := Nat.pow 10 places
  let scaled := roundDiv (num * unit) den
  toString (scaled / unit) ++ "." ++ zeroPadded places (scaled % unit)

/-- The text of a finite double-precision number that is not negative. -/
def fixedOfFloat (places : Nat) (x : Float) : String :=
  fixed places (fraction x).1 (fraction x).2

end DepthPrepass.Decimal
