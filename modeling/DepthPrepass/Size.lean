/-!
# Sizes in a 64-bit address space

Extents of cell and byte storage are computed as a machine with 64-bit sizes
computes them: each product and each sum is checked, and an extent that does
not fit has no value. Where a number must be shown all the same, it is the
largest size. A product that nothing checks wraps instead.

* `mul?_eq_some_iff`, `add?_eq_some_iff`: a checked operation has a value
  exactly if the exact result fits, and then it is that result.
* `strided?_eq_some_iff`: the same for the extent of evenly spaced records.
* `mul_eq_iff`: an unchecked product is exact exactly if it fits.
-/

namespace DepthPrepass.Size

/-- The first number that is not a size. -/
def limit : Nat := 0x10000000000000000

/-- The largest size. -/
def largest : Nat := limit - 1

/-- The product of two sizes, if it is a size. -/
def mul? (a b : Nat) : Option Nat :=
  if a * b < limit then some (a * b) else none

/-- The product of two sizes with no check: what exceeds a size is lost. -/
def mul (a b : Nat) : Nat :=
  a * b % limit

/-- The sum of two sizes, if it is a size. -/
def add? (a b : Nat) : Option Nat :=
  if a + b < limit then some (a + b) else none

/-- The extent of `count` records, each `stride` after the one before, where
the last one ends `tail` after its start. -/
def strided? (count stride tail : Nat) : Option Nat :=
  (mul? (count - 1) stride).bind (add? · tail)

/-- The size to show for an extent that may not fit. -/
def orLargest (n : Option Nat) : Nat :=
  n.getD largest

theorem mul?_eq_some_iff {a b n : Nat} :
    mul? a b = some n ↔ a * b = n ∧ n < limit := by
  unfold mul?
  split <;> grind

theorem mul_eq_iff {a b : Nat} : mul a b = a * b ↔ a * b < limit := by
  constructor
  · intro h
    rw [← h]
    exact Nat.mod_lt _ (by decide)
  · exact Nat.mod_eq_of_lt

theorem add?_eq_some_iff {a b n : Nat} :
    add? a b = some n ↔ a + b = n ∧ n < limit := by
  unfold add?
  split <;> grind

/-- The two checks of a strided extent amount to one: the sum can only fit if
the product does. -/
theorem strided?_eq_some_iff {count stride tail n : Nat} :
    strided? count stride tail = some n
      ↔ (count - 1) * stride + tail = n ∧ n < limit := by
  simp only [strided?, Option.bind_eq_some_iff, mul?_eq_some_iff,
    add?_eq_some_iff]
  constructor
  · rintro ⟨m, ⟨rfl, -⟩, rfl, h⟩
    exact ⟨rfl, h⟩
  · rintro ⟨rfl, h⟩
    exact ⟨_, ⟨rfl, by omega⟩, rfl, h⟩

end DepthPrepass.Size
