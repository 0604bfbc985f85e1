/-!
# Pixel coordinates

Coordinates are signed 32-bit words. The two ways to get one that could leave
the range, from an extent and by going one further, stop at its end instead;
nothing beyond that end can be named by a coordinate, so nothing is lost.

* `toInt_ofExtent`, `toInt_next`: what the two give, in whole numbers.
* `toInt_max`, `toInt_min`: the larger and the smaller of two coordinates.
-/

namespace DepthPrepass.Coordinate

/-- The largest coordinate, as a whole number. -/
def largest : Nat := 0x7fffffff

/-- An extent as a coordinate. -/
def ofExtent (extent : Nat) : Int32 :=
  if extent ≤ largest then Int32.ofNat extent else Int32.maxValue

/-- The coordinate after the given one, if there is one. -/
def next (n : Int32) : Int32 :=
  if n = Int32.maxValue then n else n + 1

theorem toInt_ofExtent (extent : Nat) :
    (ofExtent extent).toInt = min (extent : Int) largest := by
  unfold ofExtent largest
  split
  · next h => rw [Int32.toInt_ofNat_of_lt (by omega)]; omega
  · next h => rw [Int32.toInt_maxValue]; omega

theorem toInt_next (n : Int32) :
    (next n).toInt = min (n.toInt + 1) largest := by
  have hle := Int32.toInt_le n
  have hge := Int32.le_toInt n
  rw [Int32.toInt_maxValue] at hle
  unfold next largest
  split
  · next h => subst h; rfl
  · next h =>
    have hne : n.toInt ≠ 0x7fffffff := fun h' =>
      h (Int32.toInt_inj.1 (by rw [h', Int32.toInt_maxValue]; rfl))
    rw [Int32.toInt_add, Int32.toInt_one, Int.bmod_eq_of_le] <;> omega

theorem toInt_max (a b : Int32) :
    (max a b).toInt = max a.toInt b.toInt := by
  change (if a ≤ b then b else a).toInt = _
  split <;> rename_i h <;> rw [Int32.le_iff_toInt_le] at h <;> omega

theorem toInt_min (a b : Int32) :
    (min a b).toInt = min a.toInt b.toInt := by
  change (if a ≤ b then a else b).toInt = _
  split <;> rename_i h <;> rw [Int32.le_iff_toInt_le] at h <;> omega

end DepthPrepass.Coordinate
