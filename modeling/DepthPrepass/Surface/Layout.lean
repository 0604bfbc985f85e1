import DepthPrepass.Size

/-!
# Cell layouts

A surface stores its pixels row by row in one flat run of cells, `stride`
cells from the start of a row to the start of the next, of which the first
`width` are pixels. The last row needs no padding, so storage may end with the
last pixel.

* `index_lt_extent`: every pixel lies within the layout's extent.
* `extent_le_iff`: the end of the last pixel stands for all of them.
* `index_inj`: different pixels have different cells.
-/

namespace DepthPrepass.Surface

/-- How the pixels of a surface are laid out in its cells. -/
structure Layout where
  /-- Cells from the start of one row to the start of the next. -/
  stride : Nat
  width : Nat
  height : Nat
  width_le_stride : width ≤ stride
deriving DecidableEq

namespace Layout

/-- The number of cells up to the end of the last pixel. -/
def extent (layout : Layout) : Nat :=
  if layout.height = 0 ∨ layout.width = 0 then 0
  else (layout.height - 1) * layout.stride + layout.width

/-- The extent in checked arithmetic, if it is a size. -/
def extent? (layout : Layout) : Option Nat :=
  if layout.height = 0 ∨ layout.width = 0 then some 0
  else Size.strided? layout.height layout.stride layout.width

/-- The cell of the pixel `(x, y)`. -/
def index (layout : Layout) (x y : Nat) : Nat :=
  y * layout.stride + x

theorem extent?_eq_some {layout : Layout} {n : Nat}
    (h : layout.extent? = some n) : layout.extent = n := by
  unfold extent? at h
  unfold extent
  split at h
  · next hz => rw [if_pos hz]; exact Option.some.inj h
  · next hz => rw [if_neg hz]; exact (Size.strided?_eq_some_iff.1 h).1

theorem index_lt_extent (layout : Layout) {x y : Nat}
    (hx : x < layout.width) (hy : y < layout.height) :
    layout.index x y < layout.extent := by
  unfold index extent
  rw [if_neg (by omega)]
  have h : y * layout.stride ≤ (layout.height - 1) * layout.stride :=
    Nat.mul_le_mul_right _ (by omega)
  omega

/-- Storage reaches to the end of the last pixel if it has all pixels. -/
theorem extent_le_iff {layout : Layout} {n : Nat} :
    layout.extent ≤ n
      ↔ ∀ x < layout.width, ∀ y < layout.height, layout.index x y < n := by
  constructor
  · intro h x hx y hy
    exact Nat.lt_of_lt_of_le (layout.index_lt_extent hx hy) h
  · intro h
    unfold extent
    split
    · exact Nat.zero_le n
    · next hpixels =>
      have hlast :=
        h (layout.width - 1) (by omega) (layout.height - 1) (by omega)
      unfold index at hlast
      omega

theorem index_inj (layout : Layout) {x y x' y' : Nat}
    (hx : x < layout.width) (hx' : x' < layout.width)
    (h : layout.index x y = layout.index x' y') : x = x' ∧ y = y' := by
  have hw := layout.width_le_stride
  unfold index at h
  have hs : 0 < layout.stride := by omega
  have hy : y = y' := by
    have hdiv := congrArg (· / layout.stride) h
    simpa [Nat.mul_comm _ layout.stride, Nat.mul_add_div hs,
      Nat.div_eq_of_lt (Nat.lt_of_lt_of_le hx hw),
      Nat.div_eq_of_lt (Nat.lt_of_lt_of_le hx' hw)] using hdiv
  subst hy
  exact ⟨by omega, rfl⟩

end Layout

end DepthPrepass.Surface
