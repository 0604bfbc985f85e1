import Mathlib.Algebra.Order.Ring.Rat
import Mathlib.Tactic.FieldSimp
import Mathlib.Tactic.LinearCombination
import Mathlib.Tactic.Linarith
import Mathlib.Tactic.Positivity
import Mathlib.Tactic.Ring

/-!
# Triangles of whole points

The exact side of rasterization: points with whole coordinates, the signed area
of three of them, and the points of a triangle as weighted means of its corners.

* `Point.inTriangle_iff`: a point is in a triangle of positive area exactly if
  it is on the inner side of all three edges or on them.
* `Point.cross_le_of_inBox`: twice the area of a triangle is at most the area of
  a box around it.
-/

namespace DepthPrepass

/-- A point with whole coordinates. -/
structure Point where
  x : Int
  y : Int

namespace Point

/-- Twice the area of the triangle `p`, `q`, `r`, with a sign that says in which
order the corners run. -/
def cross (p q r : Point) : Int :=
  (q.x - p.x) * (r.y - p.y) - (r.x - p.x) * (q.y - p.y)

/-- Whether `z` is in the closed triangle `p`, `q`, `r`: it is a mean of the
corners, with weights that are not negative. -/
def InTriangle (z p q r : Point) : Prop :=
  ∃ a b c : ℚ, 0 ≤ a ∧ 0 ≤ b ∧ 0 ≤ c ∧ a + b + c = 1
    ∧ a * p.x + b * q.x + c * r.x = z.x ∧ a * p.y + b * q.y + c * r.y = z.y

/-- Whether `z` is in the closed box between `low` and `high`. -/
def InBox (z low high : Point) : Prop :=
  low.x ≤ z.x ∧ z.x ≤ high.x ∧ low.y ≤ z.y ∧ z.y ≤ high.y

instance (z low high : Point) : Decidable (z.InBox low high) :=
  inferInstanceAs (Decidable (_ ∧ _))

variable {p q r z low high : Point}

/-! ## Areas -/

theorem cross_swap (p q r : Point) : cross p r q = -cross p q r := by
  unfold cross
  ring

theorem cross_rotate (p q r : Point) : cross q r p = cross p q r := by
  unfold cross
  ring

/-- A point divides a triangle into three, one over each edge. -/
theorem cross_add_cross (z p q r : Point) :
    cross z q r + cross z r p + cross z p q = cross p q r := by
  unfold cross
  ring

/-! ## Inside -/

theorem InTriangle.swap (h : z.InTriangle p q r) : z.InTriangle p r q := by
  obtain ⟨a, b, c, ha, hb, hc, hsum, hx, hy⟩ := h
  refine ⟨a, c, b, ha, hc, hb, ?_, ?_, ?_⟩
  · linarith
  · linarith
  · linarith

theorem InTriangle.rotate (h : z.InTriangle p q r) : z.InTriangle q r p := by
  obtain ⟨a, b, c, ha, hb, hc, hsum, hx, hy⟩ := h
  refine ⟨b, c, a, hb, hc, ha, ?_, ?_, ?_⟩
  · linarith
  · linarith
  · linarith

/-- The weight of a corner is the part of the area over the edge across from
it. -/
theorem cross_eq_of_weights {a b c : ℚ} (hsum : a + b + c = 1)
    (hx : a * p.x + b * q.x + c * r.x = z.x)
    (hy : a * p.y + b * q.y + c * r.y = z.y) :
    (cross z q r : ℚ) = a * cross p q r := by
  obtain rfl : a = 1 - b - c := by linarith
  simp only [cross, Int.cast_sub, Int.cast_mul, ← hx, ← hy]
  ring

/-- In a triangle of positive area a point is on the inner side of each edge, or
on it. -/
theorem InTriangle.cross_nonneg (harea : 0 < cross p q r)
    (h : z.InTriangle p q r) : 0 ≤ cross z q r := by
  obtain ⟨a, b, c, ha, hb, hc, hsum, hx, hy⟩ := h
  have hweight := cross_eq_of_weights hsum hx hy
  have hpos : (0 : ℚ) < cross p q r := by exact_mod_cast harea
  have : (0 : ℚ) ≤ cross z q r := by
    rw [hweight]
    positivity
  exact_mod_cast this

/-- **Inside is three signs**: a point is in a triangle of positive area exactly
if no edge has it on the outer side. -/
theorem inTriangle_iff (harea : 0 < cross p q r) :
    z.InTriangle p q r
      ↔ 0 ≤ cross z q r ∧ 0 ≤ cross z r p ∧ 0 ≤ cross z p q := by
  constructor
  · intro h
    refine ⟨h.cross_nonneg harea, ?_, ?_⟩
    · exact h.rotate.cross_nonneg (by rwa [cross_rotate])
    · exact h.rotate.rotate.cross_nonneg
        (by rwa [cross_rotate, cross_rotate])
  · rintro ⟨hp, hq, hr⟩
    have hpos : (0 : ℚ) < cross p q r := by exact_mod_cast harea
    have hp' : (0 : ℚ) ≤ cross z q r := by exact_mod_cast hp
    have hq' : (0 : ℚ) ≤ cross z r p := by exact_mod_cast hq
    have hr' : (0 : ℚ) ≤ cross z p q := by exact_mod_cast hr
    have hsum : (cross z q r + cross z r p + cross z p q : ℚ)
        = cross p q r := by
      exact_mod_cast cross_add_cross z p q r
    -- the weights are the parts of the area
    refine ⟨cross z q r / cross p q r, cross z r p / cross p q r,
      cross z p q / cross p q r, by positivity, by positivity, by positivity,
      ?_, ?_, ?_⟩
    · rw [← add_div, ← add_div, hsum]
      exact div_self hpos.ne'
    · field_simp
      simp only [cross, Int.cast_sub, Int.cast_mul]
      ring
    · field_simp
      simp only [cross, Int.cast_sub, Int.cast_mul]
      ring

/-! ## Boxes -/

/-- A triangle is in every box that has its corners. -/
theorem InTriangle.inBox (hp : p.InBox low high) (hq : q.InBox low high)
    (hr : r.InBox low high) (h : z.InTriangle p q r) : z.InBox low high := by
  obtain ⟨a, b, c, ha, hb, hc, hsum, hx, hy⟩ := h
  -- a mean is between bounds of what it is the mean of
  have mean_le {m u v w n : Int} (hu : u ≤ m) (hv : v ≤ m) (hw : w ≤ m)
      (hn : a * u + b * v + c * w = n) : n ≤ m := by
    have hu' : (u : ℚ) ≤ m := by exact_mod_cast hu
    have hv' : (v : ℚ) ≤ m := by exact_mod_cast hv
    have hw' : (w : ℚ) ≤ m := by exact_mod_cast hw
    have : (n : ℚ) ≤ m := by
      calc (n : ℚ) = a * u + b * v + c * w := hn.symm
        _ ≤ a * m + b * m + c * m := by gcongr
        _ = m := by rw [← add_mul, ← add_mul, hsum, one_mul]
    exact_mod_cast this
  have le_mean {m u v w n : Int} (hu : m ≤ u) (hv : m ≤ v) (hw : m ≤ w)
      (hn : a * u + b * v + c * w = n) : m ≤ n := by
    have := mean_le (Int.neg_le_neg hu) (Int.neg_le_neg hv)
      (Int.neg_le_neg hw) (n := -n) (by push_cast; linarith)
    omega
  exact ⟨le_mean hp.1 hq.1 hr.1 hx, mean_le hp.2.1 hq.2.1 hr.2.1 hx,
    le_mean hp.2.2.1 hq.2.2.1 hr.2.2.1 hy,
    mean_le hp.2.2.2 hq.2.2.2 hr.2.2.2 hy⟩

/-- The area is a sum over the corners of a column times a difference of rows.
The differences cancel, so what is positive among them is at most the height,
and no column is farther to the right than the width. -/
theorem cross_le_of_inBox (hp : p.InBox low high) (hq : q.InBox low high)
    (hr : r.InBox low high) :
    cross p q r ≤ (high.x - low.x) * (high.y - low.y) := by
  obtain ⟨hp₁, hp₂, hp₃, hp₄⟩ := hp
  obtain ⟨hq₁, hq₂, hq₃, hq₄⟩ := hq
  obtain ⟨hr₁, hr₂, hr₃, hr₄⟩ := hr
  -- a negative difference of rows contributes nothing that is positive
  have column_le {m u : Int} (k : Int) (h₀ : 0 ≤ u) (h₁ : u ≤ m) :
      u * k ≤ m * max k 0 := by
    rcases le_total 0 k with hk | hk
    · rw [max_eq_left hk]
      exact mul_le_mul_of_nonneg_right h₁ hk
    · rw [max_eq_right hk, mul_zero]
      exact mul_nonpos_of_nonneg_of_nonpos h₀ hk
  have hsum : cross p q r = (p.x - low.x) * (q.y - r.y)
      + (q.x - low.x) * (r.y - p.y) + (r.x - low.x) * (p.y - q.y) := by
    unfold cross
    ring
  -- of three differences with the sum zero, those that are positive make up no
  -- more than the height
  have hrows : max (q.y - r.y) 0 + max (r.y - p.y) 0 + max (p.y - q.y) 0
      ≤ high.y - low.y := by
    omega
  calc cross p q r
      = (p.x - low.x) * (q.y - r.y) + (q.x - low.x) * (r.y - p.y)
        + (r.x - low.x) * (p.y - q.y) := hsum
    _ ≤ (high.x - low.x) * max (q.y - r.y) 0
        + (high.x - low.x) * max (r.y - p.y) 0
        + (high.x - low.x) * max (p.y - q.y) 0 :=
      add_le_add (add_le_add (column_le _ (by omega) (by omega))
        (column_le _ (by omega) (by omega)))
        (column_le _ (by omega) (by omega))
    _ = (high.x - low.x) * (max (q.y - r.y) 0 + max (r.y - p.y) 0
        + max (p.y - q.y) 0) := by ring
    _ ≤ (high.x - low.x) * (high.y - low.y) :=
      mul_le_mul_of_nonneg_left hrows (by omega)

theorem neg_le_cross_of_inBox (hp : p.InBox low high) (hq : q.InBox low high)
    (hr : r.InBox low high) :
    -((high.x - low.x) * (high.y - low.y)) ≤ cross p q r := by
  have h := cross_le_of_inBox hp hr hq
  rw [cross_swap] at h
  omega

end Point

end DepthPrepass
