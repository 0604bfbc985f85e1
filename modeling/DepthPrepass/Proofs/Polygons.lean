import DepthPrepass.Proofs.Geometry

/-!
# Convex polygons of whole points

Diagonals from the first corner cut a convex polygon into a fan of triangles. No
point of the polygon is lost between two of them: as the diagonals turn from the
first edge to the last, a point of the polygon is at first on the one side and in
the end on the other, so there are two diagonals next to each other between which
it changes sides, and it is in the triangle between these.

* `Point.Convex`: corners that turn in one direction throughout.
* `Point.InPolygon`: the points that no edge has on its outer side.
* `Point.inPolygon_iff_exists_inTriangle`: the closed polygon is the union of the
  closed triangles of its fan.
-/

namespace DepthPrepass.Point

/-- Whether points are the corners of a convex polygon: any three of them, in
their order, are the corners of a triangle of positive area. -/
def Convex (p : Nat → Point) (n : Nat) : Prop :=
  ∀ k < n, ∀ j < k, ∀ i < j, 0 < cross (p i) (p j) (p k)

instance (p : Nat → Point) (n : Nat) : Decidable (Convex p n) :=
  inferInstanceAs (Decidable (∀ k < n, ∀ j < k, ∀ i < j, _))

/-- Whether `z` is in the closed polygon with `n` corners: it is on the inner side
of each edge, the one from the last corner to the first included, or on it. -/
def InPolygon (z : Point) (p : Nat → Point) (n : Nat) : Prop :=
  ∀ i < n, 0 ≤ cross z (p i) (p ((i + 1) % n))

instance (z : Point) (p : Nat → Point) (n : Nat) :
    Decidable (InPolygon z p n) :=
  inferInstanceAs (Decidable (∀ i < n, _))

variable {p : Nat → Point} {n : Nat} {z : Point}

/-! ## Edges -/

@[simp] theorem cross_start (q r : Point) : cross q q r = 0 := by
  simp [cross]

@[simp] theorem cross_end (q r : Point) : cross r q r = 0 := by
  simp [cross]

/-- A triangle is on the side of a line on which its corners are. -/
theorem InTriangle.cross_nonneg_of_corners {q r t u v : Point}
    (h : z.InTriangle q r t) (hq : 0 ≤ cross q u v) (hr : 0 ≤ cross r u v)
    (ht : 0 ≤ cross t u v) : 0 ≤ cross z u v := by
  obtain ⟨a, b, c, ha, hb, hc, hsum, hx, hy⟩ := h
  -- the area over a fixed edge is an affine function of the point
  have hmean : (cross z u v : ℚ)
      = a * cross q u v + b * cross r u v + c * cross t u v := by
    obtain rfl : a = 1 - b - c := by linarith
    simp only [cross, Int.cast_sub, Int.cast_mul, ← hx, ← hy]
    ring
  have hq' : (0 : ℚ) ≤ cross q u v := by exact_mod_cast hq
  have hr' : (0 : ℚ) ≤ cross r u v := by exact_mod_cast hr
  have ht' : (0 : ℚ) ≤ cross t u v := by exact_mod_cast ht
  have hnonneg : (0 : ℚ) ≤ cross z u v := by
    rw [hmean]
    positivity
  exact_mod_cast hnonneg

/-- The corners of a convex polygon are in the polygon. -/
theorem Convex.inPolygon_corner (h : Convex p n) {k : Nat} (hk : k < n) :
    InPolygon (p k) p n := by
  intro i hi
  by_cases hnext : i + 1 < n
  · rw [Nat.mod_eq_of_lt hnext]
    -- before the edge, on its start, or after it
    rcases Nat.lt_trichotomy k i with hlt | rfl | hgt
    · exact (h (i + 1) hnext i i.lt_succ_self k hlt).le
    · simp
    · rcases Nat.lt_or_eq_of_le hgt with hgt | rfl
      · rw [← cross_rotate]
        exact (h k hk (i + 1) hgt i i.lt_succ_self).le
      · simp
  · -- the edge that closes the polygon
    obtain rfl : n = i + 1 := by omega
    rw [Nat.mod_self]
    rcases Nat.eq_zero_or_pos k with rfl | hpos
    · simp
    · rcases Nat.lt_or_eq_of_le (Nat.le_of_lt_succ hk) with hlt | rfl
      · rw [cross_rotate]
        exact (h i hi k hlt 0 hpos).le
      · simp

/-! ## The fan -/

/-- What is not negative at first and not positive in the end goes from the one to
the other in one step. -/
theorem exists_nonneg_nonpos {f : Nat → Int} (hfirst : 0 ≤ f 0)
    (hlast : f (n + 1) ≤ 0) : ∃ k ≤ n, 0 ≤ f k ∧ f (k + 1) ≤ 0 := by
  induction n with
  | zero => exact ⟨0, Nat.le_refl 0, hfirst, hlast⟩
  | succ n ih =>
    by_cases hn : f (n + 1) ≤ 0
    · obtain ⟨k, hk, hsides⟩ := ih hn
      exact ⟨k, Nat.le_succ_of_le hk, hsides⟩
    · exact ⟨n + 1, Nat.le_refl _, by omega, hlast⟩

/-- **A fan loses nothing and adds nothing**: a point is in a convex polygon exactly
if it is in one of the triangles that the first corner makes with the edges. -/
theorem inPolygon_iff_exists_inTriangle (hn : 3 ≤ n) (h : Convex p n) :
    z.InPolygon p n
      ↔ ∃ k < n - 2, z.InTriangle (p 0) (p (k + 1)) (p (k + 2)) := by
  constructor
  · intro hz
    have hstart : 0 ≤ cross z (p 0) (p 1) := by
      have hedge := hz 0 (by omega)
      rwa [Nat.zero_add, Nat.mod_eq_of_lt (by omega)] at hedge
    have hclose : 0 ≤ cross z (p (n - 1)) (p 0) := by
      have hedge := hz (n - 1) (by omega)
      rwa [Nat.sub_add_cancel (by omega), Nat.mod_self] at hedge
    -- the sides on which the diagonals have the point
    have hend : cross z (p 0) (p (n - 3 + 1 + 1)) ≤ 0 := by
      have hindex : n - 3 + 1 + 1 = n - 1 := by omega
      rw [hindex, cross_swap]
      omega
    obtain ⟨k, hk, hleft, hright⟩ :=
      exists_nonneg_nonpos (f := fun k => cross z (p 0) (p (k + 1))) hstart hend
    have hk : k < n - 2 := by omega
    have hedge := hz (k + 1) (by omega)
    rw [Nat.mod_eq_of_lt (by omega)] at hedge
    refine ⟨k, hk, (inTriangle_iff ?_).2 ⟨hedge, ?_, hleft⟩⟩
    · exact h (k + 2) (by omega) (k + 1) (by omega) 0 (by omega)
    · rw [cross_swap]
      exact Int.neg_nonneg_of_nonpos hright
  · rintro ⟨k, hk, hz⟩ i hi
    exact hz.cross_nonneg_of_corners (h.inPolygon_corner (by omega) i hi)
      (h.inPolygon_corner (by omega) i hi) (h.inPolygon_corner (by omega) i hi)

end DepthPrepass.Point
