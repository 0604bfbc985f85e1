import DepthPrepass.Proofs.Accuracy
import DepthPrepass.Proofs.Coverage

/-!
# Edge values as weights

At each pixel the three edge values divide the area of the triangle among its
corners. Up to wrapping they do so wherever a walk stops, because no step changes
their sum: the slopes of the three edges cancel, along a row and along a column.
If the triangle's box fits a word, nothing is lost to wrapping either. Then the
values at a pixel that is inside are weights, and the depth that they stand for is
a mean of the corners' depths. What is computed for this mean is rounded seven
times, one rounding on top of the other, whether values have wrapped or not.

* `Walk.sum_values_of_mem_stops`: a walk keeps the sum of the values.
* `Triangle.Splits`: three values that divide an area.
* `Triangle.Splits.meanDepth_le`, `Triangle.Splits.le_meanDepth`: the mean is
  between the depths of the corners.
* `Triangle.computes_depthAt`: how near the computed depth is to the mean.
* `Triangle.Splits.whole_depthAt`: what is stored of it.
* `Triangle.stops_split_area`: the two statements about all stops.
-/

namespace DepthPrepass

/-! ## Sums of words -/

theorem Triple.sum_add (v w : Triple Int32) :
    (v + w).sum = v.sum + w.sum := by
  show v.first + w.first + (v.second + w.second) + (v.third + w.third)
    = v.first + v.second + v.third + (w.first + w.second + w.third)
  grind

namespace Edge

/-- The slopes of the three edges along a row cancel, and so do those along a
column. -/
theorem sum_slopes (t : Triple ScreenVertex) :
    ((ofCorners t).map (·.a)).sum = 0 ∧ ((ofCorners t).map (·.b)).sum = 0 := by
  constructor
  · show t.second.y - t.third.y + (t.third.y - t.first.y)
      + (t.first.y - t.second.y) = 0
    grind
  · show t.third.x - t.second.x + (t.first.x - t.third.x)
      + (t.second.x - t.first.x) = 0
    grind

/-- At any pixel the values of the edges add up to the area. -/
theorem sum_eval (t : Triple ScreenVertex) (x y : Int32) :
    ((ofCorners t).map (·.eval x y)).sum = area t := by
  show (through t.second t.third).eval x y + (through t.third t.first).eval x y
    + (through t.first t.second).eval x y
      = (through t.second t.third).eval t.first.x t.first.y
  simp only [eval, through]
  grind

end Edge

/-! ## What a walk keeps -/

namespace Walk

variable {walk : Walk} {n : Int32} {stop : Stop}

/-- The sum of the values in each of four lanes. -/
def LaneSums (e : Triple (Quad Int32)) (n : Int32) : Prop :=
  ∀ i, (e.map (·.lane i)).sum = n

theorem sum_values_of_mem_scalarStops (hacross : walk.across.sum = 0)
    {y x count : Nat} {w : Triple Int32}
    (hstop : stop ∈ walk.scalarStops y x count w) :
    stop.values.sum = w.sum := by
  induction count generalizing x w with
  | zero => cases hstop
  | succ count ih =>
    rcases List.mem_cons.1 hstop with rfl | hrest
    · rfl
    · rw [ih hrest, Triple.sum_add, hacross, Int32.add_zero]

/-- The lanes that a row starts with all have its sum: the slopes cancel also
after they have been multiplied. -/
theorem laneSums_spread (hacross : walk.across.sum = 0) (w : Triple Int32) :
    LaneSums (walk.spread w) w.sum := by
  intro i
  have hlane (value step : Int32) :
      (Quad.splat value + Quad.splat step * ⟨0, 1, 2, 3⟩).lane i
        = value + step * (Quad.mk (0 : Int32) 1 2 3).lane i := by
    rw [Quad.lane_add, Quad.lane_mul, Quad.lane_splat, Quad.lane_splat]
  have hsum : walk.across.first + walk.across.second + walk.across.third = 0 :=
    hacross
  simp only [Triple.sum, Triple.map, spread, Triple.zipWith, hlane]
  grind

theorem LaneSums.nextQuad (hacross : walk.across.sum = 0)
    {e : Triple (Quad Int32)} (h : LaneSums e n) :
    LaneSums (e + walk.quadAcross) n := by
  intro i
  have hsum : walk.across.first + walk.across.second + walk.across.third = 0 :=
    hacross
  have hquad : ((walk.quadAcross).map (·.lane i)).sum = 0 := by
    simp only [Triple.sum, Triple.map, quadAcross, Quad.lane_splat]
    grind
  have hadd : (e + walk.quadAcross).map (·.lane i)
      = e.map (·.lane i) + walk.quadAcross.map (·.lane i) :=
    Triple.ext_values (Quad.lane_add ..) (Quad.lane_add ..) (Quad.lane_add ..)
  rw [hadd, Triple.sum_add, h i, hquad, Int32.add_zero]

theorem sum_values_of_mem_quadStops (hacross : walk.across.sum = 0)
    {y x count : Nat} {e : Triple (Quad Int32)} (h : LaneSums e n)
    (hstop : stop ∈ walk.quadStops y x count e) : stop.values.sum = n := by
  fun_induction walk.quadStops y x count e with
  | case1 x count e ih =>
    rcases List.mem_append.1 hstop with hlane | hrest
    · obtain ⟨i, -, rfl⟩ := List.mem_map.1 hlane
      exact h i
    · exact ih (h.nextQuad hacross) hrest
  -- the columns that are left over start from the sum in lane 0
  | case2 x count e _ =>
    exact (sum_values_of_mem_scalarStops hacross hstop).trans (h 0)

theorem sum_values_of_mem_rowStops (hacross : walk.across.sum = 0)
    {mode : LaneMode} {w : Triple Int32} {span : RowSpan}
    (hstop : stop ∈ walk.rowStops mode w span) : stop.values.sum = w.sum := by
  unfold rowStops at hstop
  split at hstop
  · exact sum_values_of_mem_quadStops hacross (laneSums_spread hacross w) hstop
  · exact sum_values_of_mem_scalarStops hacross hstop

theorem sum_values_of_mem_rowsStops (hacross : walk.across.sum = 0)
    (hdown : walk.down.sum = 0) {mode : LaneMode} {spans : List RowSpan}
    {w : Triple Int32} (hstop : stop ∈ walk.rowsStops mode spans w) :
    stop.values.sum = w.sum := by
  induction spans generalizing w with
  | nil => cases hstop
  | cons span spans ih =>
    rcases List.mem_append.1 hstop with hrow | hrest
    · exact sum_values_of_mem_rowStops hacross hrow
    · rw [ih hrest, Triple.sum_add, hdown, Int32.add_zero]

/-- **A walk keeps the sum of its values** if its slopes cancel, whatever the
region and however it is walked. -/
theorem sum_values_of_mem_stops (hacross : walk.across.sum = 0)
    (hdown : walk.down.sum = 0) {mode : LaneMode}
    (hstop : stop ∈ walk.stops mode) :
    stop.values.sum = walk.origin.sum :=
  sum_values_of_mem_rowsStops hacross hdown hstop

end Walk

namespace Triangle

variable {t : Triangle} {w : Triple Int32} {low high : Point}
  {region : Region} {s : Surface} {mode : LaneMode} {stop : Walk.Stop}

theorem sum_values_of_mem_stops (t : Triangle)
    (hstop : stop ∈ (t.walkIn region).stops mode) :
    stop.values.sum = Edge.area t := by
  have hacross : (t.walkIn region).across.sum = 0 := (Edge.sum_slopes t).1
  have hdown : (t.walkIn region).down.sum = 0 := (Edge.sum_slopes t).2
  rw [Walk.sum_values_of_mem_stops hacross hdown hstop]
  exact Edge.sum_eval t region.left region.top

/-! ## Weights -/

/-- Three values that divide an area: none of them is negative or larger than the
area, and they add up to it without wrapping. -/
structure Splits (area : Int32) (w : Triple Int32) : Prop where
  first : 0 ≤ w.first.toInt ∧ w.first.toInt ≤ area.toInt
  second : 0 ≤ w.second.toInt ∧ w.second.toInt ≤ area.toInt
  third : 0 ≤ w.third.toInt ∧ w.third.toInt ≤ area.toInt
  sum : w.first.toInt + w.second.toInt + w.third.toInt = area.toInt

/-- The exact mean of the corners' depths with given weights. -/
def meanDepth (t : Triangle) (w : Triple Int32) : ℚ :=
  (w.first.toInt * t.first.z.toNat + w.second.toInt * t.second.z.toNat
    + w.third.toInt * t.third.z.toNat) / (Edge.area t).toInt

/-- The smallest depth of a corner. -/
def nearest (t : Triangle) : Nat :=
  min (min t.first.z.toNat t.second.z.toNat) t.third.z.toNat

/-- The largest depth of a corner. -/
def farthest (t : Triangle) : Nat :=
  max (max t.first.z.toNat t.second.z.toNat) t.third.z.toNat

/-- A weighted sum grows with what is weighted. -/
theorem Splits.weighted_le {area : Int32} (h : Splits area w)
    {a b : Triple Int} (hfirst : a.first ≤ b.first)
    (hsecond : a.second ≤ b.second) (hthird : a.third ≤ b.third) :
    w.first.toInt * a.first + w.second.toInt * a.second
        + w.third.toInt * a.third
      ≤ w.first.toInt * b.first + w.second.toInt * b.second
        + w.third.toInt * b.third :=
  Int.add_le_add
    (Int.add_le_add (Int.mul_le_mul_of_nonneg_left hfirst h.first.1)
      (Int.mul_le_mul_of_nonneg_left hsecond h.second.1))
    (Int.mul_le_mul_of_nonneg_left hthird h.third.1)

/-- A weighted sum of equal numbers. -/
theorem Splits.weighted_eq {area : Int32} (h : Splits area w) (a : Int) :
    w.first.toInt * a + w.second.toInt * a + w.third.toInt * a
      = a * area.toInt := by
  rw [← h.sum]
  ring

/-- The depths of the corners as integers. -/
def depths (t : Triangle) : Triple Int :=
  t.map (·.z.toNat)

theorem Splits.meanDepth_le (h : Splits (Edge.area t) w)
    (harea : 0 < (Edge.area t).toInt) : t.meanDepth w ≤ t.farthest := by
  have hpos : (0 : ℚ) < (Edge.area t).toInt := by exact_mod_cast harea
  have hle := h.weighted_le (a := t.depths) (b := .splat t.farthest)
    (show (t.first.z.toNat : Int) ≤ t.farthest by unfold farthest; omega)
    (show (t.second.z.toNat : Int) ≤ t.farthest by unfold farthest; omega)
    (show (t.third.z.toNat : Int) ≤ t.farthest by unfold farthest; omega)
  have hle := hle.trans_eq (h.weighted_eq t.farthest)
  rw [meanDepth, div_le_iff₀ hpos]
  exact_mod_cast hle

theorem Splits.le_meanDepth (h : Splits (Edge.area t) w)
    (harea : 0 < (Edge.area t).toInt) : t.nearest ≤ t.meanDepth w := by
  have hpos : (0 : ℚ) < (Edge.area t).toInt := by exact_mod_cast harea
  have hle := h.weighted_le (a := .splat t.nearest) (b := t.depths)
    (show (t.nearest : Int) ≤ t.first.z.toNat by unfold nearest; omega)
    (show (t.nearest : Int) ≤ t.second.z.toNat by unfold nearest; omega)
    (show (t.nearest : Int) ≤ t.third.z.toNat by unfold nearest; omega)
  have hle := (h.weighted_eq t.nearest).symm.trans_le hle
  rw [meanDepth, le_div_iff₀ hpos]
  exact_mod_cast hle

/-! ## Computed depths -/

/-- **The computed depth** is the mean of the corners' depths, up to seven roundings
on top of each other: the area is rounded and inverted, multiplied by a depth and by
a rounded value, and two more of these products are added. -/
theorem computes_depthAt (harea : 0 < Edge.area t) (region : Region)
    (hinside : Walk.inside w = true) :
    Binary32.Computes 7 (-55) 33 (t.meanDepth w)
      ((t.walkIn region).depthAt w) := by
  have hpos : (0 : ℚ) < (Edge.area t).toInt := by
    exact_mod_cast Int32.lt_iff_toInt_lt.1 harea
  -- two roundings: the area becomes a float and is inverted
  have hinverse : Binary32.Computes 2 (-55) (-22) (1 / (Edge.area t).toInt)
      (1 / Binary32.ofInt32 (Edge.area t)) :=
    .inverse (Binary32.normalIn_ofInt32 harea)
      (Binary32.Computes.ofInt32 (Int32.le_of_lt harea)).near hpos (by decide)
      (by decide)
  -- a third for the depth, two more for the edge value of a corner
  have hslope (z : UInt16) : Binary32.Computes 3 (-55) (-4)
      (z.toNat * (1 / (Edge.area t).toInt))
      (z.toFloat32 * (1 / Binary32.ofInt32 (Edge.area t))) :=
    (Binary32.Computes.ofDepth z).mul hinverse (by decide) (by decide)
  have hpart {n : Int32} (hn : 0 ≤ n.toInt) (z : UInt16) :
      Binary32.Computes 5 (-55) 29
        (n.toInt * (z.toNat * (1 / (Edge.area t).toInt)))
        (Binary32.ofInt32 n
          * (z.toFloat32 * (1 / Binary32.ofInt32 (Edge.area t)))) :=
    (Binary32.Computes.ofInt32 (Int32.le_iff_toInt_le.2 hn)).mul (hslope z)
      (by decide) (by decide)
  obtain ⟨h₁, h₂, h₃⟩ := Walk.inside_iff.1 hinside
  -- each sum adds one; the third part is widened to the error of the two
  have hsum := ((hpart h₁ t.first.z).add (hpart h₂ t.second.z) (by decide)
    (by decide)).add ((hpart h₃ t.third.z).mono (by decide) (by decide))
    (by decide) (by decide)
  have hmean : t.meanDepth w
      = w.first.toInt * (t.first.z.toNat * (1 / (Edge.area t).toInt))
        + w.second.toInt * (t.second.z.toNat * (1 / (Edge.area t).toInt))
        + w.third.toInt * (t.third.z.toNat * (1 / (Edge.area t).toInt)) := by
    unfold meanDepth
    ring
  rw [hmean]
  exact hsum

theorem farthest_le (t : Triangle) : t.farthest ≤ 65535 := by
  have h₁ := t.first.z.toNat_lt
  have h₂ := t.second.z.toNat_lt
  have h₃ := t.third.z.toNat_lt
  unfold farthest
  omega

/-- **What is stored** for weights that divide the area is at most the largest depth of
a corner, and at least one less than the smallest. -/
theorem Splits.whole_depthAt (h : Splits (Edge.area t) w)
    (harea : 0 < Edge.area t) (region : Region) :
    ((t.walkIn region).depthAt w).toUInt16.toNat ≤ t.farthest
      ∧ t.nearest ≤ ((t.walkIn region).depthAt w).toUInt16.toNat + 1 := by
  have hpos : 0 < (Edge.area t).toInt := Int32.lt_iff_toInt_lt.1 harea
  have hinside : Walk.inside w = true :=
    Walk.inside_iff.2 ⟨h.first.1, h.second.1, h.third.1⟩
  -- seven roundings of the largest depth there is do not add up to one
  have hslack : 65535 * (Binary32.slack ^ 7 - 1) < 1 := by
    unfold Binary32.slack
    norm_num
  exact (computes_depthAt harea region hinside).toNat_toUInt16 (by decide) hslack
    (h.le_meanDepth hpos) (h.meanDepth_le hpos) t.farthest_le

/-! ## Weights of pixels -/

/-- Inside a triangle that fits, the values of the edges are areas, and three of
them make up the whole. -/
theorem InBox.splits (h : t.InBox low high) (region : Region) {x y : Int32}
    (hz : Point.InBox ⟨x.toInt, y.toInt⟩ low high)
    (hinside : Walk.inside ((t.walkIn region).valuesAt x y) = true) :
    Splits (Edge.area t) ((t.walkIn region).valuesAt x y) := by
  -- in whole numbers the three values add up to the area, whatever the pixel
  have h₁ := Edge.toInt_eval_through h.fits hz h.second h.third
  have h₂ := Edge.toInt_eval_through h.fits hz h.third h.first
  have h₃ := Edge.toInt_eval_through h.fits hz h.first h.second
  have hsum := Point.cross_add_cross ⟨x.toInt, y.toInt⟩ t.first.point
    t.second.point t.third.point
  rw [← h₁, ← h₂, ← h₃, ← h.toInt_area] at hsum
  obtain ⟨hn₁, hn₂, hn₃⟩ := Walk.inside_iff.1 hinside
  have hsum : ((t.walkIn region).valuesAt x y).first.toInt
      + ((t.walkIn region).valuesAt x y).second.toInt
      + ((t.walkIn region).valuesAt x y).third.toInt
        = (Edge.area t).toInt := hsum
  -- none is negative, so none exceeds their sum
  exact ⟨⟨hn₁, by omega⟩, ⟨hn₂, by omega⟩, ⟨hn₃, by omega⟩, hsum⟩

/-- **Edge values are weights.** Wherever the walk over a triangle stops, in
either mode, over any region and for any corners, the three values add up to the
area, up to wrapping, and the fragments are found at these stops. If the
triangle's box fits a word and the triangle is drawn, then at every stop that is
inside the values add up to the area exactly, none of them is negative or larger,
and the exact mean of the depths of the corners with these weights is between the
smallest and the largest of the depths. -/
theorem stops_split_area (mode : LaneMode) (t : Triangle) :
    (∀ region,
      (t.walkIn region).fragments mode
          = ((t.walkIn region).stops mode).filterMap
              (t.walkIn region).fragmentAtStop?
        ∧ ∀ stop ∈ (t.walkIn region).stops mode,
            stop.values.sum = Edge.area t)
      ∧ ∀ (policy : Policy) (test test' : DepthTest) (scissor : Region)
          (s : Surface) (walk : Walk), t.BoxFits →
          t.plan policy test (s.clip scissor) = .ok (test', walk) →
          let corners := t.drawn policy.culling
          t.fragments mode policy test (s.clip scissor)
              = (walk.stops mode).filterMap walk.fragmentAtStop?
            ∧ 0 < (Edge.area corners).toInt
            ∧ ∀ stop ∈ walk.stops mode, Walk.inside stop.values = true →
                Splits (Edge.area corners) stop.values
                  ∧ corners.nearest ≤ corners.meanDepth stop.values
                  ∧ corners.meanDepth stop.values ≤ corners.farthest := by
  refine ⟨fun region => ⟨Walk.fragments_eq_stops .., fun stop hstop =>
    t.sum_values_of_mem_stops hstop⟩, ?_⟩
  intro policy test test' scissor s walk hfits hplan corners
  have hon := on_of_plan_eq_ok hplan
  obtain ⟨-, -, harea, hwalk⟩ := plan_eq_ok_iff.1 hplan
  have harea : 0 < (Edge.area corners).toInt := Int32.lt_iff_toInt_lt.1 harea
  refine ⟨?_, harea, fun stop hstop hinside => ?_⟩
  · rw [fragments, hplan]
    exact walk.fragments_eq_stops mode
  · rw [walk.stops_eq mode hon] at hstop
    obtain ⟨p, hp, rfl⟩ := List.mem_map.1 hstop
    have hcovers := (Region.mem_pixels hon).1 hp
    subst hwalk
    -- the pixel is in the box of the corners, since the region is
    obtain ⟨hz, hclip⟩ := covers_box_inter.1 hcovers
    obtain ⟨hx, hy⟩ := hclip.toInt_ofNat
    rw [← hx, ← hy] at hz
    have hsplits := (hfits.inBox.drawn policy.culling).splits _ hz hinside
    exact ⟨hsplits, hsplits.le_meanDepth harea, hsplits.meanDepth_le harea⟩

/-- Half a square of 4 × 4 pixels, walked four columns at a time: in row 2 the
third lane of the first quad has the weights 4, 4 and 8 of 16. -/
theorem stops_split_area_half_square :
    let t : Triangle := ⟨⟨0, 0, 0, false⟩, ⟨0, 4, 400, false⟩,
      ⟨4, 0, 0, false⟩⟩
    let clip := (Surface.blank 8 8).clip ⟨0, 0, 8, 8⟩
    ∃ walk, t.plan {} .always clip = .ok (.always, walk)
      ∧ ⟨1, 2, ⟨4, 4, 8⟩⟩ ∈ walk.stops .wide
      ∧ (Triple.mk 4 4 8).sum = Edge.area t.flip
      ∧ Splits (Edge.area t.flip) ⟨4, 4, 8⟩
      ∧ t.flip.meanDepth ⟨4, 4, 8⟩ ≤ 400 := by
  intro t clip
  have hdrawn : t.drawn ({} : Policy).culling = t.flip := drawn_frontOnly t
  have hplan : t.plan {} .always clip
      = .ok (.always, t.flip.walkIn (t.box.inter clip)) := by
    refine plan_eq_ok_iff.2 ⟨rfl, by decide, ?_, ?_⟩
    · rw [hdrawn]
      decide
    · rw [hdrawn]
  have hstop : ⟨1, 2, ⟨4, 4, 8⟩⟩
      ∈ (t.flip.walkIn (t.box.inter clip)).stops .wide := by
    decide
  obtain ⟨hstops, -⟩ := stops_split_area .wide t.flip
  have hsum := (hstops _).2 _ hstop
  obtain ⟨-, hinside⟩ := stops_split_area .wide t
  obtain ⟨-, -, hinside⟩ := hinside {} .always .always ⟨0, 0, 8, 8⟩
    (.blank 8 8) _ (by decide) hplan
  obtain ⟨hsplits, -, hle⟩ := hinside _ hstop (by decide)
  rw [hdrawn] at hsplits hle
  have hfarthest : t.flip.farthest = 400 := by decide
  rw [hfarthest, Nat.cast_ofNat] at hle
  exact ⟨_, hplan, hstop, hsum, hsplits, hle⟩

end Triangle

end DepthPrepass
