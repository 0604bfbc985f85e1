import DepthPrepass.Proofs.Geometry
import DepthPrepass.Proofs.Setup

/-!
# Exact coverage

Edge functions are computed in words that wrap. What they should be is an area:
that of the triangle between a pixel and two of the corners. As long as pixel
and corners are in one box and the box is not too large, this area fits a word;
and a word that should hold a number that fits it does hold that number, however
often the steps that lead to it have wrapped.

* `Edge.eval_through`: an edge function is the area, up to wrapping.
* `Edge.toInt_eval_through`: in a box that is not too large it is the area.
* `Triangle.covers_box_inter`: the box of a triangle loses no pixel.
* `Triangle.pixel_mem_fragments_iff`: the fragments of a triangle are the pixels
  of the closed triangle.
* `Triangle.paint_tests_inTriangle`: these are the pixels that are tested.
-/

namespace DepthPrepass

/-- The position of a vertex in whole numbers. -/
def ScreenVertex.point (v : ScreenVertex) : Point :=
  ⟨v.x.toInt, v.y.toInt⟩

/-! ## Edge functions -/

namespace Edge

variable {p q : ScreenVertex} {x y : Int32} {low high : Point}

/-- The wrapped edge function is the area, wrapped once. Wrapping respects sums
and products, so it does not matter where in between words have wrapped. -/
theorem eval_through (p q : ScreenVertex) (x y : Int32) :
    (through p q).eval x y
      = Int32.ofInt (Point.cross ⟨x.toInt, y.toInt⟩ p.point q.point) := by
  unfold Point.cross ScreenVertex.point
  simp only [Int32.ofInt_sub, Int32.ofInt_mul, Int32.ofInt_toInt]
  unfold eval through
  grind

/-- **No sign is lost**: at a pixel that is in a box with both corners, the edge
function is the area if the box is not too large for a word. -/
theorem toInt_eval_through
    (hbox : (high.x - low.x) * (high.y - low.y) ≤ 2 ^ 31 - 1)
    (hz : Point.InBox ⟨x.toInt, y.toInt⟩ low high)
    (hp : p.point.InBox low high) (hq : q.point.InBox low high) :
    ((through p q).eval x y).toInt
      = Point.cross ⟨x.toInt, y.toInt⟩ p.point q.point := by
  have hle := Point.cross_le_of_inBox hz hp hq
  have hge := Point.neg_le_cross_of_inBox hz hp hq
  rw [eval_through]
  exact Int32.toInt_ofInt_of_le (by omega) (by omega)

end Edge

namespace Triangle

/-! ## Triangles in whole numbers -/

/-- The corner of the bounding box with the smallest coordinates. -/
def low (t : Triangle) : Point :=
  ⟨min (min t.first.x.toInt t.second.x.toInt) t.third.x.toInt,
    min (min t.first.y.toInt t.second.y.toInt) t.third.y.toInt⟩

/-- The corner of the bounding box with the largest coordinates. -/
def high (t : Triangle) : Point :=
  ⟨max (max t.first.x.toInt t.second.x.toInt) t.third.x.toInt,
    max (max t.first.y.toInt t.second.y.toInt) t.third.y.toInt⟩

/-- Whether the area of the bounding box fits a word. -/
def BoxFits (t : Triangle) : Prop :=
  (t.high.x - t.low.x) * (t.high.y - t.low.y) ≤ 2 ^ 31 - 1

instance (t : Triangle) : Decidable t.BoxFits :=
  inferInstanceAs (Decidable (_ ≤ _))

/-- Whether a pixel is in the closed triangle between the corners. -/
def Holds (t : Triangle) (x y : Int) : Prop :=
  Point.InTriangle ⟨x, y⟩ t.first.point t.second.point t.third.point

/-- Twice the area with the last two corners exchanged. It is positive if the
front is seen. -/
def frontArea (t : Triangle) : Int :=
  Point.cross t.first.point t.third.point t.second.point

/-- Whether the side of a triangle that is seen is a drawn one. Of a triangle
without an area no side is seen. -/
def Faces (culling : Culling) (t : Triangle) : Prop :=
  match culling with
  | .frontOnly => 0 < t.frontArea
  | .twoSided => t.frontArea ≠ 0

instance (culling : Culling) (t : Triangle) :
    Decidable (t.Faces culling) := by
  unfold Faces
  cases culling <;> infer_instance

variable {culling : Culling} {policy : Policy} {test : DepthTest}
  {scissor clip : Region} {t : Triangle} {s : Surface} {low high : Point}

/-! ## The box -/

theorem inBox_corners (t : Triangle) :
    t.first.point.InBox t.low t.high ∧ t.second.point.InBox t.low t.high
      ∧ t.third.point.InBox t.low t.high := by
  simp only [Point.InBox, Triangle.low, Triangle.high, ScreenVertex.point]
  omega

/-- The box in whole numbers. Its exclusive ends stop at the largest
coordinate. -/
theorem toInt_box (t : Triangle) :
    t.box.left.toInt = t.low.x ∧ t.box.top.toInt = t.low.y
      ∧ t.box.right.toInt = min (t.high.x + 1) Coordinate.largest
      ∧ t.box.bottom.toInt = min (t.high.y + 1) Coordinate.largest := by
  simp only [box, Coordinate.toInt_next, Coordinate.toInt_min,
    Coordinate.toInt_max]
  exact ⟨rfl, rfl, rfl, rfl⟩

/-- The box of a triangle loses no pixel of a clip region. -/
theorem covers_box_inter {x y : Int} :
    (t.box.inter clip).Covers x y
      ↔ Point.InBox ⟨x, y⟩ t.low t.high ∧ clip.Covers x y := by
  obtain ⟨hl, ht, hr, hb⟩ := t.toInt_box
  -- a clip region ends at the largest coordinate too, so what the box loses
  -- there would have been clipped away in any case
  have hright := clip.right.toInt_lt
  have hbottom := clip.bottom.toInt_lt
  unfold Coordinate.largest at hr hb
  rw [Region.covers_inter]
  simp only [Region.Covers, Point.InBox]
  omega

/-! ## The order of the corners -/

/-- A triangle all corners of which are in a box that is not too large. -/
structure InBox (t : Triangle) (low high : Point) : Prop where
  fits : (high.x - low.x) * (high.y - low.y) ≤ 2 ^ 31 - 1
  first : t.first.point.InBox low high
  second : t.second.point.InBox low high
  third : t.third.point.InBox low high

theorem BoxFits.inBox (h : t.BoxFits) : t.InBox t.low t.high :=
  ⟨h, t.inBox_corners.1, t.inBox_corners.2.1, t.inBox_corners.2.2⟩

theorem InBox.flip (h : t.InBox low high) : t.flip.InBox low high :=
  ⟨h.fits, h.first, h.third, h.second⟩

theorem InBox.drawn (h : t.InBox low high) (culling : Culling) :
    (t.drawn culling).InBox low high := by
  unfold Triangle.drawn
  split
  · exact h
  · exact h.flip

/-- The area of a triangle is that of its corners. -/
theorem InBox.toInt_area (h : t.InBox low high) :
    (Edge.area t).toInt
      = Point.cross t.first.point t.second.point t.third.point :=
  Edge.toInt_eval_through h.fits h.first h.second h.third

/-- A triangle has a positive area in the order in which it is drawn exactly if
a drawn side is seen. -/
theorem InBox.area_drawn_pos_iff (h : t.InBox low high) :
    0 < Edge.area (t.drawn culling) ↔ t.Faces culling := by
  have hflip : (Edge.area t.flip).toInt = t.frontArea := h.flip.toInt_area
  have hback : (Edge.area t).toInt = -t.frontArea := by
    rw [h.toInt_area, frontArea]
    exact Point.cross_swap ..
  cases culling with
  | frontOnly =>
    rw [drawn_frontOnly, Int32.lt_iff_toInt_lt, hflip]
    rfl
  | twoSided =>
    show _ ↔ t.frontArea ≠ 0
    unfold Triangle.drawn
    split
    -- the front is not seen: the corners are drawn as they come
    · next hneg =>
      obtain ⟨hneg, -⟩ := hneg
      rw [Int32.lt_iff_toInt_lt, hflip, Int32.toInt_zero] at hneg
      rw [Int32.lt_iff_toInt_lt, hback, Int32.toInt_zero]
      omega
    · next hneg =>
      have hneg : ¬ Edge.area t.flip < 0 := fun h' => hneg ⟨h', rfl⟩
      rw [Int32.lt_iff_toInt_lt, hflip, Int32.toInt_zero] at hneg
      rw [Int32.lt_iff_toInt_lt, hflip, Int32.toInt_zero]
      omega

/-- The order in which the corners are drawn does not move the triangle. -/
theorem holds_drawn_iff {x y : Int} :
    (t.drawn culling).Holds x y ↔ t.Holds x y := by
  unfold Triangle.drawn
  split
  · rfl
  · exact ⟨Point.InTriangle.swap, Point.InTriangle.swap⟩

/-- At a pixel of its box, a triangle of positive area is inside its edges
exactly if it holds the pixel. -/
theorem InBox.inside_valuesAt_iff (h : t.InBox low high)
    (harea : 0 < Edge.area t) {region : Region} {x y : Int32}
    (hz : Point.InBox ⟨x.toInt, y.toInt⟩ low high) :
    Walk.inside ((t.walkIn region).valuesAt x y) = true
      ↔ t.Holds x.toInt y.toInt := by
  have hpos : 0 < Point.cross t.first.point t.second.point t.third.point := by
    rw [← h.toInt_area]
    exact Int32.lt_iff_toInt_lt.1 harea
  have h₁ := Edge.toInt_eval_through h.fits hz h.second h.third
  have h₂ := Edge.toInt_eval_through h.fits hz h.third h.first
  have h₃ := Edge.toInt_eval_through h.fits hz h.first h.second
  show Walk.inside ((Edge.ofCorners t).map (·.eval x y)) = true ↔ _
  rw [Walk.inside_iff, Holds, Point.inTriangle_iff hpos]
  simp only [Triple.map, Edge.ofCorners, h₁, h₂, h₃]

/-! ## Coverage -/

/-- **Fragments are the pixels of the closed triangle** that are in the clip
region, if a drawn side of the triangle is seen and the test is not turned
away. -/
theorem pixel_mem_fragments_iff (h : t.BoxFits) (mode : LaneMode)
    {x y : Nat} :
    (x, y) ∈ (t.fragments mode policy test (s.clip scissor)).map
        Fragment.pixel
      ↔ (s.clip scissor).Covers x y ∧ t.Holds x y
        ∧ t.Faces policy.culling
        ∧ ¬ (test = .never ∧ policy.triangleNever = .reject) := by
  -- the drawn triangle has the same box, where wrapped values are exact
  have hdrawn := h.inBox.drawn policy.culling
  rw [mem_pixel_fragments_iff, ← effectiveTest?_eq_none_iff]
  constructor
  · rintro ⟨test', walk, hplan, hcovers, hinside⟩
    -- a fragment: its pixel is inside by the edge values
    obtain ⟨htest, -, harea, rfl⟩ := plan_eq_ok_iff.1 hplan
    obtain ⟨hz, hclip⟩ := covers_box_inter.1 hcovers
    obtain ⟨hx, hy⟩ := hclip.toInt_ofNat
    rw [← hx, ← hy] at hz
    have hholds := (hdrawn.inside_valuesAt_iff harea hz).1 hinside
    rw [hx, hy] at hholds
    refine ⟨hclip, holds_drawn_iff.1 hholds, h.inBox.area_drawn_pos_iff.1 harea,
      ?_⟩
    rw [htest]
    exact Option.some_ne_none _
  · rintro ⟨hclip, hholds, hfaces, htest⟩
    obtain ⟨test', htest⟩ := Option.ne_none_iff_exists'.1 htest
    obtain ⟨hfirst, hsecond, hthird⟩ := t.inBox_corners
    have harea := h.inBox.area_drawn_pos_iff.2 hfaces
    -- a pixel of the triangle is in its box, so the plan is not turned down
    have hz := hholds.inBox hfirst hsecond hthird
    have hcovers := covers_box_inter.2 ⟨hz, hclip⟩
    have hempty : (t.box.inter (s.clip scissor)).isEmpty = false := by
      refine Bool.eq_false_iff.2 fun hempty => ?_
      exact Region.isEmpty_iff_covers.1 hempty x y hcovers
    refine ⟨test', _, plan_eq_ok_iff.2 ⟨htest, hempty, harea, rfl⟩, hcovers, ?_⟩
    obtain ⟨hx, hy⟩ := hclip.toInt_ofNat
    rw [← hx, ← hy] at hz
    refine (hdrawn.inside_valuesAt_iff harea hz).2 ?_
    rw [hx, hy]
    exact holds_drawn_iff.2 hholds

/-- **Exact coverage**: painting a triangle whose box fits a word tests each
pixel of the surface that is in the scissor and in the closed triangle once, and
no other pixel. If no drawn side is seen or the test is turned away it tests
none. -/
theorem paint_tests_inTriangle (mode : LaneMode) (policy : Policy)
    (test : DepthTest) (scissor : Region) (t : Triangle) (s : Surface)
    (h : t.BoxFits) :
    let fs := t.fragments mode policy test (s.clip scissor)
    (∀ x y : Nat, (x, y) ∈ fs.map Fragment.pixel
        ↔ (scissor.Covers x y ∧ x < s.layout.width ∧ y < s.layout.height)
          ∧ t.Holds x y ∧ t.Faces policy.culling
          ∧ ¬ (test = .never ∧ policy.triangleNever = .reject))
      ∧ (fs.map Fragment.pixel).Nodup
      ∧ (t.paint mode policy test scissor s).surface
          = (Tested.fragments
              ((effectiveTest? policy.triangleNever test).getD test)
              fs s).surface
      ∧ (t.paint mode policy test scissor s).work.pixelsTested
          = fs.length.toUInt64 := by
  refine ⟨fun x y => ?_, nodup_pixel_fragments mode, (paint_eq_tests mode).1,
    ?_⟩
  · have hclip : (s.clip scissor).Covers x y
        ↔ scissor.Covers x y ∧ x < s.layout.width ∧ y < s.layout.height := by
      rw [Surface.covers_clip]
      refine and_congr_right fun _ => ?_
      omega
    rw [pixel_mem_fragments_iff h, hclip]
  · rw [pixelsTested_paint, tested_tests]

/-- A triangle 2000 columns wide and 2 ^ 20 rows high, far to the right on a
surface of one row. The products of its edge functions exceed a word many times
over, and still the last pixel of the row is found. -/
theorem tests_last_pixel_of_wide_row :
    let t : Triangle := ⟨⟨59000, -524288, 0, false⟩,
      ⟨59000, 524288, 0, false⟩, ⟨61000, -524288, 9, false⟩⟩
    t.BoxFits
      ∧ (59999, 0) ∈ (t.fragments .wide {} .less
          ((Surface.blank 60000 1).clip ⟨-5, -5, 70000, 9⟩)).map
            Fragment.pixel := by
  intro t
  have hfits : t.BoxFits := by decide
  have hholds : Point.InTriangle ⟨59999, 0⟩ ⟨59000, -524288⟩
      ⟨59000, 524288⟩ ⟨61000, -524288⟩ :=
    ⟨1 / 2000, 1 / 2, 999 / 2000, by norm_num, by norm_num, by norm_num,
      by norm_num, by norm_num, by norm_num⟩
  have hpixels := (paint_tests_inTriangle .wide {} .less ⟨-5, -5, 70000, 9⟩ t
    (.blank 60000 1) hfits).1
  refine ⟨hfits, (hpixels 59999 0).2 ⟨by decide, ?_, by decide, by decide⟩⟩
  exact hholds

end Triangle

end DepthPrepass
