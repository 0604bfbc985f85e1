import DepthPrepass.Proofs.Coverage
import DepthPrepass.Proofs.Encodings
import DepthPrepass.Proofs.Expansion

/-!
# Triangles between half-words

Screen coordinates that are stored as half-words are taken as they are. Any two of
them differ by less than `2 ^ 16`, so areas are less than `2 ^ 32` in magnitude. That
is twice as much as words can hold: areas wrap, but not more than once. What is then
taken for positive is what is positive and fits, or so far below zero that it comes
back from the other end.

* `Edge.WrapsInside`, `Edge.WrapsPositive`: what words take to be not negative and
  positive.
* `Triangle.culled_halfWords_iff`, `Triangle.pixel_mem_fragments_halfWords_iff`: which
  triangles are culled, and which pixels the others test.
* `Triangle.EdgesFit`: when nothing wraps.
* `Draw.run_halfWord_triangles`: draws of such triangles.
-/

namespace DepthPrepass

/-! ## Wrapping once -/

namespace Edge

/-- Whether a number is a word. -/
def Fits (n : Int) : Prop :=
  -2 ^ 31 ≤ n ∧ n < 2 ^ 31

/-- Whether a number is not negative as a word, if it is less than `2 ^ 32` in
magnitude. -/
def WrapsInside (n : Int) : Prop :=
  (0 ≤ n ∧ n < 2 ^ 31) ∨ n < -2 ^ 31

/-- Whether such a number is positive as a word. -/
def WrapsPositive (n : Int) : Prop :=
  (0 < n ∧ n < 2 ^ 31) ∨ n < -2 ^ 31

variable {n : Int}

theorem nonneg_ofInt_iff (h : n.natAbs < 2 ^ 32) :
    0 ≤ (Int32.ofInt n).toInt ↔ WrapsInside n := by
  rw [Int32.toInt_ofInt, WrapsInside, Int.bmod_def]
  unfold Int32.size
  omega

theorem pos_ofInt_iff (h : n.natAbs < 2 ^ 32) :
    0 < (Int32.ofInt n).toInt ↔ WrapsPositive n := by
  rw [Int32.toInt_ofInt, WrapsPositive, Int.bmod_def]
  unfold Int32.size
  omega

/-- What fits a word does not wrap. -/
theorem Fits.wrapsInside_iff (h : Fits n) : WrapsInside n ↔ 0 ≤ n := by
  unfold Fits at h
  unfold WrapsInside
  omega

theorem Fits.wrapsPositive_iff (h : Fits n) : WrapsPositive n ↔ 0 < n := by
  unfold Fits at h
  unfold WrapsPositive
  omega

end Edge

/-! ## Points with half-words for coordinates -/

namespace Point

/-- Whether the coordinates of a point are half-words. -/
def IsHalfWords (z : Point) : Prop :=
  z.InBox ⟨-2 ^ 15, -2 ^ 15⟩ ⟨2 ^ 15 - 1, 2 ^ 15 - 1⟩

instance (z : Point) : Decidable z.IsHalfWords :=
  inferInstanceAs (Decidable (z.InBox _ _))

variable {p q r : Point}

theorem natAbs_cross_lt (hp : p.IsHalfWords) (hq : q.IsHalfWords)
    (hr : r.IsHalfWords) : (cross p q r).natAbs < 2 ^ 32 := by
  have hle := cross_le_of_inBox hp hq hr
  have hge := neg_le_cross_of_inBox hp hq hr
  norm_num at hle hge
  omega

end Point

/-! ## Triangles -/

namespace Triangle

/-- Whether all coordinates of the corners are half-words. -/
def InHalfWords (t : Triangle) : Prop :=
  t.first.point.IsHalfWords ∧ t.second.point.IsHalfWords
    ∧ t.third.point.IsHalfWords

/-- The exact values of the edge functions at a point, with the corners in the order
in which the front is drawn. -/
def frontEdges (t : Triangle) (z : Point) : Triple Int :=
  ⟨Point.cross z t.third.point t.second.point,
    Point.cross z t.second.point t.first.point,
    Point.cross z t.first.point t.third.point⟩

/-- Whether the area and the edge values at the pixels of the box that are in the clip
region fit a word. -/
def EdgesFit (clip : Region) (t : Triangle) : Prop :=
  Edge.Fits t.frontArea
    ∧ ∀ x y : Int, clip.Covers x y → Point.InBox ⟨x, y⟩ t.low t.high →
      ∀ value ∈ (t.frontEdges ⟨x, y⟩).toList, Edge.Fits value

variable {policy : Policy} {test : DepthTest} {scissor clip : Region}
  {t : Triangle} {s : Surface}

/-- A box that is not too large is enough for that. -/
theorem BoxFits.edgesFit (h : t.BoxFits) (clip : Region) : t.EdgesFit clip := by
  obtain ⟨hfirst, hsecond, hthird⟩ := t.inBox_corners
  -- every value is twice the area of a triangle in the box
  have hfits {p q r : Point} (hp : p.InBox t.low t.high)
      (hq : q.InBox t.low t.high) (hr : r.InBox t.low t.high) :
      Edge.Fits (Point.cross p q r) := by
    have hle := Point.cross_le_of_inBox hp hq hr
    have hge := Point.neg_le_cross_of_inBox hp hq hr
    unfold BoxFits at h
    unfold Edge.Fits
    omega
  refine ⟨hfits hfirst hthird hsecond, fun x y _ hz => ?_⟩
  rw [Triple.forall_mem_toList]
  exact ⟨hfits hz hthird hsecond, hfits hz hsecond hfirst,
    hfits hz hfirst hthird⟩

/-- The exact edge values tell which pixels a triangle holds, if its front is
seen. -/
theorem holds_iff_frontEdges (h : 0 < t.frontArea) {x y : Int} :
    t.Holds x y ↔ ∀ value ∈ (t.frontEdges ⟨x, y⟩).toList, 0 ≤ value := by
  have hswap : t.Holds x y ↔ Point.InTriangle ⟨x, y⟩ t.first.point
      t.third.point t.second.point :=
    ⟨Point.InTriangle.swap, Point.InTriangle.swap⟩
  rw [hswap, Point.inTriangle_iff h, Triple.forall_mem_toList]
  rfl

namespace InHalfWords

/-- The points of the box have half-words for coordinates, too. -/
theorem of_inBox (h : t.InHalfWords) {z : Point} (hz : z.InBox t.low t.high) :
    z.IsHalfWords := by
  simp only [InHalfWords, Point.IsHalfWords, Point.InBox, ScreenVertex.point]
    at h
  simp only [Point.InBox, low, high] at hz
  simp only [Point.IsHalfWords, Point.InBox]
  omega

/-- Whether the area is positive as a word. -/
theorem area_pos_iff (h : t.InHalfWords) :
    0 < Edge.area (t.drawn .frontOnly) ↔ Edge.WrapsPositive t.frontArea := by
  obtain ⟨hfirst, hsecond, hthird⟩ := h
  have harea : Edge.area t.flip = Int32.ofInt t.frontArea :=
    Edge.eval_through ..
  rw [drawn_frontOnly, harea, Int32.lt_iff_toInt_lt, Int32.toInt_zero]
  exact Edge.pos_ofInt_iff (Point.natAbs_cross_lt hfirst hthird hsecond)

/-- Whether a pixel of the box is taken to be inside. -/
theorem inside_iff (h : t.InHalfWords) (region : Region) {x y : Int32}
    (hz : Point.InBox ⟨x.toInt, y.toInt⟩ t.low t.high) :
    Walk.inside (((t.drawn .frontOnly).walkIn region).valuesAt x y) = true
      ↔ ∀ value ∈ (t.frontEdges ⟨x.toInt, y.toInt⟩).toList,
        Edge.WrapsInside value := by
  -- a pixel of the box is between half-words, as the corners are
  have hz' : Point.IsHalfWords ⟨x.toInt, y.toInt⟩ := h.of_inBox hz
  obtain ⟨hfirst, hsecond, hthird⟩ := h
  have hvalue {p q : ScreenVertex} (hp : p.point.IsHalfWords)
      (hq : q.point.IsHalfWords) :
      0 ≤ ((Edge.through p q).eval x y).toInt
        ↔ Edge.WrapsInside (Point.cross ⟨x.toInt, y.toInt⟩ p.point q.point) := by
    rw [Edge.eval_through]
    exact Edge.nonneg_ofInt_iff (Point.natAbs_cross_lt hz' hp hq)
  rw [drawn_frontOnly]
  show Walk.inside ((Edge.ofCorners t.flip).map (·.eval x y)) = true ↔ _
  rw [Walk.inside_iff, Triple.forall_mem_toList]
  -- the drawn triangle is the mirrored one, so its edges are reversed
  exact and_congr (hvalue hthird hsecond)
    (and_congr (hvalue hsecond hfirst) (hvalue hfirst hthird))

end InHalfWords

/-- A box and a clip region have a pixel in common. -/
theorem isEmpty_box_inter_eq_false_iff :
    (t.box.inter clip).isEmpty = false
      ↔ ∃ x y : Int, clip.Covers x y ∧ Point.InBox ⟨x, y⟩ t.low t.high := by
  rw [Bool.eq_false_iff, ne_eq, Region.isEmpty_iff_covers]
  push Not
  simp only [covers_box_inter, and_comm]

/-- **Which triangles are culled**: those that meet the clip region and do not have
a positive area as a word. -/
theorem culled_halfWords_iff (h : t.InHalfWords)
    (hculling : policy.culling = .frontOnly) (mode : LaneMode) :
    (t.paint mode policy test scissor s).work.trianglesCulled = 1
      ↔ ¬ (test = .never ∧ policy.triangleNever = .reject)
        ∧ (∃ x y : Int, (s.clip scissor).Covers x y
          ∧ Point.InBox ⟨x, y⟩ t.low t.high)
        ∧ ¬ Edge.WrapsPositive t.frontArea := by
  rw [trianglesCulled_paint_iff, plan_eq_culled_iff, hculling, h.area_pos_iff,
    isEmpty_box_inter_eq_false_iff, ne_eq, effectiveTest?_eq_none_iff]

/-- **Which pixels are tested**: those of the box at which each edge value is not
negative as a word. -/
theorem pixel_mem_fragments_halfWords_iff (h : t.InHalfWords)
    (hculling : policy.culling = .frontOnly) (mode : LaneMode) {x y : Nat} :
    (x, y) ∈ (t.fragments mode policy test (s.clip scissor)).map
        Fragment.pixel
      ↔ ¬ (test = .never ∧ policy.triangleNever = .reject)
        ∧ Edge.WrapsPositive t.frontArea
        ∧ (s.clip scissor).Covers x y ∧ Point.InBox ⟨x, y⟩ t.low t.high
        ∧ ∀ value ∈ (t.frontEdges ⟨x, y⟩).toList, Edge.WrapsInside value := by
  -- in the clip region coordinates are not negative, so words and indices agree
  have hinside {region : Region} (hclip : (s.clip scissor).Covers x y)
      (hz : Point.InBox ⟨x, y⟩ t.low t.high) :
      Walk.inside (((t.drawn .frontOnly).walkIn region).valuesAt (.ofNat x)
          (.ofNat y)) = true
        ↔ ∀ value ∈ (t.frontEdges ⟨x, y⟩).toList, Edge.WrapsInside value := by
    obtain ⟨hx, hy⟩ := hclip.toInt_ofNat
    have hinside := h.inside_iff region (x := .ofNat x) (y := .ofNat y)
    rw [hx, hy] at hinside
    exact hinside hz
  rw [mem_pixel_fragments_iff, ← effectiveTest?_eq_none_iff]
  constructor
  · rintro ⟨test', walk, hplan, hcovers, hwalk⟩
    obtain ⟨htest, -, harea, rfl⟩ := plan_eq_ok_iff.1 hplan
    obtain ⟨hz, hclip⟩ := covers_box_inter.1 hcovers
    rw [hculling] at harea hwalk
    refine ⟨?_, h.area_pos_iff.1 harea, hclip, hz, (hinside hclip hz).1 hwalk⟩
    rw [htest]
    exact Option.some_ne_none _
  · rintro ⟨htest, harea, hclip, hz, hvalues⟩
    obtain ⟨test', htest⟩ := Option.ne_none_iff_exists'.1 htest
    -- the pixel is in the box and in the clip region, so the two meet
    have hmeets := isEmpty_box_inter_eq_false_iff.2 ⟨x, y, hclip, hz⟩
    have harea := h.area_pos_iff.2 harea
    rw [← hculling] at harea
    refine ⟨test', _, plan_eq_ok_iff.2 ⟨htest, hmeets, harea, rfl⟩,
      covers_box_inter.2 ⟨hz, hclip⟩, ?_⟩
    rw [hculling]
    exact (hinside hclip hz).2 hvalues

/-- **If nothing wraps**, the area is positive as a word exactly if it is. -/
theorem EdgesFit.culled_iff (hfit : t.EdgesFit (s.clip scissor))
    (h : t.InHalfWords) (hculling : policy.culling = .frontOnly)
    (mode : LaneMode) :
    (t.paint mode policy test scissor s).work.trianglesCulled = 1
      ↔ ¬ (test = .never ∧ policy.triangleNever = .reject)
        ∧ (∃ x y : Int, (s.clip scissor).Covers x y
          ∧ Point.InBox ⟨x, y⟩ t.low t.high)
        ∧ t.frontArea ≤ 0 := by
  rw [culled_halfWords_iff h hculling, hfit.1.wrapsPositive_iff, Int.not_lt]

/-- The pixels that are tested then are those that the triangle holds. -/
theorem EdgesFit.pixel_mem_fragments_iff (hfit : t.EdgesFit (s.clip scissor))
    (h : t.InHalfWords) (hculling : policy.culling = .frontOnly)
    (mode : LaneMode) {x y : Nat} :
    (x, y) ∈ (t.fragments mode policy test (s.clip scissor)).map
        Fragment.pixel
      ↔ ¬ (test = .never ∧ policy.triangleNever = .reject)
        ∧ 0 < t.frontArea ∧ (s.clip scissor).Covers x y ∧ t.Holds x y := by
  obtain ⟨harea, hedges⟩ := hfit
  rw [pixel_mem_fragments_halfWords_iff h hculling, harea.wrapsPositive_iff]
  refine and_congr_right fun _ => and_congr_right fun hfront =>
    and_congr_right fun hclip => ?_
  rw [holds_iff_frontEdges hfront]
  constructor
  · rintro ⟨hz, hvalues⟩ value hvalue
    exact (hedges x y hclip hz value hvalue).wrapsInside_iff.1
      (hvalues value hvalue)
  · intro hvalues
    -- where no edge value is negative the pixel is in the box
    obtain ⟨hfirst, hsecond, hthird⟩ := t.inBox_corners
    have hz := ((holds_iff_frontEdges hfront).2 hvalues).inBox hfirst hsecond
      hthird
    exact ⟨hz, fun value hvalue =>
      (hedges x y hclip hz value hvalue).wrapsInside_iff.2
        (hvalues value hvalue)⟩

end Triangle

/-! ## Positions that are half-words -/

open PositionFormat in
/-- The point on the screen that a position of half-words is. -/
def VertexLayout.halfWordPoint (layout : VertexLayout) (data : Array UInt8)
    (i : Nat) : Point :=
  let coordinate (j : Nat) :=
    (halfWordAt data (layout.address .int16 i j)).toInt16.toInt
  ⟨coordinate 0, coordinate 1⟩

theorem VertexLayout.isHalfWords_halfWordPoint (layout : VertexLayout)
    (data : Array UInt8) (i : Nat) :
    (layout.halfWordPoint data i).IsHalfWords := by
  have hbounds (v : Int16) : -2 ^ 15 ≤ v.toInt ∧ v.toInt ≤ 2 ^ 15 - 1 := by
    have hlo := v.le_toInt
    have hhi := v.toInt_lt
    omega
  exact ⟨(hbounds _).1, (hbounds _).2, (hbounds _).1, (hbounds _).2⟩

namespace Draw

variable {draw : Draw} {layout : VertexLayout} {state : RenderState}
  {data : Array UInt8}

/-- A vertex whose position is a screen coordinate is not behind the camera. -/
theorem behind_vertexAt (hthrough : draw.type.through = true) (i : Nat) :
    (draw.vertexAt layout state data i).behind = false := by
  unfold vertexAt
  rw [if_pos hthrough]
  rfl

/-- Screen coordinates that are stored as half-words are taken as they are. -/
theorem point_vertexAt (hthrough : draw.type.through = true)
    (hposition : draw.type.position = .int16) (i : Nat) :
    (draw.vertexAt layout state data i).point
      = layout.halfWordPoint data i := by
  -- a half-word has less than the twenty-four digits that a float keeps
  have hcomponent (address : Nat) :
      (Binary32.toInt32 (PositionFormat.componentAt .int16 true data
          address)).toInt
        = (PositionFormat.halfWordAt data address).toInt16.toInt := by
    have hsmall := PositionFormat.natAbs_toInt16_lt
      (PositionFormat.halfWordAt data address).toInt16
    show (Binary32.toInt32 (Binary32.ofInt16 _
      * PositionFormat.unit .int16 true)).toInt = _
    rw [PositionFormat.ofInt16_eq_fraction,
      PositionFormat.fraction_mul_unit .int16 true hsmall]
    exact Binary32.toInt_toInt32_fraction hsmall
  unfold vertexAt
  rw [if_pos hthrough, hthrough, hposition]
  exact Point.mk.injEq .. ▸ ⟨hcomponent _, hcomponent _⟩

/-- A triangle of a draw. -/
def tripleAt (draw : Draw) (layout : VertexLayout) (state : RenderState)
    (data : Array UInt8) (k : Nat) : Triangle :=
  (Topology.list.triangle k).map (draw.vertexAt layout state data)

theorem map_point_tripleAt (hthrough : draw.type.through = true)
    (hposition : draw.type.position = .int16) (k : Nat) :
    (draw.tripleAt layout state data k).map (·.point)
      = (Topology.list.triangle k).map (layout.halfWordPoint data) := by
  simp only [tripleAt, Triple.map, point_vertexAt hthrough hposition]

/-- The corners of its triangles are half-words. -/
theorem inHalfWords_tripleAt (hthrough : draw.type.through = true)
    (hposition : draw.type.position = .int16) (k : Nat) :
    (draw.tripleAt layout state data k).InHalfWords := by
  have hcorner (i : Nat) :
      (draw.vertexAt layout state data i).point.IsHalfWords := by
    rw [point_vertexAt hthrough hposition]
    exact layout.isHalfWords_halfWordPoint data i
  exact ⟨hcorner _, hcorner _, hcorner _⟩

/-- Of screen coordinates no triangle is left out. -/
theorem assembledShapes_of_through (hthrough : draw.type.through = true)
    (n : Nat) :
    assembledShapes (.triangles .list) (draw.vertexAt layout state data) n
      = (List.range (n / 3)).map fun k =>
          .triangle (draw.tripleAt layout state data k) := by
  have hfront (t : Triple Nat) :
      (!(t.map (draw.vertexAt layout state data)).any (·.behind)) = true := by
    simp only [Triple.any, Triple.map, behind_vertexAt hthrough, Bool.or_self,
      Bool.not_false]
  unfold assembledShapes assembled
  dsimp only
  rw [Topology.triangles_eq, List.filter_eq_self.2, List.map_map, List.map_map]
  · rfl
  · intro t ht
    obtain ⟨corners, -, rfl⟩ := List.mem_map.1 ht
    exact hfront corners

/-- The strokes of a draw of triangles between screen coordinates. -/
theorem strokes_of_through (r : Rasterizer) (scissor : Region)
    (hprimitive : draw.primitive = .triangles)
    (hthrough : draw.type.through = true) {test : DepthTest}
    {assembly : Assembly}
    (hcheck : draw.check state.registers = .ok (test, assembly))
    {capacity : Nat} (h : draw.fate layout state data capacity = .drawn) :
    draw.strokes r scissor layout state data capacity
      = (List.range (draw.vertices / 3)).map fun k =>
          ⟨r, scissor, test, .triangle (draw.tripleAt layout state data k)⟩ := by
  have hassembly := (eq_of_check_eq_ok hcheck).2
  rw [hprimitive] at hassembly
  cases hassembly
  unfold strokes shapes
  rw [h, hcheck]
  dsimp only
  rw [assembledShapes_of_through hthrough, List.map_map, List.map_map]
  rfl

/-- **Draws of triangles between half-words** that are screen coordinates, if only
the front is drawn. The draw paints its triangles one after another, and the corners
of a triangle are the points that its positions are. With the exact area, and the
exact edge values at the pixels that the box shares with the clip region, on each
surface:

* the triangle is culled if it meets the clip region and the area is either not
  positive and fits a word, or is positive and does not;
* otherwise a pixel is tested if each edge value is not negative and fits a word, or
  is negative and does not;
* if they all fit a word, as they do in a box that is not too large, the triangle is
  culled if the area is not positive, and otherwise the pixels in the closed triangle
  are tested.

A triangle whose test is turned away is neither culled nor does it test pixels. -/
theorem run_halfWord_triangles (r : Rasterizer) (scissor : Region) (draw : Draw)
    (layout : VertexLayout) (state : RenderState) (data : Array UInt8)
    (scratch : Scratch) (s : Surface) (hprimitive : draw.primitive = .triangles)
    (hthrough : draw.type.through = true)
    (hposition : draw.type.position = .int16)
    (hculling : r.policy.culling = .frontOnly)
    (h : draw.fate layout state data scratch.capacity = .drawn) :
    ∃ test, state.registers.effectiveTest = .ok test
      ∧ (draw.run r scissor layout state data scratch s).Follows
        ((List.range (draw.vertices / 3)).map fun k =>
          ⟨r, scissor, test, .triangle (draw.tripleAt layout state data k)⟩) s
      ∧ ∀ (k : Nat) (own : Surface),
        let t := draw.tripleAt layout state data k
        let clip := own.clip scissor
        let painted := r.paintTriangle scissor t test own
        let fs := t.fragments r.mode r.policy test clip
        let turnedAway := test = .never ∧ r.policy.triangleNever = .reject
        t.map (·.point)
            = (Topology.list.triangle k).map (layout.halfWordPoint data)
          ∧ (painted.work.trianglesCulled = 1
            ↔ ¬ turnedAway
              ∧ (∃ x y : Int, clip.Covers x y
                ∧ Point.InBox ⟨x, y⟩ t.low t.high)
              ∧ (-2 ^ 31 ≤ t.frontArea ∧ t.frontArea ≤ 0
                ∨ 2 ^ 31 ≤ t.frontArea))
          ∧ painted.work.pixelsTested = fs.length.toUInt64
          ∧ (fs.map Fragment.pixel).Nodup
          ∧ (∀ x y : Nat, (x, y) ∈ fs.map Fragment.pixel
            ↔ ¬ turnedAway ∧ Edge.WrapsPositive t.frontArea
              ∧ clip.Covers x y ∧ Point.InBox ⟨x, y⟩ t.low t.high
              ∧ ∀ value ∈ (t.frontEdges ⟨x, y⟩).toList,
                Edge.WrapsInside value)
          ∧ (t.BoxFits → t.EdgesFit clip)
          ∧ (t.EdgesFit clip →
            (painted.work.trianglesCulled = 1
              ↔ ¬ turnedAway
                ∧ (∃ x y : Int, clip.Covers x y
                  ∧ Point.InBox ⟨x, y⟩ t.low t.high)
                ∧ t.frontArea ≤ 0)
            ∧ ∀ x y : Nat, (x, y) ∈ fs.map Fragment.pixel
              ↔ ¬ turnedAway ∧ 0 < t.frontArea ∧ clip.Covers x y
                ∧ t.Holds x y) := by
  obtain ⟨test, assembly, hcheck, -⟩ :=
    run_of_fate_drawn r scissor draw layout state data s h
  -- screen coordinates are never behind the camera
  have hfollows := draw.follows_run r scissor layout state data scratch s
  rw [strokes_of_through r scissor hprimitive hthrough hcheck h] at hfollows
  refine ⟨test, (eq_of_check_eq_ok hcheck).1, hfollows, fun k own => ?_⟩
  intro t clip painted fs turnedAway
  have hwords : t.InHalfWords := inHalfWords_tripleAt hthrough hposition k
  -- not positive: either the exact area is not, or it is too large
  have hwraps : ¬ Edge.WrapsPositive t.frontArea
      ↔ -2 ^ 31 ≤ t.frontArea ∧ t.frontArea ≤ 0 ∨ 2 ^ 31 ≤ t.frontArea := by
    unfold Edge.WrapsPositive
    omega
  refine ⟨map_point_tripleAt hthrough hposition k, ?_, ?_,
    Triangle.nodup_pixel_fragments r.mode, fun x y =>
      Triangle.pixel_mem_fragments_halfWords_iff hwords hculling r.mode,
    fun hbox => hbox.edgesFit clip, fun hfit =>
      ⟨hfit.culled_iff hwords hculling r.mode, fun x y =>
        hfit.pixel_mem_fragments_iff hwords hculling r.mode⟩⟩
  · rw [← hwraps]
    exact Triangle.culled_halfWords_iff hwords hculling r.mode
  · exact (Triangle.pixelsTested_paint r.mode).trans
      (congrArg Nat.toUInt64 (Triangle.tested_tests r.mode))

/-- Two triangles: one half of the square of all half-words, the area of which wraps
below zero, and a small one. The large one is culled. -/
theorem run_halfWord_triangles_large_small :
    let draw : Draw :=
      ⟨.triangles, 6, { position := .int16, through := true }, .clockwise⟩
    let layout : VertexLayout := .packed .int16
    let data : Array UInt8 :=
      #[0, 128, 0, 128, 0, 0, 255, 127, 255, 127, 0, 0, 255, 127, 0, 128, 0, 0,
        0, 0, 0, 0, 0, 0, 0, 0, 4, 0, 0, 0, 4, 0, 0, 0, 0, 0]
    let s : Surface := .blank 8 8
    draw.fate layout {} data 6 = .drawn
      ∧ 2 ^ 31 ≤ (draw.tripleAt layout {} data 0).frontArea
      ∧ (Rasterizer.standard.paintTriangle s.bounds
        (draw.tripleAt layout {} data 0) .always s).work.trianglesCulled = 1
      ∧ (draw.tripleAt layout {} data 1).BoxFits
      ∧ (1, 2) ∈ ((draw.tripleAt layout {} data 1).fragments .wide {} .always
        (s.clip s.bounds)).map Fragment.pixel := by
  intro draw layout data s
  have hfate : draw.fate layout {} data (Scratch.ofCapacity 6).capacity
      = .drawn := by decide +kernel
  obtain ⟨test, htest, -, hpainted⟩ := run_halfWord_triangles .standard s.bounds
    draw layout {} data (.ofCapacity 6) s rfl rfl rfl rfl hfate
  obtain rfl : DepthTest.always = test := Except.ok.inj htest
  obtain ⟨-, hculled, -⟩ := hpainted 0 s
  obtain ⟨-, -, -, -, -, hbox, hexact⟩ := hpainted 1 s
  have hmeets : ∃ x y : Int, (s.clip s.bounds).Covers x y
      ∧ Point.InBox ⟨x, y⟩ (draw.tripleAt layout {} data 0).low
        (draw.tripleAt layout {} data 0).high :=
    ⟨0, 0, by decide, by decide +kernel⟩
  have hlarge : 2 ^ 31 ≤ (draw.tripleAt layout {} data 0).frontArea := by
    decide +kernel
  have hfits : (draw.tripleAt layout {} data 1).BoxFits := by decide +kernel
  have hsmall : 0 < (draw.tripleAt layout {} data 1).frontArea := by
    decide +kernel
  have hholds : (draw.tripleAt layout {} data 1).Holds 1 2 := by
    rw [Triangle.holds_iff_frontEdges hsmall]
    decide +kernel
  obtain ⟨-, hpixels⟩ := hexact (hbox hfits)
  have hlost := hculled.2 ⟨nofun, hmeets, .inr hlarge⟩
  have htested := (hpixels 1 2).2 ⟨nofun, hsmall, by decide, hholds⟩
  exact ⟨hfate, hlarge, hlost, hfits, htested⟩

/-- **A large triangle is lost.** Its corners are half-words and its front is seen,
and it holds pixels of the surface. But its area does not fit a word, and so it is
culled. -/
theorem halfWord_triangle_culled :
    let draw : Draw :=
      ⟨.triangles, 3, { position := .int16, through := true }, .clockwise⟩
    let layout : VertexLayout := .packed .int16
    let data : Array UInt8 :=
      #[0, 128, 0, 128, 0, 0, 255, 127, 255, 127, 0, 0, 255, 127, 0, 128, 0, 0]
    let s : Surface := .blank 8 8
    let t := draw.tripleAt layout {} data 0
    let result := draw.run .standard s.bounds layout {} data (.ofCapacity 3) s
    Rasterizer.standard.policy.culling = .frontOnly
      ∧ 0 < t.frontArea ∧ (s.clip s.bounds).Covers 4 2 ∧ t.Holds 4 2
      ∧ result.outcome = .ok (.drawn { triangles := 1 })
      ∧ result.work.trianglesCulled = 1 ∧ result.work.pixelsTested = 0 := by
  intro draw layout data s t result
  have harea : 0 < t.frontArea := by decide +kernel
  have hholds : t.Holds 4 2 := by
    rw [Triangle.holds_iff_frontEdges harea]
    decide +kernel
  have hresult : result.outcome = .ok (.drawn { triangles := 1 })
      ∧ result.work.trianglesCulled = 1 ∧ result.work.pixelsTested = 0 := by
    decide +kernel
  exact ⟨rfl, harea, by decide, hholds, hresult⟩

end Draw

end DepthPrepass
