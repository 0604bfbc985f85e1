import DepthPrepass.Proofs.Coverage
import DepthPrepass.Proofs.DrawStrokes
import DepthPrepass.Proofs.Polygons

/-!
# Fans are watertight

A convex polygon is drawn as a fan, one triangle after another, and pixels on a
diagonal belong to the triangles on both of its sides. Each triangle finds the
pixels that it holds, whatever words have wrapped on the way, as long as the box
of the polygon is not too large. Under the test that always passes a fragment is
a write, so what the fan writes are the pixels of the polygon: none is missed
along a diagonal, and none outside is touched.

* `Tested.fragments_append`, `Stroke.paintAll_triangles`: triangles one after
  another test their fragments one after another.
* `Tested.getElem?_cells_fragments_always`: what fragments that always pass leave.
* `Draw.FanPolygon`: vertices that are the corners of a convex polygon.
* `Draw.paint_fan_inPolygon`: what a fan writes.
-/

namespace DepthPrepass

/-! ## Fragments one after another -/

namespace Tested

variable {test : DepthTest}

/-- How earlier tests have gone is nothing to the later ones, and is only added. -/
theorem visits_start (t : Tested) (vs : List Visit) :
    (t.visits test vs).surface = ((start t.surface).visits test vs).surface
      ∧ (t.visits test vs).passed
        = t.passed + ((start t.surface).visits test vs).passed := by
  obtain ⟨written, hreceives, hpassed⟩ := receives_visits test t vs
  obtain ⟨written', hreceives', hpassed'⟩ :=
    receives_visits test (start t.surface) vs
  obtain ⟨hsurface, rfl⟩ := hreceives.unique hreceives'
  have hstart : (start t.surface).passed = 0 := rfl
  rw [hstart, Nat.zero_add] at hpassed'
  exact ⟨hsurface, by rw [hpassed, hpassed']⟩

theorem fragments_append (fs gs : List Fragment) (s : Surface) :
    let first := fragments test fs s
    let rest := fragments test gs first.surface
    (fragments test (fs ++ gs) s).surface = rest.surface
      ∧ (fragments test (fs ++ gs) s).passed = first.passed + rest.passed := by
  intro first rest
  have hlayout : first.surface.layout = s.layout := by
    simp only [first, fragments_eq_visits, layout_visits]
    rfl
  -- the layout stays the same, so the second part visits the same cells
  have hrest : rest = (start first.surface).visits test
      (gs.map (Fragment.visit s.layout)) := by
    rw [← hlayout]
    exact fragments_eq_visits gs first.surface
  have hall : fragments test (fs ++ gs) s
      = first.visits test (gs.map (Fragment.visit s.layout)) := by
    rw [fragments_eq_visits, List.map_append, visits, List.foldl_append]
    exact congrArg (fun t => visits test t _) (fragments_eq_visits fs s).symm
  rw [hall, hrest]
  exact visits_start first _

/-- Under the test that always passes every fragment is a write. -/
theorem passed_fragments_always {fs : List Fragment} {s : Surface}
    (h : ∀ f ∈ fs, s.index f.x f.y < s.cells.size) :
    (fragments .always fs s).passed = fs.length := by
  have hcells : ∀ v ∈ fs.map (Fragment.visit s.layout),
      v.cell < (start s).surface.cells.size := by
    intro v hv
    obtain ⟨f, hf, rfl⟩ := List.mem_map.1 hv
    exact h f hf
  let t := (start s).visits .always (fs.map (Fragment.visit s.layout))
  have htested : t.tested = 0 + (fs.map (Fragment.visit s.layout)).length :=
    tested_visits hcells
  -- every visited cell is there, so each is tested, and no test fails
  have hbalanced : t.passed + t.failed = t.tested :=
    (balanced_start s).visits _
  have hfailed : t.failed = 0 := Rectangle.failed_visits_always ..
  rw [hfailed, Nat.add_zero, htested, Nat.zero_add, List.length_map] at hbalanced
  rw [fragments_eq_visits]
  exact hbalanced

/-- What a cell holds after fragments that always pass is decided by the last one
that it belongs to. Other cells stay as they are. -/
theorem getElem?_cells_fragments_always (fs : List Fragment) (s : Surface)
    (j : Nat) :
    (fragments .always fs s).surface.cells[j]?
      = (s.cells[j]?).map fun stored =>
          (fs.filter fun f => s.index f.x f.y = j).getLast?.elim stored
            fun f => f.depth.toUInt16 := by
  -- from the right: the last fragment of a cell is the one that decides
  induction fs using List.reverseRecOn with
  | nil => simp [fragments, start]
  | append_singleton fs f ih =>
    have hindex : (fragments .always fs s).surface.index f.x f.y
        = s.index f.x f.y := by
      rw [Surface.index, Surface.index, fragments_eq_visits, layout_visits]
      rfl
    have hlast : fragments .always (fs ++ [f]) s
        = fragment .always (fragments .always fs s) f := by
      rw [fragments, List.foldl_append]
      rfl
    rw [hlast, fragment, getElem?_cells_visit, ih, hindex, Option.map_map]
    refine Option.map_congr fun stored _ => ?_
    by_cases hj : s.index f.x f.y = j
    · simp [hj, DepthTest.passes]
    · simp [hj]

end Tested

/-! ## Triangles one after another -/

namespace Stroke

/-- **Triangles one after another** test their fragments one after another. -/
theorem paintAll_triangles (r : Rasterizer) (scissor : Region)
    (test : DepthTest) (ts : List Triangle) (s : Surface) :
    let strokes : List Stroke := ts.map fun t =>
      ⟨r, scissor, test, .triangle t⟩
    let tests := Tested.fragments
      ((Triangle.effectiveTest? r.policy.triangleNever test).getD test)
      (ts.flatMap fun t =>
        t.fragments r.mode r.policy test (s.clip scissor)) s
    paintAll strokes s = tests.surface
      ∧ ((paintEach strokes s).map (·.written)).sum = tests.passed := by
  induction ts generalizing s with
  | nil => exact ⟨rfl, rfl⟩
  | cons t ts ih =>
    intro strokes tests
    let stroke : Stroke := ⟨r, scissor, test, .triangle t⟩
    let others : List Stroke := ts.map fun t => ⟨r, scissor, test, .triangle t⟩
    let first := t.tests r.mode r.policy test scissor s
    obtain ⟨hsurface, hwritten⟩ : (stroke.paint s).surface = first.surface
        ∧ (stroke.paint s).written = first.passed :=
      Triangle.paint_eq_tests r.mode
    -- what the first triangle leaves has the same clip region
    have hclip : (stroke.paint s).surface.clip scissor = s.clip scissor :=
      congrArg scissor.inter (Surface.bounds_congr (layout_paint stroke s))
    obtain ⟨hrest, hsum⟩ := ih (stroke.paint s).surface
    rw [hclip, hsurface] at hrest hsum
    obtain ⟨hall, hpassed⟩ := Tested.fragments_append
      (t.fragments r.mode r.policy test (s.clip scissor)) _ s
    constructor
    · calc paintAll strokes s
          = paintAll others first.surface := congrArg (paintAll others) hsurface
        _ = _ := hrest
        _ = tests.surface := hall.symm
    · calc ((paintEach strokes s).map (·.written)).sum
          = (stroke.paint s).written
            + ((paintEach others (stroke.paint s).surface).map
              (·.written)).sum := rfl
        _ = first.passed
            + ((paintEach others first.surface).map (·.written)).sum := by
          rw [hwritten, hsurface]
        _ = _ := congrArg (first.passed + ·) hsum
        _ = tests.passed := hpassed.symm

end Stroke

/-! ## Fans -/

/-- A triangle in a box that is not too large has such a box of its own. -/
theorem Triangle.InBox.boxFits {t : Triangle} {low high : Point}
    (h : t.InBox low high) : t.BoxFits := by
  obtain ⟨hfits, h₁, h₂, h₃⟩ := h
  -- the smallest box around the corners is inside the given one
  have hx : 0 ≤ t.high.x - t.low.x
      ∧ t.high.x - t.low.x ≤ high.x - low.x := by
    simp only [Point.InBox, Triangle.low, Triangle.high,
      ScreenVertex.point] at *
    omega
  have hy : 0 ≤ t.high.y - t.low.y
      ∧ t.high.y - t.low.y ≤ high.y - low.y := by
    simp only [Point.InBox, Triangle.low, Triangle.high,
      ScreenVertex.point] at *
    omega
  calc (t.high.x - t.low.x) * (t.high.y - t.low.y)
      ≤ (high.x - low.x) * (high.y - low.y) :=
        mul_le_mul hx.2 hy.2 hy.1 (hx.1.trans hx.2)
    _ ≤ 2 ^ 31 - 1 := hfits

namespace Draw

/-- Triangle `k` of a fan. -/
def fanTriangle (vertex : Nat → ScreenVertex) (k : Nat) : Triangle :=
  (Topology.fan.triangle k).map vertex

theorem assembled_fan (vertex : Nat → ScreenVertex) (n : Nat) :
    assembled .fan vertex n = (List.range (n - 2)).map (fanTriangle vertex) := by
  rw [assembled, Topology.triangles_eq, List.map_map]
  rfl

/-- Vertices in front of the camera that are the corners of a convex polygon, in a
box of which the area fits a word. -/
structure FanPolygon (vertex : Nat → ScreenVertex) (n : Nat)
    (low high : Point) : Prop where
  three_le : 3 ≤ n
  front : ∀ i < n, (vertex i).behind = false
  convex : Point.Convex (fun i => (vertex i).point) n
  inBox : ∀ i < n, (vertex i).point.InBox low high
  fits : (high.x - low.x) * (high.y - low.y) ≤ 2 ^ 31 - 1

namespace FanPolygon

variable {vertex : Nat → ScreenVertex} {n : Nat} {low high : Point}

/-- The triangles of a fan have the boxes, the orientation and the pixels that
the polygon is cut into. -/
theorem triangle (h : FanPolygon vertex n low high) {k : Nat}
    (hk : k < n - 2) :
    let t := fanTriangle vertex k
    t.BoxFits ∧ t.Faces .frontOnly
      ∧ ∀ x y, t.Holds x y ↔ Point.InTriangle ⟨x, y⟩ (vertex 0).point
        (vertex (k + 1)).point (vertex (k + 2)).point := by
  intro t
  have hn := h.three_le
  have hinBox : t.InBox low high :=
    ⟨h.fits, h.inBox 0 (by omega), h.inBox (k + 2) (by omega),
      h.inBox (k + 1) (by omega)⟩
  refine ⟨hinBox.boxFits, ?_, fun x y => ?_⟩
  · exact h.convex (k + 2) (by omega) (k + 1) (by omega) 0 (by omega)
  · -- the assembly has exchanged the last two corners
    exact ⟨Point.InTriangle.swap, Point.InTriangle.swap⟩

/-- None of the triangles is left out. -/
theorem assembledShapes_eq (h : FanPolygon vertex n low high) :
    assembledShapes (.triangles .fan) vertex n
      = (assembled .fan vertex n).map .triangle := by
  refine congrArg (List.map Shape.triangle) (List.filter_eq_self.2 ?_)
  intro t ht
  obtain ⟨corners, hcorners, rfl⟩ := List.mem_map.1 ht
  have hfront : ∀ i ∈ corners.toList, (vertex i).behind = false :=
    fun i hi => h.front i (Topology.mem_toList_lt hcorners hi)
  rw [Triple.forall_mem_toList] at hfront
  simp [Triple.any, Triple.map, hfront]

/-- The pixels that the triangles of a fan find are those of the polygon. -/
theorem mem_pixel_fragments_iff (h : FanPolygon vertex n low high)
    {mode : LaneMode} {policy : Policy} (hculling : policy.culling = .frontOnly)
    {scissor : Region} {s : Surface} {x y : Nat} :
    (x, y) ∈ ((assembled .fan vertex n).flatMap fun t =>
        t.fragments mode policy .always (s.clip scissor)).map Fragment.pixel
      ↔ (s.clip scissor).Covers x y
        ∧ Point.InPolygon ⟨x, y⟩ (fun i => (vertex i).point) n := by
  have hmem : (x, y) ∈ ((assembled .fan vertex n).flatMap fun t =>
        t.fragments mode policy .always (s.clip scissor)).map Fragment.pixel
      ↔ ∃ k < n - 2, (x, y) ∈ ((fanTriangle vertex k).fragments mode policy
        .always (s.clip scissor)).map Fragment.pixel := by
    rw [assembled_fan, List.map_flatMap, List.flatMap_map, List.mem_flatMap]
    simp only [List.mem_range]
  -- a convex polygon is the union of the triangles of its fan
  rw [hmem, Point.inPolygon_iff_exists_inTriangle h.three_le h.convex]
  constructor
  · rintro ⟨k, hk, hpixel⟩
    -- each of them fits and shows its front: its fragments are its pixels
    obtain ⟨hfits, hfaces, hholds⟩ := h.triangle hk
    obtain ⟨hclip, hin, -⟩ :=
      (Triangle.pixel_mem_fragments_iff hfits mode).1 hpixel
    exact ⟨hclip, k, hk, (hholds x y).1 hin⟩
  · rintro ⟨hclip, k, hk, hin⟩
    obtain ⟨hfits, hfaces, hholds⟩ := h.triangle hk
    refine ⟨k, hk, (Triangle.pixel_mem_fragments_iff hfits mode).2
      ⟨hclip, (hholds x y).2 hin, ?_, nofun⟩⟩
    rw [hculling]
    exact hfaces

end FanPolygon

/-- **Fans are watertight.** Under the test that always passes, where only fronts
are drawn, a fan of vertices that are the corners of a convex polygon writes each
pixel of the closed polygon that is on the surface and in the scissor, and no
other. What the pixel holds then is the depth of the last fragment there, whatever
it has held before. All fragments are writes, and cells that have none stay as
they are. The depths of the vertices do not matter, neither do lanes. -/
theorem paint_fan_inPolygon (r : Rasterizer) (scissor : Region) (s : Surface)
    {vertex : Nat → ScreenVertex} {n : Nat} {low high : Point}
    (h : FanPolygon vertex n low high)
    (hculling : r.policy.culling = .frontOnly) :
    let progress := paint r scissor .always (.triangles .fan) vertex n s
    let fs := (assembled .fan vertex n).flatMap fun t =>
      t.fragments r.mode r.policy .always (s.clip scissor)
    (∀ x y : Nat, (x, y) ∈ fs.map Fragment.pixel
        ↔ (scissor.Covers x y ∧ x < s.layout.width ∧ y < s.layout.height)
          ∧ Point.InPolygon ⟨x, y⟩ (fun i => (vertex i).point) n)
      ∧ (∀ j, progress.surface.cells[j]?
        = (s.cells[j]?).map fun stored =>
          (fs.filter fun f => s.index f.x f.y = j).getLast?.elim stored
            fun f => f.depth.toUInt16)
      ∧ progress.stats.pixelsWritten = fs.length := by
  intro progress fs
  -- no vertex is behind the camera, so all triangles are painted
  have hfollows := follows_paint r scissor .always vertex (.triangles .fan) n s
  rw [h.assembledShapes_eq, List.map_map] at hfollows
  obtain ⟨hsurface, hwritten⟩ := Stroke.paintAll_triangles r scissor .always
    (assembled .fan vertex n) s
  refine ⟨fun x y => ?_, fun j => ?_, ?_⟩
  · rw [h.mem_pixel_fragments_iff hculling, Surface.covers_clip_natCast]
  · have hleft : progress.surface
        = (Tested.fragments .always fs s).surface :=
      hfollows.surface_eq.trans hsurface
    rw [hleft]
    exact Tested.getElem?_cells_fragments_always fs s j
  · -- every fragment is on the surface, where the test always passes
    have hpassed : progress.stats.pixelsWritten
        = (Tested.fragments .always fs s).passed :=
      hfollows.written_eq.trans hwritten
    rw [hpassed]
    refine Tested.passed_fragments_always fun f hf => ?_
    obtain ⟨t, -, hf⟩ := List.mem_flatMap.1 hf
    exact Triangle.index_lt_size_of_mem_fragments hf

/-- A pentagon around the right part of a surface of one row, 40000 pixels wide and
high. Products of its coordinates exceed a word, and still the fan writes the pixel
on the diagonal to the fourth corner and the one at the third corner, and not the
one before the first column. -/
theorem paint_fan_wide_pentagon :
    let corners : Array ScreenVertex :=
      #[⟨50000, -20000, 9, false⟩, ⟨80000, -20000, 0, false⟩,
        ⟨90000, 0, 7, false⟩, ⟨80000, 20000, 3, false⟩,
        ⟨50000, 20000, 5, false⟩]
    let vertex (i : Nat) := corners.getD i default
    let s : Surface := .blank 90001 1
    let pixels := ((assembled .fan vertex 5).flatMap fun t =>
      t.fragments .wide {} .always (s.clip ⟨-5, -5, 99999, 9⟩)).map
        Fragment.pixel
    FanPolygon vertex 5 ⟨50000, -20000⟩ ⟨90000, 20000⟩
      ∧ Rasterizer.standard.policy.culling = .frontOnly
      ∧ (65000, 0) ∈ pixels ∧ (90000, 0) ∈ pixels ∧ (49999, 0) ∉ pixels := by
  intro corners vertex s pixels
  have hpolygon : FanPolygon vertex 5 ⟨50000, -20000⟩ ⟨90000, 20000⟩ := by
    refine ⟨by decide, by decide, by decide, ?_, by decide⟩
    simp only [Point.InBox]
    decide
  have hpixels := (paint_fan_inPolygon .standard ⟨-5, -5, 99999, 9⟩ s hpolygon
    rfl).1
  refine ⟨hpolygon, rfl, (hpixels 65000 0).2 ⟨by decide, by decide⟩,
    (hpixels 90000 0).2 ⟨by decide, by decide⟩, fun hmem => ?_⟩
  have houtside := ((hpixels 49999 0).1 hmem).2
  revert houtside
  decide

end Draw

end DepthPrepass
