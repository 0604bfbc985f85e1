import DepthPrepass.Proofs.Visits
import DepthPrepass.Proofs.Walks
import DepthPrepass.Triangle.Basic

/-!
# What the setup of a triangle decides

Before its pixels are visited, a triangle is set up: there is a test and a walk,
or there is a reason not to draw it. Everything about drawn triangles starts
from what a walk that has come out of the setup must be.

* `Triangle.plan_eq_ok_iff`: when a triangle is drawn, and with which walk.
* `Triangle.trianglesCulled_paint_iff`: when it is culled.
* `Triangle.fragments`: the fragments that painting a triangle tests.
* `Triangle.mem_pixel_fragments_iff`, `Triangle.nodup_pixel_fragments`: where
  they are.
* `Triangle.exists_walk_of_mem_fragments`: where their depths come from.
* `Triangle.fragments_eq_always`: the test has no part in them.
* `Triangle.paint_eq_tests`, `Triangle.pixelsTested_paint`: painting tests these
  fragments and no other cells.
-/

namespace DepthPrepass

namespace Triangle

variable {policy : Policy} {test test' : DepthTest} {clip scissor : Region}
  {t : Triangle} {walk : Walk} {s : Surface}

theorem effectiveTest?_eq_none_iff {policy : TriangleNever} :
    effectiveTest? policy test = none ↔ test = .never ∧ policy = .reject := by
  cases test <;> cases policy <;> decide

theorem effectiveTest?_always (policy : TriangleNever) :
    effectiveTest? policy .always = some .always := by
  cases policy <;> rfl

/-- If only the front is drawn, it is drawn in the flipped order. -/
theorem drawn_frontOnly (t : Triangle) : t.drawn .frontOnly = t.flip :=
  if_neg (by rintro ⟨-, ⟨⟩⟩)

theorem walk?_eq_ok_iff {culling : Culling} :
    t.walk? culling clip = .ok walk
      ↔ (t.box.inter clip).isEmpty = false
        ∧ 0 < Edge.area (t.drawn culling)
        ∧ (t.drawn culling).walkIn (t.box.inter clip) = walk := by
  unfold walk?
  dsimp only
  split
  · next h => simp [h]
  · next h =>
    split
    · next ha => simp [Int32.not_lt.2 ha]
    · next ha => simp [h, Int32.not_le.1 ha]

/-- **The setup**: a triangle is drawn with a test if the policy leaves it one,
over the part of its box that is in the clip region, if there is one, and if its
area is positive in the order in which it is drawn. -/
theorem plan_eq_ok_iff :
    t.plan policy test clip = .ok (test', walk)
      ↔ effectiveTest? policy.triangleNever test = some test'
        ∧ (t.box.inter clip).isEmpty = false
        ∧ 0 < Edge.area (t.drawn policy.culling)
        ∧ (t.drawn policy.culling).walkIn (t.box.inter clip) = walk := by
  rw [← walk?_eq_ok_iff, plan]
  cases effectiveTest? policy.triangleNever test with
  | none => simp
  | some own =>
    cases hw : t.walk? policy.culling clip with
    | error rejection => simp [Except.map]
    | ok own => simp [Except.map]

/-- A triangle is culled if it has a test and a region, but no positive area in the
order in which it would be drawn. -/
theorem plan_eq_culled_iff :
    t.plan policy test clip = .error .culled
      ↔ effectiveTest? policy.triangleNever test ≠ none
        ∧ (t.box.inter clip).isEmpty = false
        ∧ ¬ 0 < Edge.area (t.drawn policy.culling) := by
  unfold plan walk?
  cases effectiveTest? policy.triangleNever test with
  | none => simp
  | some test' =>
    dsimp only
    split
    · next hempty => simp [Except.map, hempty]
    · next hempty =>
      split
      · next harea => simp [Except.map, hempty, Int32.not_lt.2 harea]
      · next harea => simp [Except.map, Int32.not_le.1 harea]

/-- It is counted as culled then, and only then. -/
theorem trianglesCulled_paint_iff (mode : LaneMode) :
    (t.paint mode policy test scissor s).work.trianglesCulled = 1
      ↔ t.plan policy test (s.clip scissor) = .error .culled := by
  cases hplan : t.plan policy test (s.clip scissor) with
  | error rejection =>
    simp only [paint, hplan, Except.error.injEq]
    show (Counters.count .trianglesSubmitted 1
      + rejection.work).trianglesCulled = 1 ↔ _
    cases rejection <;> decide
  | ok drawn =>
    have hzero : (t.paint mode policy test scissor s).work.trianglesCulled
        = 0 := by
      simp only [paint, hplan]
      exact UInt64.add_zero 0
    rw [hzero]
    exact ⟨nofun, nofun⟩

/-- The walk of a triangle stays on the surface. -/
theorem on_of_plan_eq_ok
    (h : t.plan policy test (s.clip scissor) = .ok (test', walk)) :
    walk.region.On s := by
  obtain ⟨-, -, -, rfl⟩ := plan_eq_ok_iff.1 h
  exact Region.on_inter_clip ..

/-! ## What is tested -/

/-- The fragments of a triangle in the clip region. There are none if it is not
drawn. -/
def fragments (mode : LaneMode) (policy : Policy) (test : DepthTest)
    (clip : Region) (t : Triangle) : List Fragment :=
  match t.plan policy test clip with
  | .error _ => []
  | .ok (_, walk) => walk.fragments mode

/-- A pixel has a fragment if the triangle is drawn, the pixel is in the region
of the walk, and no edge value is negative there. -/
theorem mem_pixel_fragments_iff (mode : LaneMode) {x y : Nat} :
    (x, y) ∈ (t.fragments mode policy test (s.clip scissor)).map
        Fragment.pixel
      ↔ ∃ test' walk,
          t.plan policy test (s.clip scissor) = .ok (test', walk)
            ∧ walk.region.Covers x y
            ∧ Walk.inside (walk.valuesAt (.ofNat x) (.ofNat y)) = true := by
  unfold fragments
  split
  · next rejection hplan =>
    simp [hplan]
  · next test' walk hplan =>
    -- a planned walk is on the surface and visits each pixel of its region
    have hon := on_of_plan_eq_ok hplan
    rw [walk.map_pixel_fragments mode hon, List.mem_filter,
      Region.mem_pixels hon]
    constructor
    · rintro ⟨hcovers, hinside⟩
      exact ⟨test', walk, hplan, hcovers, hinside⟩
    · rintro ⟨own, ownWalk, hown, hcovers, hinside⟩
      rw [hplan] at hown
      cases hown
      exact ⟨hcovers, hinside⟩

/-- **A fragment comes from a walk**: the triangle is drawn, and the fragment's pixel
is inside the edges and has the depth there. -/
theorem exists_walk_of_mem_fragments {mode : LaneMode} {f : Fragment}
    (hf : f ∈ t.fragments mode policy test (s.clip scissor)) :
    ∃ test' walk, t.plan policy test (s.clip scissor) = .ok (test', walk)
      ∧ Walk.inside (walk.valuesAt (.ofNat f.x) (.ofNat f.y)) = true
      ∧ f.depth = walk.depthAt (walk.valuesAt (.ofNat f.x) (.ofNat f.y)) := by
  unfold fragments at hf
  split at hf
  · cases hf
  · next test' walk hplan =>
    -- in either mode the fragments are those of the pixels one by one
    rw [walk.fragments_eq mode (on_of_plan_eq_ok hplan)] at hf
    obtain ⟨p, -, hp⟩ := List.mem_filterMap.1 hf
    unfold Walk.fragmentAt? Walk.fragmentOf? at hp
    split at hp
    · next hinside =>
      cases hp
      exact ⟨test', walk, hplan, hinside, rfl⟩
    · cases hp

/-- The pixels of the fragments are in the order of the region, each at most
once. -/
theorem map_pixel_fragments_sublist (mode : LaneMode) (policy : Policy)
    (test : DepthTest) (scissor : Region) (t : Triangle) (s : Surface) :
    ((t.fragments mode policy test (s.clip scissor)).map
      Fragment.pixel).Sublist (t.box.inter (s.clip scissor)).pixels := by
  unfold fragments
  split
  · exact List.nil_sublist _
  · next test' walk hplan =>
    have hon := on_of_plan_eq_ok hplan
    obtain ⟨-, -, -, rfl⟩ := plan_eq_ok_iff.1 hplan
    rw [Walk.map_pixel_fragments _ mode hon]
    exact List.filter_sublist

/-- No pixel has two fragments. -/
theorem nodup_pixel_fragments (mode : LaneMode) :
    ((t.fragments mode policy test (s.clip scissor)).map
      Fragment.pixel).Nodup :=
  (Region.nodup_pixels _).sublist (map_pixel_fragments_sublist ..)

/-- No two fragments have the same cell. -/
theorem nodup_index_fragments (mode : LaneMode) :
    ((t.fragments mode policy test (s.clip scissor)).map fun f =>
      s.index f.x f.y).Nodup := by
  have hcells := (map_pixel_fragments_sublist mode policy test scissor t s).map
    fun p : Nat × Nat => s.index p.1 p.2
  rw [List.map_map] at hcells
  exact (Region.nodup_index_pixels (Region.on_inter_clip ..)).sublist hcells

/-- There are not too many fragments for a counter. -/
theorem length_fragments_lt (mode : LaneMode) :
    (t.fragments mode policy test (s.clip scissor)).length < UInt64.size := by
  have hle :=
    (map_pixel_fragments_sublist mode policy test scissor t s).length_le
  rw [List.length_map] at hle
  exact Nat.lt_of_le_of_lt hle (Region.length_pixels_lt _)

/-- The test has no part in the fragments, as long as there is one. -/
theorem fragments_eq_always (mode : LaneMode)
    (h : effectiveTest? policy.triangleNever test = some test') :
    t.fragments mode policy test clip
      = t.fragments mode policy .always clip := by
  unfold fragments plan
  rw [h, effectiveTest?_always]
  cases t.walk? policy.culling clip <;> rfl

/-- Every fragment has a cell. -/
theorem index_lt_size_of_mem_fragments {mode : LaneMode} {f : Fragment}
    (hf : f ∈ t.fragments mode policy test (s.clip scissor)) :
    s.index f.x f.y < s.cells.size := by
  have hp : (f.x, f.y) ∈ (t.fragments mode policy test
      (s.clip scissor)).map Fragment.pixel := List.mem_map_of_mem hf
  obtain ⟨test', walk, hplan, hcovers, -⟩ :=
    (mem_pixel_fragments_iff mode).1 hp
  have hon := on_of_plan_eq_ok hplan
  exact Region.index_lt_size hon ((Region.mem_pixels hon).2 hcovers)

/-! ## Painting is testing -/

/-- The depth tests of a triangle: those of its fragments. -/
def tests (mode : LaneMode) (policy : Policy) (test : DepthTest)
    (scissor : Region) (t : Triangle) (s : Surface) : Tested :=
  Tested.fragments ((effectiveTest? policy.triangleNever test).getD test)
    (t.fragments mode policy test (s.clip scissor)) s

/-- Painting leaves what the tests leave, and has written where they have
passed. -/
theorem paint_eq_tests (mode : LaneMode) :
    (t.paint mode policy test scissor s).surface
        = (t.tests mode policy test scissor s).surface
      ∧ (t.paint mode policy test scissor s).written
        = (t.tests mode policy test scissor s).passed := by
  cases hplan : t.plan policy test (s.clip scissor) with
  | error rejection =>
    simp only [paint, tests, fragments, hplan]
    exact ⟨rfl, rfl⟩
  | ok drawn =>
    obtain ⟨htest, -⟩ := plan_eq_ok_iff.1 hplan
    simp only [paint, tests, fragments, hplan, htest]
    exact ⟨rfl, rfl⟩

/-- Each fragment is tested. -/
theorem tested_tests (mode : LaneMode) :
    (t.tests mode policy test scissor s).tested
      = (t.fragments mode policy test (s.clip scissor)).length := by
  rw [tests, Tested.fragments_eq_visits, Tested.tested_visits,
    List.length_map]
  · exact Nat.zero_add _
  · intro v hv
    obtain ⟨f, hf, rfl⟩ := List.mem_map.1 hv
    exact index_lt_size_of_mem_fragments hf

/-- The pixels that painting counts as tested are the tested ones. -/
theorem pixelsTested_paint (mode : LaneMode) :
    (t.paint mode policy test scissor s).work.pixelsTested
      = (t.tests mode policy test scissor s).tested.toUInt64 := by
  cases hplan : t.plan policy test (s.clip scissor) with
  | error rejection =>
    simp only [paint, tests, fragments, hplan]
    cases rejection <;> rfl
  | ok drawn =>
    obtain ⟨htest, -⟩ := plan_eq_ok_iff.1 hplan
    simp only [paint, tests, fragments, hplan, htest]
    exact UInt64.zero_add _

/-- They are as many as there are fragments. -/
theorem toNat_pixelsTested_paint (mode : LaneMode) :
    (t.paint mode policy test scissor s).work.pixelsTested.toNat
      = (t.fragments mode policy test (s.clip scissor)).length := by
  rw [pixelsTested_paint, tested_tests]
  exact UInt64.toNat_ofNat_of_lt (length_fragments_lt mode)

end Triangle

end DepthPrepass
