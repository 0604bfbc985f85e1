import DepthPrepass.Proofs.Barycentric
import DepthPrepass.Proofs.Strokes

/-!
# Order does not matter to ordered tests

A test that keeps the smaller depth compares whole candidates with what is
stored, but stores what is left of them without the digits behind the point.
All the same it comes to storing the smaller one: no candidate is negative or
not a number, so that dropping digits does not pass over a stored depth. Whether
equal depths pass makes no difference then, and neither does the order in which
candidates come. The same holds for tests that keep the larger depth.

* `Walk.zero_le_depthAt`: depths inside a triangle are not negative.
* `Preference.settle_eq_pick`: an ordered test stores the preferred depth.
* `Stroke.depthAt?`: the depth that a stroke has for a cell.
* `Stroke.paintAll_eq_of_perm`: strokes in any order.
-/

namespace DepthPrepass

/-! ## Depths of triangles -/

/-- **Depths inside a triangle** are not negative, also where edge values have
wrapped: what is computed for them stays away from the ends of the range. -/
theorem Walk.zero_le_depthAt {t : Triangle} (harea : 0 < Edge.area t)
    (region : Region) {w : Triple Int32} (hw : inside w = true) :
    0 ≤ (t.walkIn region).depthAt w :=
  Binary32.zero_le_of_scaled
    (Triangle.computes_depthAt harea region hw).scaled

/-! ## One candidate -/

/-- Which of two depths a test keeps. -/
inductive Preference where
  | smaller
  | larger
deriving DecidableEq, Repr

namespace Preference

/-- The tests that keep the preferred depth. They differ in what they do with
equal ones. -/
def tests : Preference → List DepthTest
  | smaller => [.less, .lessEqual]
  | larger => [.greater, .greaterEqual]

/-- The preferred one of two depths. -/
def pick : Preference → UInt16 → UInt16 → UInt16
  | smaller => min
  | larger => max

theorem toNat_pick_smaller (m n : UInt16) :
    (smaller.pick m n).toNat = min m.toNat n.toNat := by
  show (if m ≤ n then m else n).toNat = _
  split
  · next h => rw [UInt16.le_iff_toNat_le] at h; omega
  · next h => rw [UInt16.le_iff_toNat_le] at h; omega

theorem toNat_pick_larger (m n : UInt16) :
    (larger.pick m n).toNat = max m.toNat n.toNat := by
  show (if m ≤ n then n else m).toNat = _
  split
  · next h => rw [UInt16.le_iff_toNat_le] at h; omega
  · next h => rw [UInt16.le_iff_toNat_le] at h; omega

/-- Depths can be picked in any order. -/
instance (p : Preference) : RightCommutative p.pick where
  right_comm k m n := by
    refine UInt16.toNat_inj.1 ?_
    cases p with
    | smaller => simp only [toNat_pick_smaller]; omega
    | larger => simp only [toNat_pick_larger]; omega

end Preference

/-- A candidate whose depth is not negative, and of which the whole part is
stored. -/
structure Candidate.Truncates (c : Candidate) : Prop where
  zero_le : 0 ≤ c.depth
  value_eq : c.value = c.depth.toUInt16

/-- **An ordered test** stores the preferred one of what is there and what comes,
whether it lets equal depths pass or not. -/
theorem Preference.settle_eq_pick {p : Preference} {c : Candidate}
    (htest : c.test ∈ p.tests) (h : c.Truncates) (stored : UInt16) :
    Candidate.settle stored c = p.pick stored c.value := by
  obtain ⟨test, depth, value⟩ := c
  obtain ⟨hdepth, hvalue⟩ : 0 ≤ depth ∧ value = depth.toUInt16 := ⟨h.1, h.2⟩
  have hlt : depth < stored.toFloat32 ↔ value.toNat < stored.toNat := by
    rw [Binary32.lt_toFloat32_iff hdepth, hvalue, UInt16.lt_iff_toNat_lt]
  have hle (h : depth ≤ stored.toFloat32) : value.toNat ≤ stored.toNat := by
    rw [hvalue, ← UInt16.le_iff_toNat_le]
    exact Binary32.toUInt16_le_of_le hdepth h
  have hweaken : depth < stored.toFloat32 → depth ≤ stored.toFloat32 :=
    Binary32.le_of_lt hdepth (Binary32.zero_le_toFloat32 stored)
  have hge := Binary32.toFloat32_le_iff hdepth stored
  have hgt := Binary32.toFloat32_lt_iff hdepth stored
  refine UInt16.toNat_inj.1 ?_
  show (if test.passes depth stored.toFloat32 then value else stored).toNat = _
  -- with equality a test that passes bounds the whole part on one side only, but
  -- where it fails the stricter one fails as well
  cases p with
  | smaller =>
    have htest : test = .less ∨ test = .lessEqual := by
      simpa [tests] using htest
    rw [toNat_pick_smaller]
    rcases htest with rfl | rfl
    · simp only [DepthTest.passes, decide_eq_true_eq]
      split
      · next h => have := hlt.1 h; omega
      · next h => have := mt hlt.2 h; omega
    · simp only [DepthTest.passes, decide_eq_true_eq]
      split
      · next h => have := hle h; omega
      · next h => have := mt hlt.2 (mt hweaken h); omega
  | larger =>
    have htest : test = .greater ∨ test = .greaterEqual := by
      simpa [tests] using htest
    rw [toNat_pick_larger]
    rcases htest with rfl | rfl
    · simp only [DepthTest.passes, decide_eq_true_eq]
      split
      · next h => have := mt hlt.2 (mt hweaken (hgt.1 h)); omega
      · next h => have := hle (Decidable.not_not.1 (mt hgt.2 h)); omega
    · simp only [DepthTest.passes, decide_eq_true_eq]
      split
      · next h => have := mt hlt.2 (hge.1 h); omega
      · next h => have := hlt.1 (Decidable.not_not.1 (mt hge.2 h)); omega

/-- Where settling only looks at the depth that would be stored, candidates are
settled by folding in these depths. -/
theorem Candidate.settleAll_eq_foldl {f : UInt16 → UInt16 → UInt16}
    {cs : List Candidate}
    (h : ∀ c ∈ cs, ∀ stored, settle stored c = f stored c.value)
    (stored : UInt16) :
    settleAll cs stored = (cs.map (·.value)).foldl f stored := by
  induction cs generalizing stored with
  | nil => rfl
  | cons c cs ih =>
    have hrest := ih fun d hd => h d (List.mem_cons_of_mem c hd)
    calc settleAll (c :: cs) stored
        = settleAll cs (settle stored c) := rfl
      _ = (cs.map (·.value)).foldl f (settle stored c) := hrest _
      _ = (cs.map (·.value)).foldl f (f stored c.value) := by
        rw [h c List.mem_cons_self]

/-- Candidates of ordered tests leave the preferred one of all depths. -/
theorem Preference.settleAll_eq_foldl {p : Preference} {cs : List Candidate}
    (h : ∀ c ∈ cs, c.test ∈ p.tests ∧ c.Truncates) (stored : UInt16) :
    Candidate.settleAll cs stored = (cs.map (·.value)).foldl p.pick stored := by
  refine Candidate.settleAll_eq_foldl (fun c hc => ?_) stored
  obtain ⟨htest, htruncates⟩ := h c hc
  exact settle_eq_pick htest htruncates

/-! ## Strokes -/

/-- The test that decides about the pixels of a shape, if it is painted at
all. -/
def Shape.effectiveTest? (policy : Policy) (test : DepthTest) (shape : Shape) :
    Option DepthTest :=
  match shape with
  | .rectangle _ => Rectangle.effectiveTest? policy.rectangleTest test
  | .triangle _ => Triangle.effectiveTest? policy.triangleNever test

/-- **What a pixel receives** from a shape, whatever the test and the policy, is a
depth that is not negative, and the whole part of it is what would be stored. -/
theorem Shape.of_candidate?_eq_some {rasterizer : Rasterizer}
    {test : DepthTest} {shape : Shape} {q : Nat × Nat} {c : Candidate}
    (hc : shape.candidate? rasterizer test q = some c) :
    shape.effectiveTest? rasterizer.policy test = some c.test
      ∧ c.Truncates := by
  -- a rectangle has one depth, a triangle an interpolated one
  cases shape with
  | rectangle r =>
    obtain ⟨test', htest, hc⟩ := Option.bind_eq_some_iff.1 hc
    split at hc
    · cases hc
      exact ⟨htest, Binary32.zero_le_toFloat32 r.depth,
        (Binary32.toUInt16_toFloat32 r.depth).symm⟩
    · cases hc
  | triangle t =>
    obtain ⟨test', htest, hc⟩ := Option.bind_eq_some_iff.1 hc
    split at hc
    · next hdrawn =>
      obtain ⟨f, hf, rfl⟩ := Option.map_eq_some_iff.1 hc
      refine ⟨htest, ?_, rfl⟩
      unfold Triangle.fragmentAt? Walk.fragmentAt? Walk.fragmentOf? at hf
      split at hf
      · next hinside =>
        cases hf
        exact Walk.zero_le_depthAt hdrawn.2 _ hinside
      · cases hf
    · cases hc

/-- The depth of a shape at a pixel, without the digits behind the point, if
the shape covers the pixel. -/
def Shape.depth? (culling : Culling) (shape : Shape) (p : Nat × Nat) :
    Option UInt16 :=
  match shape with
  | .rectangle r => if r.region.Covers p.1 p.2 then some r.depth else none
  | .triangle t =>
    if t.box.Covers p.1 p.2 ∧ 0 < Edge.area (t.drawn culling) then
      ((t.drawn culling).fragmentAt? p).map (·.depth.toUInt16)
    else none

namespace Stroke

/-- A stroke but for its test. -/
def untested (stroke : Stroke) : Rasterizer × Region × Shape :=
  (stroke.rasterizer, stroke.scissor, stroke.shape)

/-- The depth that a stroke has for a cell, if it covers the cell's pixel. The
test has no part in this. -/
def depthAt? (layout : Surface.Layout) (stroke : Stroke) (j : Nat) :
    Option UInt16 :=
  (layout.pixel? j).bind fun p =>
    if stroke.scissor.Covers p.1 p.2 then
      stroke.shape.depth? stroke.rasterizer.policy.culling p
    else none

/-- Whether a stroke is painted under a test that keeps the preferred depth.
Rectangles are only painted under such a test if the policy has them tested
pixel by pixel. -/
def Keeps (p : Preference) (stroke : Stroke) : Prop :=
  stroke.test ∈ p.tests
    ∧ match stroke.shape with
      | .rectangle _ => stroke.rasterizer.policy.rectangleTest = .perPixel
      | .triangle _ => True

instance (p : Preference) (stroke : Stroke) : Decidable (stroke.Keeps p) := by
  unfold Keeps
  cases stroke.shape <;> infer_instance

variable {p : Preference} {stroke : Stroke} {layout : Surface.Layout}

theorem effectiveTest?_of_mem_tests {test : DepthTest}
    (h : test ∈ p.tests) (policy : TriangleNever) :
    Rectangle.effectiveTest? .perPixel test = some test
      ∧ Triangle.effectiveTest? policy test = some test := by
  revert h
  cases p <;> cases policy <;> cases test <;> decide

/-- A stroke that keeps the preferred depth is painted under its own test. -/
theorem effectiveTest?_of_keeps (h : stroke.Keeps p) :
    stroke.shape.effectiveTest? stroke.rasterizer.policy stroke.test
      = some stroke.test := by
  obtain ⟨rasterizer, scissor, test, shape⟩ := stroke
  obtain ⟨htest, hpolicy⟩ := h
  obtain ⟨hrectangle, htriangle⟩ :=
    effectiveTest?_of_mem_tests htest rasterizer.policy.triangleNever
  cases shape with
  | rectangle r =>
    have hpolicy : rasterizer.policy.rectangleTest = .perPixel := hpolicy
    show Rectangle.effectiveTest? rasterizer.policy.rectangleTest test = _
    rw [hpolicy, hrectangle]
  | triangle t => exact htriangle

/-- What a stroke has for a pixel is a depth that is not negative, under the
stroke's own test. -/
theorem candidate?_of_keeps (h : stroke.Keeps p) {q : Nat × Nat}
    {c : Candidate}
    (hc : stroke.shape.candidate? stroke.rasterizer stroke.test q = some c) :
    c.test ∈ p.tests ∧ c.Truncates := by
  obtain ⟨htest, htruncates⟩ := Shape.of_candidate?_eq_some hc
  rw [effectiveTest?_of_keeps h] at htest
  rw [← Option.some.inj htest]
  exact ⟨h.1, htruncates⟩

/-- The value of what a stroke has for a pixel does not depend on the test. -/
theorem map_value_candidate? (h : stroke.Keeps p) (q : Nat × Nat) :
    (stroke.shape.candidate? stroke.rasterizer stroke.test q).map (·.value)
      = stroke.shape.depth? stroke.rasterizer.policy.culling q := by
  have htest := effectiveTest?_of_keeps h
  obtain ⟨rasterizer, scissor, test, shape⟩ := stroke
  -- the test is kept, so it is also the one that decides
  cases shape with
  | rectangle r =>
    have htest : Rectangle.effectiveTest? rasterizer.policy.rectangleTest test
      = some test := htest
    show (r.candidate? rasterizer.policy.rectangleTest test q).map _ = _
    rw [Rectangle.candidate?, htest, Option.bind_some, apply_ite
      (Option.map _)]
    rfl
  | triangle t =>
    have htest : Triangle.effectiveTest? rasterizer.policy.triangleNever test
      = some test := htest
    show (t.candidate? rasterizer.policy test q).map _ = _
    rw [Triangle.candidate?, htest, Option.bind_some, apply_ite
      (Option.map _), Option.map_map]
    rfl

theorem candidateAt?_of_keeps (h : stroke.Keeps p) {j : Nat} {c : Candidate}
    (hc : stroke.candidateAt? layout j = some c) :
    c.test ∈ p.tests ∧ c.Truncates := by
  unfold candidateAt? Surface.Layout.candidateIn? at hc
  obtain ⟨q, -, hc⟩ := Option.bind_eq_some_iff.1 hc
  split at hc
  · exact candidate?_of_keeps h hc
  · cases hc

theorem map_value_candidateAt? (h : stroke.Keeps p) (j : Nat) :
    (stroke.candidateAt? layout j).map (·.value) = stroke.depthAt? layout j := by
  unfold candidateAt? Surface.Layout.candidateIn? depthAt?
  cases layout.pixel? j with
  | none => rfl
  | some q =>
    rw [Option.bind_some, Option.bind_some, ← map_value_candidate? h,
      apply_ite (Option.map _)]
    rfl

/-! ## Strokes in any order -/

/-- Under tests that keep the preferred depth, a cell ends up with the preferred
one of its own depth and those of the strokes that cover it. -/
theorem getElem?_cells_paintAll {strokes : List Stroke}
    (h : ∀ stroke ∈ strokes, stroke.Keeps p) (s : Surface) (j : Nat) :
    (paintAll strokes s).cells[j]?
      = (s.cells[j]?).map fun stored =>
          (strokes.filterMap (·.depthAt? s.layout j)).foldl p.pick stored := by
  -- all candidates prefer the same depth, so tests that differ settle alike
  have hcandidates : ∀ c ∈ strokes.filterMap (·.candidateAt? s.layout j),
      c.test ∈ p.tests ∧ c.Truncates := by
    intro c hc
    obtain ⟨stroke, hstroke, hc⟩ := List.mem_filterMap.1 hc
    exact candidateAt?_of_keeps (h stroke hstroke) hc
  -- of a candidate only the value is left, which is the depth at the pixel
  have hvalues : (strokes.filterMap (·.candidateAt? s.layout j)).map (·.value)
      = strokes.filterMap (·.depthAt? s.layout j) := by
    rw [List.map_filterMap]
    refine List.filterMap_congr fun stroke hstroke => ?_
    exact map_value_candidateAt? (h stroke hstroke) j
  rw [(receives_paintAll strokes s).getElem?_cells]
  refine Option.map_congr fun stored _ => ?_
  rw [Preference.settleAll_eq_foldl hcandidates, hvalues]

/-- The depths that strokes have for a cell, from the strokes but for their
tests. -/
theorem filterMap_depthAt?_perm {strokes others : List Stroke}
    (h : (strokes.map untested).Perm (others.map untested))
    (layout : Surface.Layout) (j : Nat) :
    (strokes.filterMap (·.depthAt? layout j)).Perm
      (others.filterMap (·.depthAt? layout j)) := by
  let depth (u : Rasterizer × Region × Shape) : Option UInt16 :=
    depthAt? layout ⟨u.1, u.2.1, .always, u.2.2⟩ j
  have hdepth (strokes : List Stroke) :
      (strokes.map untested).filterMap depth
        = strokes.filterMap (·.depthAt? layout j) := by
    rw [List.filterMap_map]
    rfl
  rw [← hdepth, ← hdepth]
  exact h.filterMap depth

/-- **Order does not matter.** If all strokes of a list are painted under tests
that keep the smaller depth, painting them leaves in each cell the smallest of
its own depth and the depths, without the digits behind the point, of those
strokes that cover it. Painting them in another order, or with other tests that
keep the smaller depth, leaves the same surface. The same holds for tests that
keep the larger depth. -/
theorem paintAll_eq_of_perm (p : Preference) (strokes others : List Stroke)
    (s : Surface) (h : ∀ stroke ∈ strokes, stroke.Keeps p)
    (hothers : ∀ stroke ∈ others, stroke.Keeps p)
    (hperm : (strokes.map untested).Perm (others.map untested)) :
    paintAll others s = paintAll strokes s
      ∧ (paintAll strokes s).layout = s.layout
      ∧ ∀ j, (paintAll strokes s).cells[j]?
          = (s.cells[j]?).map fun stored =>
              (strokes.filterMap (·.depthAt? s.layout j)).foldl p.pick
                stored := by
  have hlayout (strokes : List Stroke) :
      (paintAll strokes s).layout = s.layout :=
    (receives_paintAll strokes s).layout_eq
  refine ⟨Surface.ext_cells ?_ ?_, hlayout strokes,
    getElem?_cells_paintAll h s⟩
  · rw [hlayout, hlayout]
  · refine Array.ext_getElem? fun j => ?_
    rw [getElem?_cells_paintAll h, getElem?_cells_paintAll hothers]
    refine Option.map_congr fun stored _ => ?_
    exact ((filterMap_depthAt?_perm hperm s.layout j).foldl_eq stored).symm

/-- A triangle and a rectangle that overlap, in both orders and with tests that
do and do not let equal depths pass. In the pixel `(1, 1)` the rectangle is
nearer than the triangle. -/
theorem paintAll_overlapping :
    let r : Rasterizer := ⟨{ rectangleTest := .perPixel }, .wide⟩
    let triangle : Shape :=
      .triangle ⟨⟨0, 0, 300, false⟩, ⟨0, 8, 300, false⟩, ⟨8, 0, 300, false⟩⟩
    let rectangle : Shape := .rectangle ⟨1, 1, 3, 3, 200⟩
    let scissor : Region := ⟨0, 0, 4, 4⟩
    let strokes : List Stroke :=
      [⟨r, scissor, .less, triangle⟩, ⟨r, scissor, .lessEqual, rectangle⟩]
    let others : List Stroke :=
      [⟨r, scissor, .less, rectangle⟩, ⟨r, scissor, .lessEqual, triangle⟩]
    (∀ stroke ∈ strokes ++ others, stroke.Keeps .smaller)
      ∧ (strokes.map untested).Perm (others.map untested)
      ∧ paintAll others (.blank 4 4) = paintAll strokes (.blank 4 4)
      ∧ (paintAll strokes (.blank 4 4)).cells[0]? = some 300
      ∧ (paintAll strokes (.blank 4 4)).cells[5]? = some 200 := by
  intro r triangle rectangle scissor strokes others
  have hkeeps : ∀ stroke ∈ strokes ++ others, stroke.Keeps .smaller := by
    decide
  have hperm : (strokes.map untested).Perm (others.map untested) := .swap ..
  obtain ⟨heq, -, hcells⟩ := paintAll_eq_of_perm .smaller strokes others
    (.blank 4 4) (fun k hk => hkeeps k (List.mem_append_left _ hk))
    (fun k hk => hkeeps k (List.mem_append_right _ hk)) hperm
  refine ⟨hkeeps, hperm, heq, ?_, ?_⟩
  · rw [hcells]
    decide +kernel
  · rw [hcells]
    decide +kernel

end Stroke

end DepthPrepass
