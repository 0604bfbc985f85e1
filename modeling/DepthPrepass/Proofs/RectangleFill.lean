import DepthPrepass.Proofs.DirectEvaluation
import DepthPrepass.Proofs.Units

/-!
# Filling a rectangle

What painting a rectangle means, without rows, lanes and numbers with a point. There is
a set of pixels, those between the corners that are in the scissor and on the surface.
Each of them is left with the depth of the rectangle or with its own, and which of the
two is decided by comparing two whole numbers. The corners may be anywhere, in any
order, and on one line, where nothing is between them.

* `DepthTest.holds`: a test of two whole numbers.
* `Rectangle.covered`: the pixels that are between the corners.
* `Rectangle.Tests`: what is left if the covered pixels are tested.
* `Rectangle.paint_eq_fill`: painting, for each test and policy.
-/

namespace DepthPrepass

/-! ## Tests of whole depths -/

namespace DepthTest

/-- Whether a test holds between a new depth and an old one. -/
def holds : DepthTest → (new old : Nat) → Bool
  | never, _, _ => false
  | always, _, _ => true
  | equal, new, old => new = old
  | notEqual, new, old => new ≠ old
  | less, new, old => new < old
  | lessEqual, new, old => new ≤ old
  | greater, new, old => old < new
  | greaterEqual, new, old => old ≤ new

/-- Depths are converted exactly, so a test between them is one between whole
numbers. -/
theorem passes_toFloat32 (test : DepthTest) (m n : UInt16) :
    test.passes m.toFloat32 n.toFloat32 = test.holds m.toNat n.toNat := by
  have hbeq := Binary32.toFloat32_beq_toFloat32 m n
  cases test with
  | never | always => rfl
  | equal => exact hbeq
  | notEqual =>
    show (!(m.toFloat32 == n.toFloat32)) = decide (m.toNat ≠ n.toNat)
    rw [hbeq, decide_not]
  | less => exact decide_eq_decide.2 (Binary32.toFloat32_lt_toFloat32_iff m n)
  | lessEqual => exact decide_eq_decide.2 (Binary32.toFloat32_le_toFloat32_iff m n)
  | greater => exact decide_eq_decide.2 (Binary32.toFloat32_lt_toFloat32_iff n m)
  | greaterEqual => exact decide_eq_decide.2 (Binary32.toFloat32_le_toFloat32_iff n m)

end DepthTest

/-! ## Rectangles -/

namespace Rectangle

variable {policy : RectangleTest} {test test' : DepthTest} {scissor : Region}
  {r : Rectangle} {s : Surface}

/-- The pixels of a surface that are in the scissor and between the corners of a
rectangle, with the column and the row of the greater corner left out. -/
def covered (r : Rectangle) (scissor : Region) (s : Surface) :
    Finset (Nat × Nat) :=
  (Finset.range s.layout.width ×ˢ Finset.range s.layout.height).filter fun p =>
    scissor.Covers p.1 p.2
      ∧ min r.x₁.toInt r.x₂.toInt ≤ p.1 ∧ p.1 < max r.x₁.toInt r.x₂.toInt
      ∧ min r.y₁.toInt r.y₂.toInt ≤ p.2 ∧ p.2 < max r.y₁.toInt r.y₂.toInt

/-- A rectangle from the one end of the range to the other one. -/
example :
    covered ⟨2147483647, -2147483648, -2147483648, 2147483647, 0⟩ ⟨1, -5, 9, 1⟩
        (.blank 3 2)
      = {(1, 0), (2, 0)} := by decide +kernel

/-- The corners of a rectangle in order. -/
theorem toInt_region (r : Rectangle) :
    r.region.left.toInt = min r.x₁.toInt r.x₂.toInt
      ∧ r.region.top.toInt = min r.y₁.toInt r.y₂.toInt
      ∧ r.region.right.toInt = max r.x₁.toInt r.x₂.toInt
      ∧ r.region.bottom.toInt = max r.y₁.toInt r.y₂.toInt := by
  have hx : r.x₁ > r.x₂ ↔ r.x₂.toInt < r.x₁.toInt := Int32.lt_iff_toInt_lt
  have hy : r.y₁ > r.y₂ ↔ r.y₂.toInt < r.y₁.toInt := Int32.lt_iff_toInt_lt
  unfold region Region.between
  simp only [hx, hy, apply_ite Int32.toInt]
  omega

/-- Between the same lesser and the same greater corner there are the same pixels. -/
theorem region_congr {r' : Rectangle}
    (hleft : min r'.x₁.toInt r'.x₂.toInt = min r.x₁.toInt r.x₂.toInt)
    (htop : min r'.y₁.toInt r'.y₂.toInt = min r.y₁.toInt r.y₂.toInt)
    (hright : max r'.x₁.toInt r'.x₂.toInt = max r.x₁.toInt r.x₂.toInt)
    (hbottom : max r'.y₁.toInt r'.y₂.toInt = max r.y₁.toInt r.y₂.toInt) :
    r'.region = r.region := by
  obtain ⟨hl, ht, hr, hb⟩ := r.toInt_region
  obtain ⟨hl', ht', hr', hb'⟩ := r'.toInt_region
  rw [Region.mk.injEq]
  refine ⟨?_, ?_, ?_, ?_⟩ <;> refine Int32.toInt_inj.1 ?_
  · rw [hl, hl', hleft]
  · rw [ht, ht', htop]
  · rw [hr, hr', hright]
  · rw [hb, hb', hbottom]

/-- Only what is between the corners matters, and not how they are given. -/
theorem paint_congr (mode : LaneMode) (policy : RectangleTest) (test : DepthTest)
    (scissor : Region) {r r' : Rectangle} (s : Surface)
    (hregion : r'.region = r.region) (hdepth : r'.depth = r.depth) :
    r'.paint mode policy test scissor s = r.paint mode policy test scissor s := by
  unfold paint area
  rw [hregion, hdepth]

theorem mem_covered {p : Nat × Nat} :
    p ∈ r.covered scissor s
      ↔ (p.1 < s.layout.width ∧ p.2 < s.layout.height)
        ∧ scissor.Covers p.1 p.2 ∧ r.region.Covers p.1 p.2 := by
  obtain ⟨hl, ht, hr, hb⟩ := r.toInt_region
  unfold covered
  rw [Region.Covers.eq_def r.region, hl, ht, hr, hb, Finset.mem_filter,
    Finset.mem_product, Finset.mem_range, Finset.mem_range]

/-- What a pixel receives from a rectangle, within a scissor. -/
theorem candidateIn?_index (htest : effectiveTest? policy test = some test')
    {x y : Nat} (hx : x < s.layout.width) (hy : y < s.layout.height) :
    s.layout.candidateIn? scissor (r.candidate? policy test) (s.index x y)
      = if (x, y) ∈ r.covered scissor s then
          some ⟨test', r.depth.toFloat32, r.depth⟩
        else none := by
  have hcovered : (x, y) ∈ r.covered scissor s
      ↔ scissor.Covers x y ∧ r.region.Covers x y :=
    mem_covered.trans (and_iff_right ⟨hx, hy⟩)
  unfold candidate?
  rw [Surface.index, Surface.Layout.candidateIn?_index hx hy, htest,
    Option.bind_some, if_congr hcovered rfl rfl, ite_and]

/-- What is left if the covered pixels are tested: those against which the depth of the
rectangle holds are left with it and have been written, and nothing else changes. -/
structure Tests (test : DepthTest) (scissor : Region) (r : Rectangle)
    (s after : Surface) (written : Nat) : Prop where
  layout_eq : after.layout = s.layout
  getElem?_cells : ∀ j, (∀ p ∈ r.covered scissor s, s.index p.1 p.2 ≠ j) →
    after.cells[j]? = s.cells[j]?
  get?_eq : ∀ p ∈ r.covered scissor s, after.get? p.1 p.2
    = (s.get? p.1 p.2).map fun old =>
        if test.holds r.depth.toNat old.toNat then r.depth else old
  written_eq : written
    = ((r.covered scissor s).filter fun p =>
        (s.get? p.1 p.2).any fun old => test.holds r.depth.toNat old.toNat).card

/-- A rectangle that is painted at all has its pixels tested. -/
theorem tests_paint (mode : LaneMode) (scissor : Region) (r : Rectangle)
    (s : Surface) (htest : effectiveTest? policy test = some test') :
    r.Tests test' scissor s (r.paint mode policy test scissor s).surface
      (r.paint mode policy test scissor s).written := by
  have h := r.receives_paint mode policy test scissor s
  have hpadding (j : Nat) (hj : s.layout.pixel? j = none) :
      s.layout.candidateIn? scissor (r.candidate? policy test) j = none :=
    Surface.Layout.candidateIn?_padding hj ..
  refine ⟨h.layout_eq, fun j hj => ?_, fun p hp => ?_, ?_⟩
  · -- neither padding nor a pixel that is not covered has a candidate
    refine h.getElem?_cells_of_eq_none ?_
    cases hpixel : s.layout.pixel? j with
    | none => exact hpadding j hpixel
    | some p =>
      obtain ⟨hx, hy, rfl⟩ := Surface.Layout.pixel?_eq_some_iff.1 hpixel
      exact (candidateIn?_index htest hx hy).trans
        (if_neg fun hp => hj p hp rfl)
  · -- the candidate is a depth, of which floats compare as whole numbers do
    obtain ⟨⟨hx, hy⟩, -⟩ := mem_covered.1 hp
    rw [h.get?_eq, candidateIn?_index htest hx hy, if_pos hp]
    refine Option.map_congr fun old _ => ?_
    rw [← DepthTest.passes_toFloat32]
    rfl
  · rw [h.written_eq_card hpadding, covered, Finset.filter_filter]
    congr 1
    refine Finset.filter_congr fun p hp => ?_
    have hcovered : p ∈ r.covered scissor s ↔ _ :=
      Finset.mem_filter.trans (and_iff_right hp)
    obtain ⟨hx, hy⟩ := Finset.mem_product.1 hp
    rw [← hcovered, candidateIn?_index htest (Finset.mem_range.1 hx)
      (Finset.mem_range.1 hy)]
    -- of the pixels of the surface, those that are not covered have nothing to pass
    by_cases hin : p ∈ r.covered scissor s
    · rw [if_pos hin, iff_true_intro hin, true_and]
      simp only [← DepthTest.passes_toFloat32]
      rfl
    · rw [if_neg hin, iff_false_intro hin, false_and]
      simp

/-- If all tests pass, every covered pixel has been written. -/
theorem Tests.of_always {after : Surface} {written : Nat}
    (h : r.Tests .always scissor s after written) :
    (∀ p ∈ r.covered scissor s, after.get? p.1 p.2 = some r.depth)
      ∧ written = (r.covered scissor s).card := by
  have hold (p : Nat × Nat) (hp : p ∈ r.covered scissor s) :
      ∃ old, s.get? p.1 p.2 = some old := by
    obtain ⟨⟨hx, hy⟩, -⟩ := mem_covered.1 hp
    exact Surface.exists_get?_eq_some hx hy
  constructor
  · intro p hp
    obtain ⟨old, hvalue⟩ := hold p hp
    rw [h.get?_eq p hp, hvalue]
    rfl
  · rw [h.written_eq, Finset.filter_true_of_mem]
    intro p hp
    obtain ⟨old, hvalue⟩ := hold p hp
    rw [hvalue]
    rfl

/-- What is skipped: the test that never passes, and under one policy all others but
the one that always does. -/
theorem effectiveTest?_eq_none
    (h : test = .never ∨ test ≠ .always ∧ policy = .skip) :
    effectiveTest? policy test = none := by
  obtain rfl | ⟨halways, rfl⟩ := h
  · rfl
  · cases test with
    | always => exact absurd rfl halways
    | _ => rfl

theorem effectiveTest?_perPixel (halways : test ≠ .always) (hnever : test ≠ .never) :
    effectiveTest? .perPixel test = some test := by
  cases test with
  | never => exact absurd rfl hnever
  | always => exact absurd rfl halways
  | _ => rfl

/-- **Painting a rectangle**, whatever the surface, the scissor, the corners and the
number of columns handled at a time are. Under the test that always passes the covered
pixels are left with the depth of the rectangle, and as many cells are written. Under
the one that never passes nothing happens, and under the others the policy may skip the
rectangle with the same effect, or have the new depth compared with the old ones as
whole numbers: then the covered pixels for which that holds are left with the new depth,
and they are the written ones. All other cells stay as they are. Which of the corners is
given first makes no difference. -/
theorem paint_eq_fill (mode : LaneMode) (policy : RectangleTest) (test : DepthTest)
    (scissor : Region) (r : Rectangle) (s : Surface) :
    let painted := r.paint mode policy test scissor s
    let covered := r.covered scissor s
    painted.surface.layout = s.layout
      ∧ (∀ j, (∀ p ∈ covered, s.index p.1 p.2 ≠ j) →
        painted.surface.cells[j]? = s.cells[j]?)
      ∧ (test = .always →
        (∀ p ∈ covered, painted.surface.get? p.1 p.2 = some r.depth)
          ∧ painted.written = covered.card)
      ∧ (test = .never ∨ test ≠ .always ∧ policy = .skip →
        painted.surface = s ∧ painted.written = 0)
      ∧ (test ≠ .always ∧ test ≠ .never ∧ policy = .perPixel →
        let replaces (old : UInt16) := test.holds r.depth.toNat old.toNat
        (∀ p ∈ covered, painted.surface.get? p.1 p.2
            = (s.get? p.1 p.2).map fun old =>
                if replaces old then r.depth else old)
          ∧ painted.written
            = (covered.filter fun p => (s.get? p.1 p.2).any replaces).card)
      ∧ { r with x₁ := r.x₂, x₂ := r.x₁ }.paint mode policy test scissor s
        = painted
      ∧ { r with y₁ := r.y₂, y₂ := r.y₁ }.paint mode policy test scissor s
        = painted := by
  intro painted covered
  have hfill (test' : DepthTest) (htest : effectiveTest? policy test = some test') :
      r.Tests test' scissor s painted.surface painted.written :=
    tests_paint mode scissor r s htest
  have hnothing (htest : effectiveTest? policy test = none) :
      painted = .nothing s 0 := paint_eq_nothing htest
  -- under one test or not painted at all: each part is about one of the two
  refine ⟨?_, ?_, ?_, ?_, ?_, ?_, ?_⟩
  · cases htest : effectiveTest? policy test with
    | none => rw [hnothing htest]; rfl
    | some test' => exact (hfill test' htest).layout_eq
  · intro j hj
    cases htest : effectiveTest? policy test with
    | none => rw [hnothing htest]; rfl
    | some test' => exact (hfill test' htest).getElem?_cells j hj
  · rintro rfl
    exact (hfill .always rfl).of_always
  · intro hskipped
    rw [hnothing (effectiveTest?_eq_none hskipped)]
    exact ⟨rfl, rfl⟩
  · rintro ⟨halways, hnever, rfl⟩
    have htested := hfill test (effectiveTest?_perPixel halways hnever)
    exact ⟨htested.get?_eq, htested.written_eq⟩
  · -- exchanged corners make the same region
    refine paint_congr mode policy test scissor s ?_ rfl
    exact region_congr (min_comm ..) rfl (max_comm ..) rfl
  · refine paint_congr mode policy test scissor s ?_ rfl
    exact region_congr rfl (min_comm ..) rfl (max_comm ..)

end Rectangle

end DepthPrepass
