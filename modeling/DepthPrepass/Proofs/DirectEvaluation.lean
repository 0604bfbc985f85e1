import Mathlib.Algebra.BigOperators.Group.Finset.Piecewise
import Mathlib.Data.Finset.Prod
import DepthPrepass.Proofs.Coverage
import DepthPrepass.Proofs.Strokes

/-!
# Direct evaluation

A triangle can be painted without any walk: at every pixel of the clip region
that is in the box around the corners, the edge functions are evaluated from
scratch, and if none of them is negative, the depth there is tested. This is slow
and plainly right. It leaves what painting leaves, wherever the corners are: the
edge functions may have wrapped, but they wrap in the same way.

* `Triangle.TestsAt`, `Triangle.depthAt`: whether a pixel is tested, and with
  which depth.
* `Triangle.passesAt`: whether it is written.
* `Surface.sum_cells`: what is summed over cells, summed over pixels.
* `Surface.Receives.written_eq_card`: writes are counted in pixels where each
  pixel receives one candidate at most.
* `Triangle.paint_eq_direct`: painting, pixel by pixel.
-/

namespace DepthPrepass

namespace Triangle

/-! ## The reference -/

/-- The edge functions of corners that are in order, evaluated at a pixel. -/
def edgesAt (t : Triangle) (x y : Nat) : Triple Int32 :=
  (Edge.ofCorners t).map (·.eval (.ofNat x) (.ofNat y))

/-- The depth of corners that are in order at a pixel: their own depths over the
area, each weighted by its edge function. -/
def depthAt (t : Triangle) (x y : Nat) : Float32 :=
  let w := t.edgesAt x y
  let inverse := 1 / Binary32.ofInt32 (Edge.area t)
  Binary32.ofInt32 w.first * (t.first.z.toFloat32 * inverse)
    + Binary32.ofInt32 w.second * (t.second.z.toFloat32 * inverse)
    + Binary32.ofInt32 w.third * (t.third.z.toFloat32 * inverse)

/-- Whether a pixel is tested: a drawn side is seen, the pixel is in the clip
region and in the box around the corners, boundary included, and no edge function
is negative there. -/
def TestsAt (culling : Culling) (clip : Region) (t : Triangle) (x y : Nat) :
    Prop :=
  let w := (t.drawn culling).edgesAt x y
  0 < Edge.area (t.drawn culling)
    ∧ clip.Covers x y ∧ Point.InBox ⟨x, y⟩ t.low t.high
    ∧ 0 ≤ w.first ∧ 0 ≤ w.second ∧ 0 ≤ w.third

instance (culling : Culling) (clip : Region) (t : Triangle) (x y : Nat) :
    Decidable (t.TestsAt culling clip x y) :=
  inferInstanceAs (Decidable (_ ∧ _))

/-- A pixel that is far outside of the triangle and yet is tested, because the
edge function that should be negative there wraps. -/
example :
    TestsAt .frontOnly ⟨0, 0, 70001, 70001⟩
        ⟨⟨0, 0, 0, false⟩, ⟨0, 70000, 0, false⟩, ⟨70000, 0, 0, false⟩⟩
        65000 65000
      ∧ Point.cross ⟨65000, 65000⟩ ⟨70000, 0⟩ ⟨0, 70000⟩ < 0 := by decide

/-- Whether a pixel is tested and the test passes against the stored depth. -/
def passesAt (policy : Policy) (test : DepthTest) (clip : Region)
    (t : Triangle) (x y : Nat) (stored : UInt16) : Bool :=
  match effectiveTest? policy.triangleNever test with
  | none => false
  | some test =>
    t.TestsAt policy.culling clip x y
      && test.passes ((t.drawn policy.culling).depthAt x y) stored.toFloat32

end Triangle

/-! ## Cells and pixels -/

namespace Surface

/-- A sum over cells to which padding contributes nothing is a sum over
pixels. -/
theorem sum_cells (s : Surface) {f : Nat → Nat}
    (h : ∀ j, s.layout.pixel? j = none → f j = 0) :
    ∑ j ∈ Finset.range s.cells.size, f j
      = ∑ p ∈ Finset.range s.layout.width ×ˢ Finset.range s.layout.height,
          f (s.index p.1 p.2) := by
  -- different pixels have different cells, so the sum may run over cells instead
  have hinj : Set.InjOn (fun p : Nat × Nat => s.index p.1 p.2)
      (Finset.range s.layout.width ×ˢ Finset.range s.layout.height :
        Finset (Nat × Nat)) := by
    rintro ⟨x, y⟩ hp ⟨x', y'⟩ hp' hindex
    simp only [Finset.coe_product, Finset.coe_range, Set.mem_prod,
      Set.mem_Iio] at hp hp'
    obtain ⟨rfl, rfl⟩ := s.layout.index_inj hp.1 hp'.1 hindex
    rfl
  calc ∑ j ∈ Finset.range s.cells.size, f j
    _ = ∑ j ∈ (Finset.range s.layout.width ×ˢ Finset.range s.layout.height).image
          fun p => s.index p.1 p.2, f j := by
      refine (Finset.sum_subset ?_ fun j _ hj => h j ?_).symm
      · -- the cells of pixels are cells, and the other ones contribute nothing
        intro j hj
        obtain ⟨p, hp, rfl⟩ := Finset.mem_image.1 hj
        obtain ⟨hx, hy⟩ := Finset.mem_product.1 hp
        exact Finset.mem_range.2
          (s.index_lt_size (Finset.mem_range.1 hx) (Finset.mem_range.1 hy))
      · refine Option.eq_none_iff_forall_ne_some.2 fun p hp => hj ?_
        obtain ⟨hx, hy, hindex⟩ := Layout.pixel?_eq_some_iff.1 hp
        exact Finset.mem_image.2 ⟨p, Finset.mem_product.2
          ⟨Finset.mem_range.2 hx, Finset.mem_range.2 hy⟩, hindex⟩
    _ = _ := Finset.sum_image hinj

/-- The candidate for the cell of a pixel. -/
theorem Layout.candidateIn?_index {layout : Layout} {x y : Nat}
    (hx : x < layout.width) (hy : y < layout.height) (region : Region)
    (c : Nat × Nat → Option Candidate) :
    layout.candidateIn? region c (layout.index x y)
      = if region.Covers x y then c (x, y) else none := by
  have hpixel : layout.pixel? (layout.index x y) = some (x, y) :=
    Layout.pixel?_eq_some_iff.2 ⟨hx, hy, rfl⟩
  unfold candidateIn?
  rw [hpixel, Option.bind_some]

/-- Padding has no candidate. -/
theorem Layout.candidateIn?_padding {layout : Layout} {j : Nat}
    (hj : layout.pixel? j = none) (region : Region)
    (c : Nat × Nat → Option Candidate) :
    layout.candidateIn? region c j = none := by
  unfold candidateIn?
  rw [hj]
  rfl

namespace Receives

variable {s after : Surface} {c : Nat → Option Candidate} {written : Nat}

/-- A cell that receives nothing stays as it is. -/
theorem getElem?_cells_of_eq_none
    (h : s.Receives (fun j => (c j).toList) after written) {j : Nat}
    (hj : c j = none) : after.cells[j]? = s.cells[j]? := by
  rw [h.getElem?_cells, hj]
  exact congrFun Option.map_id _

/-- Where only pixels receive candidates, and each of them one at most, the
written cells are counted by the pixels that have passed. -/
theorem written_eq_card (h : s.Receives (fun j => (c j).toList) after written)
    (hpadding : ∀ j, s.layout.pixel? j = none → c j = none) :
    written
      = ((Finset.range s.layout.width ×ˢ Finset.range s.layout.height).filter
          fun p => (s.get? p.1 p.2).any fun stored =>
            (c (s.index p.1 p.2)).any (·.passes stored)).card := by
  -- padding receives nothing, so only the cells of pixels are counted
  have hzero (j : Nat) (hj : s.layout.pixel? j = none) :
      s.writesAt (c j).toList j = 0 := by
    rw [hpadding j hj]
    unfold writesAt
    cases s.cells[j]? <;> rfl
  rw [h.written_eq, s.sum_cells hzero, Finset.card_filter]
  refine Finset.sum_congr rfl fun p hp => ?_
  obtain ⟨hx, hy⟩ := Finset.mem_product.1 hp
  have hget : s.get? p.1 p.2 = s.cells[s.index p.1 p.2]? :=
    if_pos ⟨Finset.mem_range.1 hx, Finset.mem_range.1 hy⟩
  unfold writesAt
  rw [hget]
  cases s.cells[s.index p.1 p.2]? with
  | none => rfl
  | some stored =>
    -- its one candidate writes a pixel once or not at all
    cases c (s.index p.1 p.2) with
    | none => rfl
    | some candidate =>
      show (candidate.passes stored).toNat + 0
        = if candidate.passes stored = true then 1 else 0
      cases candidate.passes stored <;> rfl

end Receives

end Surface

namespace Triangle

/-! ## What a pixel receives -/

variable {policy : Policy} {test : DepthTest} {clip scissor : Region}
  {t : Triangle} {s : Surface} {x y : Nat}

/-- The fragment that the walk of a triangle has at a pixel is there if no edge
function is negative, and it has the depth there. -/
theorem fragmentAt?_eq (t : Triangle) (x y : Nat) :
    t.fragmentAt? (x, y)
      = if 0 ≤ (t.edgesAt x y).first ∧ 0 ≤ (t.edgesAt x y).second
          ∧ 0 ≤ (t.edgesAt x y).third then
          some ⟨x, y, t.depthAt x y⟩
        else none :=
  if_congr Walk.inside_iff_zero_le rfl rfl

/-- On a surface a pixel is tested if the scissor and the box have it, a drawn
side is seen, and no edge function is negative. -/
theorem testsAt_iff {culling : Culling} (hx : x < s.layout.width)
    (hy : y < s.layout.height) :
    t.TestsAt culling (s.clip scissor) x y
      ↔ scissor.Covers x y
        ∧ (t.box.Covers x y ∧ 0 < Edge.area (t.drawn culling))
        ∧ 0 ≤ ((t.drawn culling).edgesAt x y).first
        ∧ 0 ≤ ((t.drawn culling).edgesAt x y).second
        ∧ 0 ≤ ((t.drawn culling).edgesAt x y).third := by
  have hclip : (s.clip scissor).Covers x y ↔ scissor.Covers x y :=
    Surface.covers_clip_natCast.trans (and_iff_left ⟨hx, hy⟩)
  -- within the clip region the box may be asked in words or in whole numbers
  have hbox : t.box.Covers x y ∧ (s.clip scissor).Covers x y
      ↔ Point.InBox ⟨x, y⟩ t.low t.high ∧ (s.clip scissor).Covers x y := by
    rw [← Region.covers_inter, covers_box_inter]
  unfold TestsAt
  constructor
  · rintro ⟨harea, hcovers, hin, hinside⟩
    exact ⟨hclip.1 hcovers, ⟨(hbox.2 ⟨hin, hcovers⟩).1, harea⟩, hinside⟩
  · rintro ⟨hscissor, ⟨hcovers, harea⟩, hinside⟩
    have hon := hclip.2 hscissor
    exact ⟨harea, hon, (hbox.1 ⟨hcovers, hon⟩).1, hinside⟩

/-- A pixel receives a candidate if and only if it is tested. -/
theorem candidateIn?_index (hx : x < s.layout.width) (hy : y < s.layout.height) :
    s.layout.candidateIn? scissor (t.candidate? policy test) (s.index x y)
      = (effectiveTest? policy.triangleNever test).bind fun test' =>
          if t.TestsAt policy.culling (s.clip scissor) x y then
            some ⟨test', (t.drawn policy.culling).depthAt x y,
              ((t.drawn policy.culling).depthAt x y).toUInt16⟩
          else none := by
  rw [Surface.index, Surface.Layout.candidateIn?_index hx hy]
  unfold candidate?
  -- the conditions are nested on one side and side by side on the other
  cases effectiveTest? policy.triangleNever test with
  | none => exact ite_self _
  | some test' =>
    simp only [Option.bind_some, fragmentAt?_eq,
      if_congr (testsAt_iff hx hy) rfl rfl]
    by_cases hscissor : scissor.Covers x y
    · by_cases hdrawn :
        t.box.Covers x y ∧ 0 < Edge.area (t.drawn policy.culling)
      · rw [if_pos hscissor, if_pos hdrawn]
        by_cases hinside : 0 ≤ ((t.drawn policy.culling).edgesAt x y).first
          ∧ 0 ≤ ((t.drawn policy.culling).edgesAt x y).second
          ∧ 0 ≤ ((t.drawn policy.culling).edgesAt x y).third
        · rw [if_pos hinside, if_pos ⟨hscissor, hdrawn, hinside⟩]
          rfl
        · rw [if_neg hinside, if_neg fun h => hinside h.2.2]
          rfl
      · rw [if_pos hscissor, if_neg hdrawn, if_neg fun h => hdrawn h.2.1]
    · rw [if_neg hscissor, if_neg fun h => hscissor h.1]

/-- A pixel receives nothing and does not pass, or it receives its depth and
passes if the test does. -/
theorem candidateIn?_index_cases (hx : x < s.layout.width)
    (hy : y < s.layout.height) :
    (s.layout.candidateIn? scissor (t.candidate? policy test) (s.index x y)
          = none
        ∧ ∀ stored, t.passesAt policy test (s.clip scissor) x y stored = false)
      ∨ ∃ test',
        s.layout.candidateIn? scissor (t.candidate? policy test) (s.index x y)
            = some ⟨test', (t.drawn policy.culling).depthAt x y,
              ((t.drawn policy.culling).depthAt x y).toUInt16⟩
          ∧ ∀ stored, t.passesAt policy test (s.clip scissor) x y stored
            = test'.passes ((t.drawn policy.culling).depthAt x y)
              stored.toFloat32 := by
  rw [candidateIn?_index hx hy]
  unfold passesAt
  -- without a test that is drawn no pixel passes, whether or not it is tested
  cases effectiveTest? policy.triangleNever test with
  | none => exact .inl ⟨rfl, fun _ => rfl⟩
  | some test' =>
    dsimp only [Option.bind_some]
    by_cases htests : t.TestsAt policy.culling (s.clip scissor) x y
    · refine .inr ⟨test', if_pos htests, fun stored => ?_⟩
      rw [decide_eq_true htests, Bool.true_and]
    · refine .inl ⟨if_neg htests, fun stored => ?_⟩
      rw [decide_eq_false htests, Bool.false_and]

/-- What is left of a pixel. -/
theorem settleAll_index (hx : x < s.layout.width) (hy : y < s.layout.height)
    (stored : UInt16) :
    Candidate.settleAll (s.layout.candidateIn? scissor
        (t.candidate? policy test) (s.index x y)).toList stored
      = if t.passesAt policy test (s.clip scissor) x y stored then
          ((t.drawn policy.culling).depthAt x y).toUInt16
        else stored := by
  rcases candidateIn?_index_cases hx hy with
    ⟨hnone, hfails⟩ | ⟨test', hsome, hpasses⟩
  · rw [hnone, hfails]
    rfl
  · rw [hsome, hpasses]
    rfl

/-- The candidate of a pixel passes if the pixel does. -/
theorem any_candidateIn?_index (hx : x < s.layout.width)
    (hy : y < s.layout.height) (stored : UInt16) :
    (s.layout.candidateIn? scissor (t.candidate? policy test)
        (s.index x y)).any (·.passes stored)
      = t.passesAt policy test (s.clip scissor) x y stored := by
  rcases candidateIn?_index_cases hx hy with
    ⟨hnone, hfails⟩ | ⟨test', hsome, hpasses⟩
  · rw [hnone, hfails]
    rfl
  · rw [hsome, hpasses]
    rfl

end Triangle

/-! ## Painting -/

/-- **Painting is direct evaluation.** Whichever way the region is walked, and
wherever the corners are, painting a triangle leaves a pixel with the whole part
of its depth if it is tested and passes, and otherwise as it was. Cells that are
no pixels stay as they were, and what is said to be written are the pixels that
have passed. -/
theorem Triangle.paint_eq_direct (mode : LaneMode) (policy : Policy)
    (test : DepthTest) (scissor : Region) (t : Triangle) (s : Surface) :
    let painted := t.paint mode policy test scissor s
    let passes (x y : Nat) (stored : UInt16) :=
      t.passesAt policy test (s.clip scissor) x y stored
    painted.surface.layout = s.layout
      ∧ (∀ x y, painted.surface.get? x y
        = (s.get? x y).map fun stored =>
            if passes x y stored then
              ((t.drawn policy.culling).depthAt x y).toUInt16
            else stored)
      ∧ (∀ j, s.layout.pixel? j = none →
        painted.surface.cells[j]? = s.cells[j]?)
      ∧ painted.written
        = ((Finset.range s.layout.width ×ˢ Finset.range s.layout.height).filter
            fun p => (s.get? p.1 p.2).any (passes p.1 p.2)).card := by
  intro painted passes
  -- all parts are read off what each cell receives: one candidate or none
  have hreceives : s.Receives
      (fun j => (s.layout.candidateIn? scissor
        (t.candidate? policy test) j).toList) painted.surface painted.written :=
    t.receives_paint mode policy test scissor s
  have hpadding (j : Nat) (hj : s.layout.pixel? j = none) :
      s.layout.candidateIn? scissor (t.candidate? policy test) j = none :=
    Surface.Layout.candidateIn?_padding hj ..
  refine ⟨hreceives.layout_eq, fun x y => ?_, fun j hj => ?_, ?_⟩
  · rw [hreceives.get?_eq]
    by_cases hin : x < s.layout.width ∧ y < s.layout.height
    · exact Option.map_congr fun stored _ =>
        settleAll_index hin.1 hin.2 stored
    · -- a place outside the extents holds nothing before and after
      have hnothing : s.get? x y = none := if_neg hin
      rw [hnothing]
      rfl
  · exact hreceives.getElem?_cells_of_eq_none (hpadding j hj)
  · -- writes are counted in pixels, and the one candidate of a pixel passes
    -- exactly if the pixel does
    rw [hreceives.written_eq_card hpadding]
    refine congrArg Finset.card (Finset.filter_congr fun p hp => ?_)
    obtain ⟨hx, hy⟩ := Finset.mem_product.1 hp
    have hpasses (stored : UInt16) :
        (s.layout.candidateIn? scissor (t.candidate? policy test)
          (s.index p.1 p.2)).any (·.passes stored) = passes p.1 p.2 stored :=
      any_candidateIn?_index (Finset.mem_range.1 hx) (Finset.mem_range.1 hy)
        stored
    rw [funext hpasses]

end DepthPrepass
