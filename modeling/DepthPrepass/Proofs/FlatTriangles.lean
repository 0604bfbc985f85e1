import DepthPrepass.Proofs.Barycentric
import DepthPrepass.Proofs.DirectEvaluation
import DepthPrepass.Proofs.RectangleFill

/-!
# Triangles at one depth

If all corners have the same depth, every mean of their depths is that depth, but
what is stored need not be: the depth is divided by the area, multiplied by the edge
values and added up again. This may end a little below the depth, and then the whole
part is one less. A rectangle stores its depth as it is, so the two can differ, though
never by more than one.

* `Triangle.BoxFits.testsAt_iff`: which pixels are tested.
* `Triangle.Flat.whole_depthAt`: what is stored at a tested pixel.
* `Triangle.paint_flat`: painting such a triangle.
-/

namespace DepthPrepass

namespace Triangle

variable {policy : Policy} {culling : Culling} {scissor : Region}
  {t : Triangle} {s : Surface} {z : UInt16} {x y : Nat}

/-! ## Flat triangles -/

/-- Whether all corners have the depth `z`. -/
def Flat (t : Triangle) (z : UInt16) : Prop :=
  t.first.z = z ∧ t.second.z = z ∧ t.third.z = z

instance (t : Triangle) (z : UInt16) : Decidable (t.Flat z) :=
  inferInstanceAs (Decidable (_ ∧ _))

theorem Flat.drawn (h : t.Flat z) (culling : Culling) :
    (t.drawn culling).Flat z := by
  unfold Triangle.drawn
  split
  · exact h
  · exact ⟨h.1, h.2.2, h.2.1⟩

theorem Flat.nearest_eq (h : t.Flat z) : t.nearest = z.toNat := by
  rw [nearest, h.1, h.2.1, h.2.2, min_self, min_self]

theorem Flat.farthest_eq (h : t.Flat z) : t.farthest = z.toNat := by
  rw [farthest, h.1, h.2.1, h.2.2, max_self, max_self]

/-- **What is stored of a flat triangle**: its depth, or one less. -/
theorem Flat.whole_depthAt (hflat : t.Flat z) {low high : Point}
    (hbox : t.InBox low high) (harea : 0 < Edge.area t)
    (hz : Point.InBox ⟨(Int32.ofNat x).toInt, (Int32.ofNat y).toInt⟩ low high)
    (hinside : Walk.inside (t.edgesAt x y) = true) :
    (t.depthAt x y).toUInt16.toNat ≤ z.toNat
      ∧ z.toNat ≤ (t.depthAt x y).toUInt16.toNat + 1 := by
  have hsplits : Splits (Edge.area t) (t.edgesAt x y) :=
    hbox.splits t.box hz hinside
  have hwhole := hsplits.whole_depthAt harea t.box
  rw [hflat.nearest_eq, hflat.farthest_eq] at hwhole
  exact hwhole

/-! ## Pixels -/

/-- If the box of a triangle fits a word, the pixels that are tested are those of the
closed triangle. -/
theorem BoxFits.testsAt_iff (h : t.BoxFits) :
    t.TestsAt culling (s.clip scissor) x y
      ↔ (s.clip scissor).Covers x y ∧ t.Holds x y ∧ t.Faces culling := by
  have hbox := h.inBox.drawn culling
  unfold TestsAt
  dsimp only
  rw [← Walk.inside_iff_zero_le, h.inBox.area_drawn_pos_iff]
  -- in the clip region the words are the coordinates of the pixel
  have hholds (hclip : (s.clip scissor).Covers x y) (hfaces : t.Faces culling)
      (hz : Point.InBox ⟨x, y⟩ t.low t.high) :
      Walk.inside ((t.drawn culling).edgesAt x y) = true ↔ t.Holds x y := by
    obtain ⟨hx, hy⟩ := hclip.toInt_ofNat
    rw [← hx, ← hy] at hz
    have hiff : Walk.inside (((t.drawn culling).walkIn t.box).valuesAt
          (.ofNat x) (.ofNat y)) = true
        ↔ (t.drawn culling).Holds (Int32.ofNat x).toInt (Int32.ofNat y).toInt :=
      hbox.inside_valuesAt_iff (h.inBox.area_drawn_pos_iff.2 hfaces) hz
    rw [hx, hy, holds_drawn_iff] at hiff
    exact hiff
  constructor
  · rintro ⟨hfaces, hclip, hz, hin⟩
    exact ⟨hclip, (hholds hclip hfaces hz).1 hin, hfaces⟩
  · rintro ⟨hclip, hin, hfaces⟩
    obtain ⟨hfirst, hsecond, hthird⟩ := t.inBox_corners
    have hz := hin.inBox hfirst hsecond hthird
    exact ⟨hfaces, hclip, hz, (hholds hclip hfaces hz).2 hin⟩

/-- Under the test that always passes, every tested pixel is left with the whole
part of its depth. -/
theorem get?_paint_always (mode : LaneMode) (hx : x < s.layout.width)
    (hy : y < s.layout.height) :
    (t.paint mode policy .always scissor s).surface.get? x y
      = (s.get? x y).map fun stored =>
          if t.TestsAt policy.culling (s.clip scissor) x y then
            ((t.drawn policy.culling).depthAt x y).toUInt16
          else stored := by
  rw [(t.receives_paint mode policy .always scissor s).get?_eq]
  refine Option.map_congr fun stored _ => ?_
  rw [settleAll_index hx hy, passesAt, effectiveTest?_always]
  simp only [DepthTest.passes, Bool.and_true, decide_eq_true_eq]

/-! ## Painting -/

/-- **A flat triangle keeps its depth or loses one.** If its box fits a word, then
under the test that always passes each pixel of the surface that is in the scissor and
in the closed triangle is left with the depth of the corners or with one less, and
with nothing else, if a drawn side is seen; all other cells stay as they are. A
rectangle of the same depth leaves exactly this depth, so where both are painted they
differ by at most one. -/
theorem paint_flat (mode : LaneMode) (policy : Policy) (scissor : Region)
    (t : Triangle) (z : UInt16) (s : Surface) (hfits : t.BoxFits)
    (hflat : t.Flat z) :
    let painted := t.paint mode policy .always scissor s
    let covered (x y : Nat) := (x < s.layout.width ∧ y < s.layout.height)
      ∧ scissor.Covers x y ∧ t.Holds x y ∧ t.Faces policy.culling
    (∀ x y, covered x y → ∃ depth, painted.surface.get? x y = some depth
        ∧ depth.toNat ≤ z.toNat ∧ z.toNat ≤ depth.toNat + 1)
      ∧ (∀ j, (∀ x y, covered x y → s.index x y ≠ j) →
        painted.surface.cells[j]? = s.cells[j]?)
      ∧ ∀ (r : Rectangle) (mode' : LaneMode) (policy' : RectangleTest)
          (scissor' : Region), r.depth = z →
          ∀ x y, covered x y → (x, y) ∈ r.covered scissor' s →
            (r.paint mode' policy' .always scissor' s).surface.get? x y
              = some z := by
  intro painted covered
  -- on the surface the tested pixels are the covered ones
  have htests {x y : Nat} (hin : x < s.layout.width ∧ y < s.layout.height) :
      t.TestsAt policy.culling (s.clip scissor) x y ↔ covered x y := by
    have hclip : (s.clip scissor).Covers x y ↔ scissor.Covers x y :=
      Surface.covers_clip_natCast.trans (and_iff_left hin)
    rw [hfits.testsAt_iff, hclip]
    exact (and_iff_right hin).symm
  refine ⟨fun x y hcovered => ?_, fun j hj => ?_, ?_⟩
  · -- a covered pixel gets the whole part of its interpolated depth, which is at most
    -- one off
    have hin := hcovered.1
    have htest := (htests hin).2 hcovered
    obtain ⟨stored, hstored⟩ := Surface.exists_get?_eq_some hin.1 hin.2
    refine ⟨((t.drawn policy.culling).depthAt x y).toUInt16, ?_, ?_⟩
    · rw [get?_paint_always mode hin.1 hin.2, hstored, Option.map_some,
        if_pos htest]
    · obtain ⟨harea, hclip, hz, hinside⟩ := htest
      obtain ⟨hx, hy⟩ := hclip.toInt_ofNat
      rw [← hx, ← hy] at hz
      exact (hflat.drawn policy.culling).whole_depthAt
        (hfits.inBox.drawn policy.culling) harea hz
        (Walk.inside_iff_zero_le.2 hinside)
  · -- any other cell is padding or the cell of a pixel that is not tested
    have hreceives := t.receives_paint mode policy .always scissor s
    refine hreceives.getElem?_cells_of_eq_none ?_
    cases hpixel : s.layout.pixel? j with
    | none => exact Surface.Layout.candidateIn?_padding hpixel ..
    | some p =>
      obtain ⟨hx, hy, rfl⟩ := Surface.Layout.pixel?_eq_some_iff.1 hpixel
      have htest : ¬ t.TestsAt policy.culling (s.clip scissor) p.1 p.2 :=
        fun htest => hj p.1 p.2 ((htests ⟨hx, hy⟩).1 htest) rfl
      show s.layout.candidateIn? scissor (t.candidate? policy .always)
        (s.index p.1 p.2) = none
      rw [candidateIn?_index hx hy, effectiveTest?_always, Option.bind_some,
        if_neg htest]
  · rintro r mode' policy' scissor' rfl x y - hmem
    exact ((r.tests_paint mode' scissor' s rfl).of_always).1 (x, y) hmem

/-- Half a square of 3 × 3 pixels: its middle is a pixel, which has a third of the
area over each edge. -/
theorem paint_flat_half_square :
    let t : Triangle :=
      ⟨⟨0, 0, 13, false⟩, ⟨0, 3, 13, false⟩, ⟨3, 0, 13, false⟩⟩
    let r : Rectangle := ⟨4, 4, 0, 0, 13⟩
    let s := Surface.blank 4 4
    t.BoxFits ∧ t.Flat 13
      ∧ (∃ depth,
          (t.paint .wide {} .always s.bounds s).surface.get? 1 1 = some depth
            ∧ depth.toNat ≤ 13 ∧ 13 ≤ depth.toNat + 1)
      ∧ (r.paint .wide .skip .always s.bounds s).surface.get? 1 1
          = some 13 := by
  intro t r s
  have hfits : t.BoxFits := by decide
  have hflat : t.Flat 13 := by decide
  obtain ⟨hcovered, -, hrectangle⟩ :=
    paint_flat .wide {} s.bounds t 13 s hfits hflat
  have hholds : Point.InTriangle ⟨1, 1⟩ ⟨0, 0⟩ ⟨0, 3⟩ ⟨3, 0⟩ :=
    ⟨1 / 3, 1 / 3, 1 / 3, by norm_num, by norm_num, by norm_num, by norm_num,
      by norm_num, by norm_num⟩
  have hin : (1 < s.layout.width ∧ 1 < s.layout.height)
      ∧ s.bounds.Covers 1 1 ∧ t.Holds 1 1
      ∧ t.Faces ({} : Policy).culling :=
    ⟨by decide, by decide, hholds, by decide⟩
  exact ⟨hfits, hflat, hcovered 1 1 hin,
    hrectangle r .wide .skip s.bounds rfl 1 1 hin (by decide)⟩

/-- One is lost there: dividing by the area of nine and multiplying again ends just
below the depth. -/
theorem flat_triangle_loses_one :
    let t : Triangle :=
      ⟨⟨0, 0, 13, false⟩, ⟨0, 3, 13, false⟩, ⟨3, 0, 13, false⟩⟩
    let r : Rectangle := ⟨4, 4, 0, 0, 13⟩
    let s := Surface.blank 4 4
    t.BoxFits ∧ t.Flat 13
      ∧ (t.paint .wide {} .always s.bounds s).surface.get? 1 1 = some 12
      ∧ (r.paint .wide .skip .always s.bounds s).surface.get? 1 1
          = some 13 := by
  decide +kernel

end Triangle

end DepthPrepass
