import Mathlib.Algebra.BigOperators.Group.Finset.Piecewise
import Mathlib.Algebra.Order.BigOperators.Group.Finset
import DepthPrepass.Proofs.Tiling

/-!
# What painting leaves alone

A scissor is a promise: no cell changes unless it is the cell of a pixel that is
both in the scissor and on the surface. Cells between the rows and after the last
row are storage without pixels, so nothing changes them, whatever is painted and
however many columns are handled at a time. And what changes has been counted: a
cell that holds something else afterwards was written at least once.

* `Candidate.settleAll_of_writes_eq_zero`: a cell that is not written keeps what
  it holds.
* `Surface.ChangesWithin`: the promise, for one surface and what is left of it.
* `Surface.Receives.changesWithin`: it holds where only pixels in the scissor
  receive anything.
* `Rasterizer.changesWithin_scissor`: rectangles, triangles and draws.
-/

namespace DepthPrepass

/-! ## One cell -/

namespace Candidate

theorem settle_of_not_passes {c : Candidate} {stored : UInt16}
    (h : c.passes stored = false) : settle stored c = stored :=
  if_neg (Bool.eq_false_iff.1 h)

/-- A cell that is not written keeps what it holds. -/
theorem settleAll_of_writes_eq_zero {cs : List Candidate} {stored : UInt16}
    (h : writes cs stored = 0) : settleAll cs stored = stored := by
  induction cs with
  | nil => rfl
  | cons c cs ih =>
    obtain ⟨hfirst, hrest⟩ := Nat.add_eq_zero_iff.1 h
    have hkept : settle stored c = stored := by
      cases hpass : c.passes stored with
      | false => exact settle_of_not_passes hpass
      | true =>
        rw [hpass] at hfirst
        cases hfirst
    rw [hkept] at hrest
    show settleAll cs (settle stored c) = stored
    rw [hkept]
    exact ih hrest

/-- Each candidate writes a cell once at most. -/
theorem writes_le_length (cs : List Candidate) (stored : UInt16) :
    writes cs stored ≤ cs.length := by
  induction cs generalizing stored with
  | nil => exact Nat.le_refl 0
  | cons c cs ih =>
    have hfirst : (c.passes stored).toNat ≤ 1 := Bool.toNat_le _
    have hrest := ih (settle stored c)
    rw [writes, List.length_cons]
    omega

end Candidate

/-! ## All cells -/

namespace Surface

/-- The cells in which something else is left. -/
def changed (s after : Surface) : Finset Nat :=
  {j ∈ Finset.range s.cells.size | after.cells[j]? ≠ s.cells[j]?}

/-- What is left of a surface differs from it only in cells of pixels that are in
the scissor and on the surface, and in no more cells than have been written. -/
structure ChangesWithin (s : Surface) (scissor : Region) (after : Surface)
    (written : Nat) : Prop where
  layout_eq : after.layout = s.layout
  size_eq : after.cells.size = s.cells.size
  getElem?_cells : ∀ j,
    (∀ x y : Nat, scissor.Covers x y → x < s.layout.width →
      y < s.layout.height → y * s.layout.stride + x ≠ j) →
        after.cells[j]? = s.cells[j]?
  card_changed_le : (s.changed after).card ≤ written

variable {s after : Surface} {scissor : Region} {written : Nat}

namespace Receives

/-- A cell that holds something else has been written. -/
theorem one_le_writesAt {cs : Nat → List Candidate}
    (h : s.Receives cs after written) {j : Nat} (hj : j ∈ s.changed after) :
    1 ≤ s.writesAt (cs j) j := by
  obtain ⟨hsize, hchanged⟩ := Finset.mem_filter.1 hj
  by_contra hwrites
  refine hchanged ?_
  have hsize : j < s.cells.size := Finset.mem_range.1 hsize
  have hsome := Array.getElem?_eq_getElem hsize
  have hwrites : Candidate.writes (cs j) s.cells[j] = 0 := by
    unfold writesAt at hwrites
    rw [hsome] at hwrites
    exact Nat.lt_one_iff.1 (Nat.not_le.1 hwrites)
  rw [h.getElem?_cells, hsome, Option.map_some,
    Candidate.settleAll_of_writes_eq_zero hwrites]

theorem card_changed_le {cs : Nat → List Candidate}
    (h : s.Receives cs after written) : (s.changed after).card ≤ written := by
  calc (s.changed after).card
      = ∑ _j ∈ s.changed after, 1 := Finset.card_eq_sum_ones _
    _ ≤ ∑ j ∈ s.changed after, s.writesAt (cs j) j :=
        Finset.sum_le_sum fun _ hj => h.one_le_writesAt hj
    _ ≤ ∑ j ∈ Finset.range s.cells.size, s.writesAt (cs j) j :=
        Finset.sum_le_sum_of_subset (Finset.filter_subset ..)
    _ = written := h.written_eq.symm

/-- **The promise** holds if nothing is there for cells other than those of pixels
in the scissor. -/
theorem changesWithin {cs : Nat → List Candidate}
    (h : s.Receives cs after written)
    (hcs : ∀ j, cs j ≠ [] →
      ∃ p, s.layout.pixel? j = some p ∧ scissor.Covers p.1 p.2) :
    s.ChangesWithin scissor after written := by
  refine ⟨h.layout_eq, h.size_eq, ?_, h.card_changed_le⟩
  intro j hj
  have hnothing : cs j = [] := by
    by_contra hsomething
    obtain ⟨p, hp, hscissor⟩ := hcs j hsomething
    obtain ⟨hx, hy, hindex⟩ := Layout.pixel?_eq_some_iff.1 hp
    exact hj p.1 p.2 hscissor hx hy hindex
  rw [h.getElem?_cells, hnothing]
  exact congrFun Option.map_id _

/-- Where each pixel of the clipped scissor has one candidate at most, no more
cells are written than it has pixels. -/
theorem written_le {c : Nat → Option Candidate}
    (h : s.Receives (fun j => (c j).toList) after written)
    (hc : ∀ j, c j ≠ none →
      ∃ p, s.layout.pixel? j = some p ∧ scissor.Covers p.1 p.2) :
    written ≤ (s.clip scissor).pixels.length := by
  let cells := ((s.clip scissor).pixels.map fun p =>
    s.layout.index p.1 p.2).toFinset
  -- a cell of the clipped scissor is written once at most, any other not at all
  have hwrites (j : Nat) :
      s.writesAt (c j).toList j ≤ if j ∈ cells then 1 else 0 := by
    unfold writesAt
    cases s.cells[j]? with
    | none => exact Nat.zero_le _
    | some stored =>
      have hlength := Candidate.writes_le_length (c j).toList stored
      by_cases hnone : c j = none
      · rw [hnone] at hlength ⊢
        exact Nat.le_trans hlength (Nat.zero_le _)
      · obtain ⟨p, hp, hscissor⟩ := hc j hnone
        obtain ⟨hx, hy, hindex⟩ := Layout.pixel?_eq_some_iff.1 hp
        have hclip : (s.clip scissor).Covers p.1 p.2 :=
          covers_clip.2 ⟨hscissor, by omega, by omega, by omega, by omega⟩
        have hpixel : p ∈ (s.clip scissor).pixels :=
          (Region.mem_pixels (Region.on_clip s scissor)).2 hclip
        have hcell : j ∈ cells :=
          List.mem_toFinset.2 (List.mem_map.2 ⟨p, hpixel, hindex⟩)
        rw [if_pos hcell]
        exact Nat.le_trans hlength Option.length_toList_le
  -- so the writes are no more than the pixels of the clipped scissor
  calc written
      = ∑ j ∈ Finset.range s.cells.size, s.writesAt (c j).toList j :=
        h.written_eq
    _ ≤ ∑ j ∈ Finset.range s.cells.size, if j ∈ cells then 1 else 0 :=
        Finset.sum_le_sum fun j _ => hwrites j
    _ = ((Finset.range s.cells.size).filter (· ∈ cells)).card :=
        (Finset.card_filter ..).symm
    _ ≤ cells.card :=
        Finset.card_le_card fun j hj => (Finset.mem_filter.1 hj).2
    _ ≤ (s.clip scissor).pixels.length := by
        refine (List.toFinset_card_le _).trans ?_
        rw [List.length_map]

end Receives

end Surface

/-! ## Painting -/

/-- A stroke has nothing for cells other than those of pixels in its scissor. -/
theorem Stroke.candidateAt?_ne_none {stroke : Stroke} {layout : Surface.Layout}
    {j : Nat} (h : stroke.candidateAt? layout j ≠ none) :
    ∃ p, layout.pixel? j = some p ∧ stroke.scissor.Covers p.1 p.2 := by
  obtain ⟨c, hc⟩ := Option.ne_none_iff_exists'.1 h
  obtain ⟨p, hp, hcandidate⟩ := Option.bind_eq_some_iff.1 hc
  refine ⟨p, hp, ?_⟩
  by_contra hscissor
  rw [if_neg hscissor] at hcandidate
  cases hcandidate

/-- One stroke changes only what is in its scissor, and writes no pixel twice. -/
theorem Stroke.changesWithin_paint (stroke : Stroke) (s : Surface) :
    s.ChangesWithin stroke.scissor (stroke.paint s).surface
        (stroke.paint s).written
      ∧ (stroke.paint s).written
        ≤ (s.clip stroke.scissor).pixels.length := by
  have h := stroke.receives_paint s
  constructor
  · refine h.changesWithin fun j hj => ?_
    refine candidateAt?_ne_none fun hnone => hj ?_
    rw [hnone]
    rfl
  · exact h.written_le fun j hj => candidateAt?_ne_none hj

/-- A draw changes only what is in its scissor, with all of its primitives. -/
theorem Draw.changesWithin_run (r : Rasterizer) (scissor : Region) (draw : Draw)
    (layout : VertexLayout) (state : RenderState) (data : Array UInt8)
    (scratch : Scratch) (s : Surface) :
    let result := draw.run r scissor layout state data scratch s
    s.ChangesWithin scissor result.surface
      (stats result.outcome).pixelsWritten := by
  refine (receives_run r scissor draw layout state data scratch s).changesWithin
    fun j hj => ?_
  rw [filterMap_strokes] at hj
  -- only a pixel in the scissor has candidates
  cases hp : s.layout.pixel? j with
  | none =>
    rw [hp] at hj
    exact absurd rfl hj
  | some p =>
    refine ⟨p, rfl, ?_⟩
    by_contra hscissor
    rw [hp] at hj
    exact hj (if_neg hscissor)

/-- **Painting changes nothing outside of the scissor.** This is so for every
rectangle, every triangle and every draw, whatever the surface, the scissor and
the rasterizer are like: a cell that is not the cell of a pixel in the scissor and
on the surface stays as it is, and no more cells change than are said to be
written. A rectangle or a triangle writes no more cells than the clipped scissor
has pixels. -/
theorem Rasterizer.changesWithin_scissor (r : Rasterizer) (scissor : Region)
    (s : Surface) :
    (∀ (rectangle : Rectangle) (test : DepthTest),
      let painted := r.paintRectangle scissor rectangle test s
      s.ChangesWithin scissor painted.surface painted.written
        ∧ painted.written ≤ (s.clip scissor).pixels.length)
      ∧ (∀ (triangle : Triangle) (test : DepthTest),
        let painted := r.paintTriangle scissor triangle test s
        s.ChangesWithin scissor painted.surface painted.written
          ∧ painted.written ≤ (s.clip scissor).pixels.length)
      ∧ ∀ (draw : Draw) (layout : VertexLayout) (state : RenderState)
          (data : Array UInt8) (scratch : Scratch),
        let result := draw.run r scissor layout state data scratch s
        s.ChangesWithin scissor result.surface
          (Draw.stats result.outcome).pixelsWritten := by
  refine ⟨fun rectangle test => ?_, fun triangle test => ?_, ?_⟩
  · exact Stroke.changesWithin_paint ⟨r, scissor, test, .rectangle rectangle⟩ s
  · exact Stroke.changesWithin_paint ⟨r, scissor, test, .triangle triangle⟩ s
  · intro draw layout state data scratch
    exact Draw.changesWithin_run r scissor draw layout state data scratch s

end DepthPrepass
