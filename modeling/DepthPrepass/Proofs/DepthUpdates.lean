import DepthPrepass.Proofs.Redrawing

/-!
# What a triangle leaves in a pixel

The comparison sees the whole depth of a fragment, and what is stored of it has no
digits behind the point. Still, what a pixel is left with can be said without these
digits: it is its own depth, or the one that would be stored, or the smaller or the
larger one of the two, and which of these it is depends on the test alone. So the
digits can make a difference to how many cells are written, because a cell may be
written with what it holds already, but not to what the cells hold.

* `Tested.getElem?_cells_fragments_of_nodup`: fragments with a cell of their own
  each.
* `Tested.surface_fragments_whole`: the digits behind the point.
* `Triangle.updated`: what a tested pixel is left with.
* `Triangle.paint_eq_updated`: painting a triangle, cell by cell.
-/

namespace DepthPrepass

/-- A fragment without the digits behind the point of its depth. Depths beyond the
range of cells end where the range ends. -/
def Fragment.whole (f : Fragment) : Fragment :=
  { f with depth := f.depth.toUInt16.toFloat32 }

/-! ## Fragments -/

namespace Tested

variable {test : DepthTest} {fs : List Fragment} {s : Surface}

/-- What one fragment leaves is decided by what would be stored of it. -/
theorem getElem?_cells_fragment {f : Fragment} (h : 0 ≤ f.depth) (t : Tested)
    (j : Nat) :
    (t.fragment test f).surface.cells[j]?
      = (t.surface.cells[j]?).map fun stored =>
          if t.surface.index f.x f.y = j then
            test.resolve stored f.depth.toUInt16
          else stored := by
  have hsettle (stored : UInt16) :
      (if test.passes f.depth stored.toFloat32 then f.depth.toUInt16
        else stored) = test.resolve stored f.depth.toUInt16 :=
    Candidate.settle_eq_resolve (c := ⟨test, f.depth, f.depth.toUInt16⟩)
      ⟨h, rfl⟩ stored
  rw [fragment, getElem?_cells_visit]
  refine Option.map_congr fun stored _ => ?_
  rw [← hsettle, ite_and]

/-- Fragments with a cell of their own each: a cell that has a fragment holds what
that one leaves, and the others hold what they have held. -/
theorem getElem?_cells_fragments_of_nodup (h : ∀ f ∈ fs, 0 ≤ f.depth)
    (hnodup : (fs.map fun f => s.index f.x f.y).Nodup) (j : Nat) :
    (fragments test fs s).surface.cells[j]?
      = (s.cells[j]?).map fun stored =>
          (fs.find? fun f => s.index f.x f.y = j).elim stored fun f =>
            test.resolve stored f.depth.toUInt16 := by
  -- the layout of the surface is the same before and after each test
  have hrun (t : Tested) (ht : t.surface.layout = s.layout) :
      (fs.foldl (fragment test) t).surface.cells[j]?
        = (t.surface.cells[j]?).map fun stored =>
            (fs.find? fun f => s.index f.x f.y = j).elim stored fun f =>
              test.resolve stored f.depth.toUInt16 := by
    induction fs generalizing t with
    | nil => exact (congrFun Option.map_id _).symm
    | cons f fs ih =>
      obtain ⟨hf, hfs⟩ := List.forall_mem_cons.1 h
      obtain ⟨hcell, hcells⟩ := List.nodup_cons.1 hnodup
      have hindex : t.surface.index f.x f.y = s.index f.x f.y := by
        rw [Surface.index, ht, Surface.index]
      have hlayout : (t.fragment test f).surface.layout = s.layout :=
        (layout_visit ..).trans ht
      rw [List.foldl_cons, ih hfs hcells _ hlayout, getElem?_cells_fragment hf,
        hindex, Option.map_map]
      refine Option.map_congr fun stored _ => ?_
      rw [List.find?_cons]
      by_cases hj : s.index f.x f.y = j
      · -- no later fragment has the same cell
        have hnone : (fs.find? fun f => s.index f.x f.y = j) = none := by
          refine List.find?_eq_none.2 fun g hg hgj => hcell ?_
          have hgj := of_decide_eq_true hgj
          exact List.mem_map.2 ⟨g, hg, hgj.trans hj.symm⟩
        simp [hj, hnone]
      · simp [hj]
  exact hrun (start s) rfl

/-- **The digits behind the point** of depths that are not negative have no part
in what fragments leave. -/
theorem surface_fragments_whole (h : ∀ f ∈ fs, 0 ≤ f.depth) (s : Surface) :
    (fragments test (fs.map Fragment.whole) s).surface
      = (fragments test fs s).surface := by
  -- the counts may come to differ, so only the surfaces are kept equal
  have hrun (t u : Tested) (htu : t.surface = u.surface) :
      ((fs.map Fragment.whole).foldl (fragment test) t).surface
        = (fs.foldl (fragment test) u).surface := by
    induction fs generalizing t u with
    | nil => exact htu
    | cons f fs ih =>
      obtain ⟨hf, hfs⟩ := List.forall_mem_cons.1 h
      have hwhole : 0 ≤ f.whole.depth := Binary32.zero_le_toFloat32 _
      have hvalue : f.whole.depth.toUInt16 = f.depth.toUInt16 :=
        Binary32.toUInt16_toFloat32 _
      refine ih hfs _ _ (Surface.ext_cells ?_ (Array.ext_getElem? fun j => ?_))
      · rw [fragment, fragment, layout_visit, layout_visit, htu]
      · rw [getElem?_cells_fragment hwhole, getElem?_cells_fragment hf, hvalue,
          htu]
        rfl
  exact hrun (start s) (start s) rfl

end Tested

/-! ## Triangles -/

namespace Triangle

/-- What a tested pixel is left with that has held `stored`, if `value` would be
stored of the depth there. -/
def updated (policy : TriangleNever) (test : DepthTest)
    (stored value : UInt16) : UInt16 :=
  match test, policy with
  | .never, .reject | .equal, _ => stored
  | .never, .pass | .always, _ | .notEqual, _ => value
  | .less, _ | .lessEqual, _ => min stored value
  | .greater, _ | .greaterEqual, _ => max stored value

theorem resolve_effectiveTest? (policy : TriangleNever) (test : DepthTest)
    (stored value : UInt16) :
    ((effectiveTest? policy test).getD test).resolve stored value
      = updated policy test stored value := by
  cases policy <;> cases test <;> rfl

/-- Depths of fragments are not negative, also where edge functions have
wrapped. -/
theorem zero_le_depth_of_mem_fragments {mode : LaneMode} {policy : Policy}
    {test : DepthTest} {scissor : Region} {t : Triangle} {s : Surface}
    {f : Fragment} (hf : f ∈ t.fragments mode policy test (s.clip scissor)) :
    0 ≤ f.depth := by
  obtain ⟨test', walk, hplan, hinside, hdepth⟩ :=
    exists_walk_of_mem_fragments hf
  obtain ⟨-, -, harea, rfl⟩ := plan_eq_ok_iff.1 hplan
  rw [hdepth]
  exact Walk.zero_le_depthAt harea _ hinside

/-- The depth tests of a triangle, if the depths had no digits behind the
point. -/
def wholeTests (mode : LaneMode) (policy : Policy) (test : DepthTest)
    (scissor : Region) (t : Triangle) (s : Surface) : Tested :=
  Tested.fragments ((effectiveTest? policy.triangleNever test).getD test)
    ((t.fragments mode policy test (s.clip scissor)).map Fragment.whole) s

/-- Depths of a fourth, a half and three fourths are not equal to zero, which is
what is stored of them. -/
theorem passed_wholeTests_ne :
    let t : Triangle :=
      ⟨⟨0, 0, 0, false⟩, ⟨0, 4, 1, false⟩, ⟨4, 0, 0, false⟩⟩
    let s : Surface := .ofRows (Array.replicate 16 0) 4
    (t.wholeTests .wide {} .notEqual s.bounds s).passed
      ≠ (t.paint .wide {} .notEqual s.bounds s).written := by
  decide +kernel

/-- **What a triangle leaves in a cell** depends on what the cell has held and on
what would be stored of the depth of its fragment, if it has one: wherever the
corners are, the cell holds the one or the other afterwards, or the smaller or the
larger one, as the test has it. The digits behind the point of the depths can
change how many cells are written, but they change no cell. -/
theorem paint_eq_updated :
    (∀ (mode : LaneMode) (policy : Policy) (test : DepthTest)
        (scissor : Region) (t : Triangle) (s : Surface),
      let painted := t.paint mode policy test scissor s
      let fs := t.fragments mode policy test (s.clip scissor)
      painted.surface.layout = s.layout
        ∧ (∀ j, painted.surface.cells[j]?
          = (s.cells[j]?).map fun stored =>
              (fs.find? fun f => s.index f.x f.y = j).elim stored fun f =>
                updated policy.triangleNever test stored f.depth.toUInt16)
        ∧ (t.wholeTests mode policy test scissor s).surface = painted.surface)
      ∧ ∃ (mode : LaneMode) (policy : Policy) (test : DepthTest)
          (scissor : Region) (t : Triangle) (s : Surface),
        (t.wholeTests mode policy test scissor s).passed
          ≠ (t.paint mode policy test scissor s).written := by
  refine ⟨?_, _, _, _, _, _, _, passed_wholeTests_ne⟩
  intro mode policy test scissor t s painted fs
  -- inside, depths are not negative, so whole parts compare as they do
  have hdepth : ∀ f ∈ fs, 0 ≤ f.depth :=
    fun f hf => zero_le_depth_of_mem_fragments hf
  have hsurface : painted.surface
      = (Tested.fragments
          ((effectiveTest? policy.triangleNever test).getD test) fs s).surface :=
    (paint_eq_tests mode).1
  refine ⟨(t.receives_paint mode policy test scissor s).layout_eq, fun j => ?_,
    ?_⟩
  · -- no two fragments share a cell, so each cell sees one test at most
    rw [hsurface, Tested.getElem?_cells_fragments_of_nodup hdepth
      (nodup_index_fragments mode)]
    simp only [resolve_effectiveTest?]
  · rw [hsurface]
    exact Tested.surface_fragments_whole hdepth s

end Triangle

end DepthPrepass
