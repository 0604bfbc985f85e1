import DepthPrepass.Proofs.Pixels
import DepthPrepass.Rectangle
import DepthPrepass.Triangle.Fragment

/-!
# Depth tests as a list of visits

Rectangles and triangles test depths alike: one cell after another is visited
with a candidate. What is said about a list of visits holds of both.

* `Tested.visits`: visits one after another.
* `Tested.tested_visits`, `Tested.Balanced.visits`: each visit to a cell of the
  surface is counted once as tested, and once as passed or failed.
* `Tested.fragments_eq_visits`, `Rectangle.testRows_eq_visits`: the visits of
  triangles and of rectangles.
-/

namespace DepthPrepass

/-- A test of a candidate depth against a cell, with the value to write there if
it passes. -/
structure Visit where
  cell : Nat
  candidate : Float32
  value : UInt16

/-- The visit of a fragment to its pixel. -/
def Fragment.visit (layout : Surface.Layout) (f : Fragment) : Visit :=
  ⟨layout.index f.x f.y, f.depth, f.depth.toUInt16⟩

namespace Tested

/-- Visit cells one after another. -/
def visits (test : DepthTest) (t : Tested) (vs : List Visit) : Tested :=
  vs.foldl (fun t v => t.visit test v.candidate v.value v.cell) t

/-- Each test has passed or failed, and not both. -/
def Balanced (t : Tested) : Prop :=
  t.passed + t.failed = t.tested

variable {test : DepthTest}

/-! ## One visit -/

@[simp] theorem size_cells_visit (candidate : Float32) (value : UInt16)
    (t : Tested) (i : Nat) :
    (t.visit test candidate value i).surface.cells.size
      = t.surface.cells.size := by
  obtain ⟨s, tested, passed, failed⟩ := t
  unfold visit
  dsimp only
  split
  · split
    · exact Surface.size_cells_set ..
    · rfl
  · rfl

theorem tested_visit {candidate : Float32} {value : UInt16} {t : Tested}
    {i : Nat} (h : i < t.surface.cells.size) :
    (t.visit test candidate value i).tested = t.tested + 1 := by
  obtain ⟨s, tested, passed, failed⟩ := t
  unfold visit
  dsimp only at h ⊢
  rw [dif_pos h]
  split <;> rfl

theorem Balanced.visit {t : Tested} (h : t.Balanced) (candidate : Float32)
    (value : UInt16) (i : Nat) :
    (t.visit test candidate value i).Balanced := by
  obtain ⟨s, tested, passed, failed⟩ := t
  have h : passed + failed = tested := h
  unfold Tested.visit
  dsimp only
  split
  · split
    · show passed + 1 + failed = tested + 1
      omega
    · show passed + (failed + 1) = tested + 1
      omega
  · exact h

/-! ## Visits one after another -/

@[simp] theorem layout_visits (t : Tested) (vs : List Visit) :
    (t.visits test vs).surface.layout = t.surface.layout := by
  induction vs generalizing t with
  | nil => rfl
  | cons v vs ih => exact (ih _).trans (layout_visit ..)

/-- Visits to cells of the surface are counted, each once. -/
theorem tested_visits {t : Tested} {vs : List Visit}
    (h : ∀ v ∈ vs, v.cell < t.surface.cells.size) :
    (t.visits test vs).tested = t.tested + vs.length := by
  -- a visit neither adds nor removes cells, so the later ones stay in range
  induction vs generalizing t with
  | nil => rfl
  | cons v vs ih =>
    have hv := h v List.mem_cons_self
    have hvs : ∀ w ∈ vs, w.cell
        < (t.visit test v.candidate v.value v.cell).surface.cells.size := by
      intro w hw
      rw [size_cells_visit]
      exact h w (List.mem_cons_of_mem v hw)
    show ((t.visit test v.candidate v.value v.cell).visits test vs).tested = _
    rw [ih hvs, tested_visit hv, List.length_cons]
    omega

theorem Balanced.visits {t : Tested} (h : t.Balanced) (vs : List Visit) :
    (t.visits test vs).Balanced := by
  induction vs generalizing t with
  | nil => exact h
  | cons v vs ih => exact ih (h.visit v.candidate v.value v.cell)

/-- Before any test, none has passed or failed. -/
theorem balanced_start (s : Surface) : (start s).Balanced := rfl

/-! ## Visits of fragments -/

theorem fragments_eq_visits (fs : List Fragment) (s : Surface) :
    fragments test fs s
      = (start s).visits test (fs.map (Fragment.visit s.layout)) := by
  -- tests do not change the layout, so the cells are those before them
  have hrun (t : Tested) (ht : t.surface.layout = s.layout) :
      fs.foldl (fragment test) t
        = t.visits test (fs.map (Fragment.visit s.layout)) := by
    induction fs generalizing t with
    | nil => rfl
    | cons f fs ih =>
      have hfirst : t.fragment test f
          = t.visit test f.depth f.depth.toUInt16 (s.layout.index f.x f.y) := by
        rw [fragment, Surface.index, ht]
      rw [List.foldl_cons, hfirst, ih _ ((layout_visit ..).trans ht)]
      rfl
  exact hrun (start s) rfl

end Tested

/-! ## Visits of rectangles -/

namespace Rectangle

/-- The visit of a rectangle of one depth to a pixel. -/
def visit (layout : Surface.Layout) (depth : UInt16) (p : Nat × Nat) : Visit :=
  ⟨layout.index p.1 p.2, depth.toFloat32, depth⟩

/-- A span's cells are those of its pixels. -/
theorem testSpan_eq_visits (test : DepthTest) (depth : UInt16) (t : Tested)
    (span : RowSpan) :
    testSpan test depth t span
      = t.visits test (span.pixels.map (visit t.surface.layout depth)) := by
  have hcells : List.range' (t.surface.index span.first span.row) span.length
      = span.pixels.map fun p => t.surface.layout.index p.1 p.2 := by
    rw [RowSpan.pixels, List.map_map]
    exact (List.map_add_range' ..).symm
  rw [testSpan, hcells, Tested.visits, List.foldl_map, List.foldl_map]
  rfl

theorem testRows_eq_visits (test : DepthTest) (depth : UInt16)
    (spans : List RowSpan) (s : Surface) :
    testRows test depth spans s
      = (Tested.start s).visits test
          ((spans.flatMap RowSpan.pixels).map (visit s.layout depth)) := by
  have hrun (t : Tested) (ht : t.surface.layout = s.layout) :
      spans.foldl (testSpan test depth) t
        = t.visits test
            ((spans.flatMap RowSpan.pixels).map (visit s.layout depth)) := by
    -- row by row; the layout stays the one of the surface
    induction spans generalizing t with
    | nil => rfl
    | cons span spans ih =>
      have hspan := testSpan_eq_visits test depth t span
      rw [ht] at hspan
      rw [List.foldl_cons, hspan,
        ih _ ((Tested.layout_visits ..).trans ht), List.flatMap_cons,
        List.map_append]
      exact (List.foldl_append ..).symm
  exact hrun (Tested.start s) rfl

end Rectangle

end DepthPrepass
