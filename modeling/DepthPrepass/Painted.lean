import DepthPrepass.Counters.Basic
import DepthPrepass.DepthTest
import DepthPrepass.Surface.Basic

/-!
# Painting under a depth test

Painting a primitive leaves a surface, the number of cells written and the
work that was counted. Where depths are tested, cells are visited one after
another: a candidate that passes against the stored depth replaces it, and
each visit is counted once as tested and once as passed or failed.

* `Tested.visit`: one test; what it does to each cell is said by
  `Tested.getElem?_cells_visit`.
-/

namespace DepthPrepass

/-- What painting leaves. -/
structure Painted where
  surface : Surface
  /-- How many cells were written, whether their content changed or not. -/
  written : Nat
  work : Counters

/-- What painting nothing leaves, apart from work that was counted anyway. -/
def Painted.nothing (s : Surface) (work : Counters) : Painted :=
  ⟨s, 0, work⟩

/-- A surface in the course of depth tests, and how they have gone. -/
structure Tested where
  surface : Surface
  tested : Nat
  passed : Nat
  failed : Nat

namespace Tested

/-- The surface before any test. -/
def start (s : Surface) : Tested :=
  ⟨s, 0, 0, 0⟩

/-- Test a candidate depth against cell `i`, and write `value` there if it
passes. -/
def visit (test : DepthTest) (candidate : Float32) (value : UInt16)
    (t : Tested) (i : Nat) : Tested :=
  match t with
  | ⟨surface, tested, passed, failed⟩ =>
    if h : i < surface.cells.size then
      if test.passes candidate surface.cells[i].toFloat32 then
        ⟨surface.set i value, tested + 1, passed + 1, failed⟩
      else ⟨surface, tested + 1, passed, failed + 1⟩
    else ⟨surface, tested, passed, failed⟩

/-- The tests as work. -/
def work (t : Tested) : Counters :=
  { pixelsTested := t.tested.toUInt64
    depthPassed := t.passed.toUInt64
    depthFailed := t.failed.toUInt64 }

/-- What the tests leave, with work that was counted before them. -/
def painted (t : Tested) (before : Counters) : Painted :=
  ⟨t.surface, t.passed, before + t.work⟩

@[simp] theorem surface_painted (t : Tested) (before : Counters) :
    (t.painted before).surface = t.surface := rfl

@[simp] theorem written_painted (t : Tested) (before : Counters) :
    (t.painted before).written = t.passed := rfl

@[simp] theorem work_painted (t : Tested) (before : Counters) :
    (t.painted before).work = before + t.work := rfl

@[simp] theorem layout_visit (test : DepthTest) (candidate : Float32)
    (value : UInt16) (t : Tested) (i : Nat) :
    (t.visit test candidate value i).surface.layout = t.surface.layout := by
  unfold visit
  split
  split
  · split <;> rfl
  · rfl

theorem getElem?_cells_visit (test : DepthTest) (candidate : Float32)
    (value : UInt16) (t : Tested) (i j : Nat) :
    (t.visit test candidate value i).surface.cells[j]?
      = (t.surface.cells[j]?).map fun stored =>
          if i = j ∧ test.passes candidate stored.toFloat32 then value
          else stored := by
  rcases t with ⟨s, tested, passed, failed⟩
  simp only [visit]
  -- a place outside the storage is not visited, and no cell is there to change
  by_cases hi : i < s.cells.size
  · rw [dif_pos hi]
    split
    · next hp =>
      rw [Surface.getElem?_cells_set]
      by_cases hj : i = j
      · subst hj
        simp [hi, hp]
      · simp [hj]
    · next hp =>
      by_cases hj : i = j
      · subst hj
        simp [hi, hp]
      · simp [hj]
  · rw [dif_neg hi]
    by_cases hj : i = j
    · subst hj
      simp [hi]
    · simp [hj]

end Tested

end DepthPrepass
