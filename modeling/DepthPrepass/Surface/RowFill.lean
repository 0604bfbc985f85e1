import DepthPrepass.LaneMode
import DepthPrepass.Surface.Basic

/-!
# Filling rows

A run of cells is set to one depth cell by cell, or by stores of eight equal
lanes with the cells that are left over set one by one. Zero needs no lanes:
there the wide fill is the plain one.

* `plain`, `blocks`, `fill`: the two ways and the choice between them.
* `blocks_eq_plain`, `fill_eq_plain`: the choice makes no difference.
* `Surface.fillSpan`, `Surface.fillAll`: fills of one span and of everything.
-/

namespace DepthPrepass

namespace RowFill

/-- Set the `count` cells from `i` on, one by one. -/
def plain (value : UInt16) : (i count : Nat) → Array UInt16 → Array UInt16
  | _, 0, cells => cells
  | i, count + 1, cells =>
    plain value (i + 1) count (cells.setIfInBounds i value)

/-- Store eight equal lanes to the cells from `i` on. -/
def storeLanes (value : UInt16) (i : Nat) (cells : Array UInt16) :
    Array UInt16 :=
  let cells := cells.setIfInBounds i value
  let cells := cells.setIfInBounds (i + 1) value
  let cells := cells.setIfInBounds (i + 2) value
  let cells := cells.setIfInBounds (i + 3) value
  let cells := cells.setIfInBounds (i + 4) value
  let cells := cells.setIfInBounds (i + 5) value
  let cells := cells.setIfInBounds (i + 6) value
  cells.setIfInBounds (i + 7) value

/-- Set the `count` cells from `i` on, eight at a time as long as there are
eight. -/
def blocks (value : UInt16) : (i count : Nat) → Array UInt16 → Array UInt16
  | i, count + 8, cells =>
    blocks value (i + 8) count (storeLanes value i cells)
  | i, count, cells => plain value i count cells

/-- Set the `count` cells from `i` on. -/
def fill (mode : LaneMode) (value : UInt16) (i count : Nat)
    (cells : Array UInt16) : Array UInt16 :=
  match mode with
  | .scalar => plain value i count cells
  | .wide =>
    if value = 0 then plain 0 i count cells else blocks value i count cells

@[simp] theorem size_plain (value : UInt16) (i count : Nat)
    (cells : Array UInt16) : (plain value i count cells).size = cells.size := by
  induction count generalizing i cells with
  | zero => rfl
  | succ count ih => rw [plain, ih, Array.size_setIfInBounds]

/-- A store of eight lanes is eight stores in a row. -/
theorem blocks_eq_plain (value : UInt16) (i count : Nat)
    (cells : Array UInt16) :
    blocks value i count cells = plain value i count cells := by
  fun_induction blocks value i count cells with
  | case1 i count cells ih => rw [ih]; rfl
  | case2 i count cells _ => rfl

theorem fill_eq_plain (mode : LaneMode) (value : UInt16) (i count : Nat)
    (cells : Array UInt16) :
    fill mode value i count cells = plain value i count cells := by
  unfold fill
  split
  · rfl
  · split
    · next h => rw [h]
    · exact blocks_eq_plain ..

@[simp] theorem size_fill (mode : LaneMode) (value : UInt16) (i count : Nat)
    (cells : Array UInt16) :
    (fill mode value i count cells).size = cells.size := by
  rw [fill_eq_plain, size_plain]

end RowFill

namespace Surface

/-- Set `count` cells of the surface from cell `i` on. -/
def fillCells (s : Surface) (mode : LaneMode) (value : UInt16)
    (i count : Nat) : Surface :=
  { layout := s.layout
    cells := RowFill.fill mode value i count s.cells
    fits := by rw [RowFill.size_fill]; exact s.fits }

/-- Set every pixel of a row span to one depth. -/
def fillSpan (s : Surface) (mode : LaneMode) (value : UInt16)
    (span : RowSpan) : Surface :=
  s.fillCells mode value (s.index span.first span.row) span.length

/-- Set every cell to one depth, padding included. -/
def fillAll (s : Surface) (mode : LaneMode) (value : UInt16) : Surface :=
  s.fillCells mode value 0 s.cells.size

end Surface

end DepthPrepass
