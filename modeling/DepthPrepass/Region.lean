import DepthPrepass.Coordinate

/-!
# Regions

A region is a rectangle of pixels with signed corners, `right` and `bottom`
exclusive. Regions clip each other by intersection, and a region whose corners
are out of order holds no pixel; intersecting keeps that without putting the
corners in order. A region inside a surface is visited as a list of row spans,
one for each row from top to bottom.

* `inter`: what is left of a region in another one.
* `mem_rowSpans`: the spans of a region.
-/

namespace DepthPrepass

/-- A rectangle of pixels, `left ≤ x < right` and `top ≤ y < bottom`. -/
structure Region where
  left : Int32
  top : Int32
  right : Int32
  bottom : Int32
deriving DecidableEq, Repr

/-- The columns from `first` up to `last`, exclusive, of one row. -/
structure RowSpan where
  row : Nat
  first : Nat
  last : Nat
deriving DecidableEq, Repr

/-- How many pixels a span has. -/
def RowSpan.length (span : RowSpan) : Nat :=
  span.last - span.first

namespace Region

/-- The region between two corners, given in either order. -/
def between (x1 y1 x2 y2 : Int32) : Region :=
  { left := if x1 > x2 then x2 else x1
    top := if y1 > y2 then y2 else y1
    right := if x1 > x2 then x1 else x2
    bottom := if y1 > y2 then y1 else y2 }

/-- The pixels that are in both regions. -/
def inter (r s : Region) : Region :=
  { left := max r.left s.left
    top := max r.top s.top
    right := min r.right s.right
    bottom := min r.bottom s.bottom }

/-- Whether a region has no pixel. -/
def isEmpty (r : Region) : Bool :=
  r.left ≥ r.right || r.top ≥ r.bottom

/-- How many columns a region has. -/
def columns (r : Region) : Nat :=
  r.right.toNatClampNeg - r.left.toNatClampNeg

/-- How many rows a region has. -/
def rows (r : Region) : Nat :=
  r.bottom.toNatClampNeg - r.top.toNatClampNeg

/-- The spans of a region, from the top row to the bottom one. -/
def rowSpans (r : Region) : List RowSpan :=
  (List.range' r.top.toNatClampNeg r.rows).map fun y =>
    { row := y
      first := r.left.toNatClampNeg
      last := r.right.toNatClampNeg }

theorem mem_rowSpans {r : Region} {span : RowSpan} :
    span ∈ r.rowSpans
      ↔ r.top.toNatClampNeg ≤ span.row ∧ span.row < r.bottom.toNatClampNeg
        ∧ span.first = r.left.toNatClampNeg
        ∧ span.last = r.right.toNatClampNeg := by
  rcases span with ⟨row, first, last⟩
  simp only [rowSpans, rows, List.mem_map, List.mem_range'_1,
    RowSpan.mk.injEq]
  grind

end Region

end DepthPrepass
