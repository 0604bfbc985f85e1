import DepthPrepass.LaneMode
import DepthPrepass.Quad.Basic
import DepthPrepass.Region
import DepthPrepass.Triangle.Edge
import DepthPrepass.Triangle.Fragment

/-!
# Walks

The fragments of a triangle are found by walking a region row by row. The
values of the three edge functions are not computed anew at each pixel: they
are known at the first one and change by the same amounts from column to
column and from row to row. A row is walked column by column, or four columns
at a time, with the columns that are left over walked one by one.

* `scalarRow`, `quadRow`: the two ways to walk a row.
* `fragments`: all fragments, in the order of rows and columns.
-/

namespace DepthPrepass

/-- What is needed to find the fragments of a triangle: where to look, the
edge functions, and for each corner its depth over twice the area. -/
structure Walk where
  region : Region
  edges : Triple Edge
  slopes : Triple Float32

namespace Walk

/-- The change of the edge values from one column to the next. -/
def across (walk : Walk) : Triple Int32 :=
  walk.edges.map (·.a)

/-- The change of the edge values from one row to the next. -/
def down (walk : Walk) : Triple Int32 :=
  walk.edges.map (·.b)

/-- The edge values at the first pixel of the region. -/
def origin (walk : Walk) : Triple Int32 :=
  walk.edges.map (·.eval walk.region.left walk.region.top)

/-! ## One pixel at a time -/

/-- Whether none of the edge values is negative: then their combined sign bit
is clear. -/
def inside (w : Triple Int32) : Bool :=
  0 ≤ w.first ||| w.second ||| w.third

/-- The depth where the edges have the values `w`: the corners' depths, each
weighted by its edge. The order of the operations matters to the last bit. -/
def depthAt (walk : Walk) (w : Triple Int32) : Float32 :=
  Binary32.ofInt32 w.first * walk.slopes.first
    + Binary32.ofInt32 w.second * walk.slopes.second
    + Binary32.ofInt32 w.third * walk.slopes.third

/-- The fragments of `count` columns of row `y` from column `x` on, where the
edges have the values `w`. -/
def scalarRow (walk : Walk) (y : Nat) :
    (x count : Nat) → (w : Triple Int32) → List Fragment
  | _, 0, _ => []
  | x, count + 1, w =>
    let rest := walk.scalarRow y (x + 1) count (w + walk.across)
    if inside w then ⟨x, y, walk.depthAt w⟩ :: rest else rest

/-! ## Four pixels at a time -/

/-- The edge values of four columns, from those of the first one. -/
def spread (walk : Walk) (w : Triple Int32) : Triple (Quad Int32) :=
  let columns : Quad Int32 := ⟨0, 1, 2, 3⟩
  w.zipWith (fun value step => Quad.splat value + Quad.splat step * columns)
    walk.across

/-- The change of the edge values from four columns to the next four. -/
def quadAcross (walk : Walk) : Triple (Quad Int32) :=
  walk.across.map fun step => Quad.splat (step * 4)

/-- The lanes in which none of the edge values is negative, as a bit set. -/
def insideMask (e : Triple (Quad Int32)) : UInt32 :=
  (e.first ||| e.second ||| e.third).signMask ^^^ 0xF

/-- The depths in four lanes. -/
def quadDepth (walk : Walk) (e : Triple (Quad Int32)) : Quad Float32 :=
  e.first.toFloat32 * Quad.splat walk.slopes.first
    + e.second.toFloat32 * Quad.splat walk.slopes.second
    + e.third.toFloat32 * Quad.splat walk.slopes.third

/-- The fragments of four columns of row `y` from column `x` on. -/
def quadFragments (walk : Walk) (y x : Nat) (e : Triple (Quad Int32)) :
    List Fragment :=
  let mask := insideMask e
  if mask = 0 then []
  else
    let depth := walk.quadDepth e
    Quad.lanes.filterMap fun lane =>
      if mask &&& ((1 : UInt32) <<< lane.val.toUInt32) ≠ 0 then
        some ⟨x + lane.val, y, depth.lane lane⟩
      else none

/-- The fragments of `count` columns of row `y` from column `x` on, four
columns at a time as long as there are four. The edge values of the columns
that are left over start from the first lane. -/
def quadRow (walk : Walk) (y : Nat) :
    (x count : Nat) → (e : Triple (Quad Int32)) → List Fragment
  | x, count + 4, e =>
    walk.quadFragments y x e
      ++ walk.quadRow y (x + 4) count (e + walk.quadAcross)
  | x, count, e => walk.scalarRow y x count (e.map (·.lane₀))

/-! ## Rows -/

/-- The fragments of a row span, where the edges have the values `w` at its
first pixel. -/
def row (walk : Walk) (mode : LaneMode) (w : Triple Int32)
    (span : RowSpan) : List Fragment :=
  if mode.isWide then
    walk.quadRow span.row span.first span.length (walk.spread w)
  else walk.scalarRow span.row span.first span.length w

/-- The fragments of successive row spans, where the edges have the values
`w` at the first pixel of the first one. -/
def rows (walk : Walk) (mode : LaneMode) :
    (spans : List RowSpan) → (w : Triple Int32) → List Fragment
  | [], _ => []
  | span :: spans, w =>
    walk.row mode w span ++ walk.rows mode spans (w + walk.down)

/-- The fragments of the region. -/
def fragments (walk : Walk) (mode : LaneMode) : List Fragment :=
  walk.rows mode walk.region.rowSpans walk.origin

end Walk

end DepthPrepass
