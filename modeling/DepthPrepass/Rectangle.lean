import DepthPrepass.Painted
import DepthPrepass.Policy
import DepthPrepass.Surface.RowFill

/-!
# Rectangles

A rectangle has one depth. Under the test that always passes its rows are
filled, under the one that never passes nothing happens, and under the others
the policy decides between doing nothing and testing each pixel. A rectangle
that is clipped away altogether counts as no work.
-/

namespace DepthPrepass

/-- A rectangle between two corners, given in either order, at one depth. -/
structure Rectangle where
  x₁ : Int32
  y₁ : Int32
  x₂ : Int32
  y₂ : Int32
  depth : UInt16
deriving DecidableEq, Repr

namespace Rectangle

/-- The pixels of a rectangle. -/
def region (r : Rectangle) : Region :=
  .between r.x₁ r.y₁ r.x₂ r.y₂

/-- The pixels of a rectangle that are on the surface and in the scissor. -/
def area (r : Rectangle) (scissor : Region) (s : Surface) : Region :=
  r.region.inter (s.clip scissor)

/-- Fill the rows of a region. -/
def fillRows (mode : LaneMode) (depth : UInt16) (spans : List RowSpan)
    (s : Surface) : Surface :=
  spans.foldl (fun s span => s.fillSpan mode depth span) s

/-- Test the pixels of a row span. -/
def testSpan (test : DepthTest) (depth : UInt16) (t : Tested)
    (span : RowSpan) : Tested :=
  (List.range' (t.surface.index span.first span.row) span.length).foldl
    (Tested.visit test depth.toFloat32 depth) t

/-- Test the pixels of a region, row by row. -/
def testRows (test : DepthTest) (depth : UInt16) (spans : List RowSpan)
    (s : Surface) : Tested :=
  spans.foldl (testSpan test depth) (.start s)

/-- Paint a rectangle within a scissor. -/
def paint (mode : LaneMode) (policy : RectangleTest) (test : DepthTest)
    (scissor : Region) (r : Rectangle) (s : Surface) : Painted :=
  let area := r.area scissor s
  if area.isEmpty then .nothing s 0
  else
    let filled := Counters.count .rectsFilled 1
    match test, policy with
    | .never, _ => .nothing s 0
    | .always, _ =>
      ⟨fillRows mode r.depth area.rowSpans s, area.columns * area.rows,
        filled⟩
    | _, .skip => .nothing s 0
    | test, .perPixel =>
      (testRows test r.depth area.rowSpans s).painted filled

end Rectangle

end DepthPrepass
