import DepthPrepass.Counters.Basic
import DepthPrepass.Decimal.Fixed

/-!
# The counter report

The counters as a table of text: one line for each, under the heading of its
group, with the numbers aligned on the right. A number that is too long for its
column widens its line. Where pixels were tested, the share of them that passed
follows in per cent.
-/

namespace DepthPrepass.Counters

/-- The columns that a label takes with its colon and the blanks after it. -/
def labelColumns : Nat := 28

/-- The columns that a number takes. -/
def numberColumns : Nat := 12

/-- The decimal places of the pass rate. -/
def ratePlaces : Nat := 2

/-- The share of tested pixels that passed, in per cent. -/
def passRate (c : Counters) : Float :=
  c.depthPassed.toFloat / c.pixelsTested.toFloat * 100

/-- A label in its columns. -/
def reportLabel (label : String) : String :=
  "  " ++ Decimal.alignLeft labelColumns (label ++ ":")

/-- The line of a counter. -/
def reportLine (label : String) (value : UInt64) : String :=
  reportLabel label
    ++ Decimal.alignRight numberColumns (toString value.toNat)

/-- The line of the pass rate, which ends in a sign of its own and is there
only if there is a rate. -/
def rateLines (c : Counters) : List String :=
  if c.pixelsTested > 0 then
    [reportLabel "depth test pass rate"
      ++ Decimal.alignRight (numberColumns - 1)
        (Decimal.fixedOfFloat ratePlaces c.passRate)
      ++ "%"]
  else []

/-- The lines of the report. -/
def reportLines (c : Counters) : List String :=
  ["",
    "=== Depth Raster Counters Report ===",
    "",
    "Draws:",
    reportLine "draw calls" c.drawCalls,
    reportLine "draws skipped" c.drawsSkipped,
    "",
    "Primitives:",
    reportLine "rects filled" c.rectsFilled,
    reportLine "triangles submitted" c.trianglesSubmitted,
    reportLine "triangles culled (area)" c.trianglesCulled,
    reportLine "triangles behind camera" c.trianglesBehind,
    reportLine "triangles off scissor" c.trianglesOffScissor,
    "",
    "Pixels:",
    reportLine "pixels tested" c.pixelsTested,
    reportLine "depth test passed" c.depthPassed,
    reportLine "depth test failed" c.depthFailed]
  ++ c.rateLines
  ++ ["",
    "Buffers:",
    reportLine "depth buffer clears" c.bufferClears,
    ""]

/-- The text of the report. Every line of it ends. -/
def report (c : Counters) : String :=
  String.join (c.reportLines.map (· ++ "\n"))

end DepthPrepass.Counters
