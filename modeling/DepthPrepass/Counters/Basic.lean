/-!
# Counters

How much work was done, in eleven 64-bit numbers that wrap. The work of an
operation is itself such a set of numbers, zero where the operation does not
count, and the work of several operations is the sum of theirs; so a sum can be
taken in any order and restarted at any time.
-/

namespace DepthPrepass

/-- The things that are counted. -/
inductive Counter where
  /-- Draws, whatever became of them. -/
  | drawCalls
  /-- Draws that changed nothing because of the registers, the kind of
  primitive, the vertices or the camera. -/
  | drawsSkipped
  /-- Rectangles that were filled or tested, in part at least. -/
  | rectsFilled
  /-- Triangles handed in, whatever became of them. -/
  | trianglesSubmitted
  /-- Triangles without an area, or turned away. -/
  | trianglesCulled
  /-- Triangles of a draw with a corner behind the camera. -/
  | trianglesBehind
  /-- Triangles whose box does not meet the clip region. -/
  | trianglesOffScissor
  | pixelsTested
  | depthPassed
  | depthFailed
  | bufferClears
deriving DecidableEq, Repr

/-- A value of each counter. -/
@[ext]
structure Counters where
  drawCalls : UInt64 := 0
  drawsSkipped : UInt64 := 0
  rectsFilled : UInt64 := 0
  trianglesSubmitted : UInt64 := 0
  trianglesCulled : UInt64 := 0
  trianglesBehind : UInt64 := 0
  trianglesOffScissor : UInt64 := 0
  pixelsTested : UInt64 := 0
  depthPassed : UInt64 := 0
  depthFailed : UInt64 := 0
  bufferClears : UInt64 := 0
deriving DecidableEq, Repr

namespace Counters

/-- No work. -/
instance : Zero Counters := ⟨{}⟩

/-- The work of one operation after another. -/
instance : Add Counters where
  add a b :=
    { drawCalls := a.drawCalls + b.drawCalls
      drawsSkipped := a.drawsSkipped + b.drawsSkipped
      rectsFilled := a.rectsFilled + b.rectsFilled
      trianglesSubmitted := a.trianglesSubmitted + b.trianglesSubmitted
      trianglesCulled := a.trianglesCulled + b.trianglesCulled
      trianglesBehind := a.trianglesBehind + b.trianglesBehind
      trianglesOffScissor := a.trianglesOffScissor + b.trianglesOffScissor
      pixelsTested := a.pixelsTested + b.pixelsTested
      depthPassed := a.depthPassed + b.depthPassed
      depthFailed := a.depthFailed + b.depthFailed
      bufferClears := a.bufferClears + b.bufferClears }

/-- The value of one counter. -/
def get (c : Counters) : Counter → UInt64
  | .drawCalls => c.drawCalls
  | .drawsSkipped => c.drawsSkipped
  | .rectsFilled => c.rectsFilled
  | .trianglesSubmitted => c.trianglesSubmitted
  | .trianglesCulled => c.trianglesCulled
  | .trianglesBehind => c.trianglesBehind
  | .trianglesOffScissor => c.trianglesOffScissor
  | .pixelsTested => c.pixelsTested
  | .depthPassed => c.depthPassed
  | .depthFailed => c.depthFailed
  | .bufferClears => c.bufferClears

/-- The work of counting one thing `n` times. -/
def count : Counter → (n : UInt64) → Counters
  | .drawCalls, n => { drawCalls := n }
  | .drawsSkipped, n => { drawsSkipped := n }
  | .rectsFilled, n => { rectsFilled := n }
  | .trianglesSubmitted, n => { trianglesSubmitted := n }
  | .trianglesCulled, n => { trianglesCulled := n }
  | .trianglesBehind, n => { trianglesBehind := n }
  | .trianglesOffScissor, n => { trianglesOffScissor := n }
  | .pixelsTested, n => { pixelsTested := n }
  | .depthPassed, n => { depthPassed := n }
  | .depthFailed, n => { depthFailed := n }
  | .bufferClears, n => { bufferClears := n }

theorem get_zero (k : Counter) : (0 : Counters).get k = 0 := by
  cases k <;> rfl

theorem get_add (a b : Counters) (k : Counter) :
    (a + b).get k = a.get k + b.get k := by
  cases k <;> rfl

theorem get_count (j k : Counter) (n : UInt64) :
    (count j n).get k = if j = k then n else 0 := by
  cases j <;> cases k <;> rfl

theorem ext_get {a b : Counters} (h : ∀ k, a.get k = b.get k) : a = b :=
  Counters.ext (h .drawCalls) (h .drawsSkipped) (h .rectsFilled)
    (h .trianglesSubmitted) (h .trianglesCulled) (h .trianglesBehind)
    (h .trianglesOffScissor) (h .pixelsTested) (h .depthPassed)
    (h .depthFailed) (h .bufferClears)

end Counters

end DepthPrepass
