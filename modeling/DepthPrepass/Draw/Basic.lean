import DepthPrepass.Draw.Scratch
import DepthPrepass.Rasterizer

/-!
# Draws

A draw is checked, its vertices are read and brought to the screen, and what
they are assembled into is painted one after another. The checks come in a
fixed order: the registers, the kind of primitive, indices, weights, the
position, then the room, then the data, and last whether anything is in front
of the camera. Nothing is painted before all of them.

* `Draw.check`: the checks that need neither room nor data.
* `Draw.run`: the draw.
-/

namespace DepthPrepass

/-- What is to be drawn. -/
structure Draw where
  primitive : Primitive
  vertices : Nat
  type : VertexType
  winding : Winding := .clockwise
deriving DecidableEq, Repr

/-- What a draw leaves. -/
structure Draw.Result where
  surface : Surface
  scratch : Scratch
  work : Counters
  outcome : Except DrawError DrawOutcome
  events : List Event

/-- A draw in the course of painting. -/
structure Draw.Progress where
  surface : Surface
  stats : DrawStats
  work : Counters

namespace Draw

/-- The test and the assembly of a draw, or why it is skipped. -/
def check (draw : Draw) (registers : DepthRegisters) :
    Except SkipReason (DepthTest × Assembly) :=
  match registers.effectiveTest with
  | .error gate => .error (.gate gate)
  | .ok test =>
    match draw.primitive.assembly? with
    | none => .error (.unsupportedPrimitive draw.primitive)
    | some assembly =>
      if draw.type.isIndexed then .error .indexedVertices
      else if draw.type.isSkinned then .error .skinnedVertices
      else if draw.type.position = .none then .error .noPosition
      else .ok (test, assembly)

/-! ## Painting -/

/-- Paint the rectangle between two vertices, at the depth of the second.
That one of them is behind the camera does not matter. -/
def paintRectangle (r : Rasterizer) (scissor : Region) (test : DepthTest)
    (vertex : Nat → ScreenVertex) (progress : Progress) (pair : Nat × Nat) :
    Progress :=
  match progress with
  | ⟨surface, stats, work⟩ =>
    let a := vertex pair.1
    let b := vertex pair.2
    let painted :=
      r.paintRectangle scissor ⟨a.x, a.y, b.x, b.y, b.z⟩ test surface
    { surface := painted.surface
      stats :=
        { stats with
          rectangles := stats.rectangles + 1
          pixelsWritten := stats.pixelsWritten + painted.written }
      work := work + painted.work }

/-- Paint the triangle between three vertices, unless one of them is behind
the camera. -/
def paintTriangle (r : Rasterizer) (scissor : Region) (test : DepthTest)
    (vertex : Nat → ScreenVertex) (progress : Progress)
    (corners : Triple Nat) : Progress :=
  match progress with
  | ⟨surface, stats, work⟩ =>
    let triangle : Triangle := corners.map vertex
    if triangle.any (·.behind) then
      { surface
        stats := { stats with trianglesBehind := stats.trianglesBehind + 1 }
        work := work + .count .trianglesBehind 1 }
    else
      let painted := r.paintTriangle scissor triangle test surface
      { surface := painted.surface
        stats :=
          { stats with
            triangles := stats.triangles + 1
            pixelsWritten := stats.pixelsWritten + painted.written }
        work := work + painted.work }

/-- Paint what `count` vertices are assembled into. -/
def paint (r : Rasterizer) (scissor : Region) (test : DepthTest)
    (assembly : Assembly) (vertex : Nat → ScreenVertex) (count : Nat)
    (s : Surface) : Progress :=
  match assembly with
  | .rectangles =>
    (Assembly.rectanglePairs (Assembly.rectangleCount count)).foldl
      (paintRectangle r scissor test vertex) ⟨s, {}, 0⟩
  | .triangles topology =>
    (topology.triangles (topology.triangleCount count)).foldl
      (paintTriangle r scissor test vertex) ⟨s, {}, 0⟩

/-! ## The draw -/

/-- What a skipped draw leaves. -/
def skip (draw : Draw) (reason : SkipReason) (s : Surface)
    (scratch : Scratch) : Result :=
  { surface := s
    scratch
    work := .count .drawCalls 1 + .count .drawsSkipped 1
    outcome := .ok (.skipped reason)
    events := [.skipping draw.primitive draw.vertices reason] }

/-- What a refused draw leaves. -/
def refuse (error : DrawError) (s : Surface) (scratch : Scratch) : Result :=
  { surface := s
    scratch
    work := .count .drawCalls 1
    outcome := .error error
    events := [] }

/-- Carry out a draw within a scissor. -/
def run (r : Rasterizer) (scissor : Region) (draw : Draw)
    (layout : VertexLayout) (state : RenderState) (data : Array UInt8)
    (scratch : Scratch) (s : Surface) : Result :=
  match draw.check state.registers with
  | .error reason => draw.skip reason s scratch
  | .ok (test, assembly) =>
    match scratch.readPositions draw.type layout data draw.vertices with
    | .error error => refuse error s scratch
    | .ok scratch =>
      match scratch.placeOnScreen state.camera draw.type.through
          draw.vertices with
      | (scratch, false) => draw.skip .allBehindCamera s scratch
      | (scratch, true) =>
        let progress :=
          paint r scissor test assembly scratch.vertex draw.vertices s
        { surface := progress.surface
          scratch
          work := .count .drawCalls 1 + progress.work
          outcome := .ok (.drawn progress.stats)
          events :=
            [.drawing draw.primitive draw.vertices test draw.winding] }

end Draw

end DepthPrepass
