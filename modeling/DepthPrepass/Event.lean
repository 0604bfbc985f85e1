import DepthPrepass.Draw.Outcome
import DepthPrepass.Policy

/-!
# Messages

What a rasterizer says about its work: once how it was set up, and one line for
each draw that is not refused.
-/

namespace DepthPrepass

/-- The order in which the front of a triangle is said to run. Depth does not
depend on it. -/
inductive Winding where
  | clockwise
  | counterClockwise
deriving DecidableEq, Repr, Inhabited

/-- The winding's name in messages. -/
def Winding.name : Winding → String
  | clockwise => "Clockwise"
  | counterClockwise => "CounterClockwise"

/-- Something worth a message. -/
inductive Event where
  | ready (mode : LaneMode) (policy : Policy)
  | skipping (primitive : Primitive) (vertices : Nat) (reason : SkipReason)
  | drawing (primitive : Primitive) (vertices : Nat) (test : DepthTest)
    (winding : Winding)
deriving DecidableEq, Repr

namespace Event

/-- The level of a message. -/
def level : Event → String
  | ready .. => "DEBUG"
  | skipping .. | drawing .. => "TRACE"

/-- The text of a message. -/
def text : Event → String
  | ready mode policy =>
    s!"depth raster: {mode.name} mode ({mode.rowFillName} row kernel), "
      ++ s!"cull {policy.culling.name}, "
      ++ s!"rect compare {policy.rectangleTest.name}, "
      ++ s!"triangle never {policy.triangleNever.name}"
  | skipping primitive vertices reason =>
    s!"depth raster: skipping {primitive.label} draw of {vertices} vertices: "
      ++ reason.message
  | drawing primitive vertices test winding =>
    s!"depth raster: {primitive.label} draw, {vertices} vertices, "
      ++ s!"{test.name} compare, {winding.name} winding"

/-- A message as one line. -/
def line (event : Event) : String :=
  event.level ++ " " ++ event.text

end Event

end DepthPrepass
