import DepthPrepass.Event
import DepthPrepass.Rectangle
import DepthPrepass.Triangle.Basic

/-!
# Rasterizers

A rasterizer is a policy and a lane mode. The policy may be changed later on,
the mode not.
-/

namespace DepthPrepass

/-- A policy and a lane mode. -/
structure Rasterizer where
  policy : Policy
  mode : LaneMode
deriving DecidableEq, Repr

namespace Rasterizer

/-- The rasterizer with given settings. -/
def ofSettings (settings : Settings) : Rasterizer :=
  { policy := settings.toPolicy, mode := settings.lanes.mode }

/-- The rasterizer with the usual settings. -/
def standard : Rasterizer := ofSettings {}

/-- The settings that lead to a rasterizer. -/
def settings (r : Rasterizer) : Settings :=
  { toPolicy := r.policy, lanes := .ofMode r.mode }

/-- What is said when a rasterizer is ready. -/
def readyEvent (r : Rasterizer) : Event :=
  .ready r.mode r.policy

/-- Paint a rectangle within a scissor. -/
def paintRectangle (r : Rasterizer) (scissor : Region)
    (rectangle : Rectangle) (test : DepthTest) (s : Surface) : Painted :=
  rectangle.paint r.mode r.policy.rectangleTest test scissor s

/-- Paint a triangle within a scissor. Whether its corners are behind the
camera does not matter here. -/
def paintTriangle (r : Rasterizer) (scissor : Region) (triangle : Triangle)
    (test : DepthTest) (s : Surface) : Painted :=
  triangle.paint r.mode r.policy test scissor s

end Rasterizer

end DepthPrepass
