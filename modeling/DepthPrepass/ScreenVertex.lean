/-!
# Screen vertices

A vertex that has reached the screen: a pixel position, which may lie far
outside any surface, a depth, and whether it was behind the camera.
-/

namespace DepthPrepass

/-- A vertex in screen coordinates. -/
structure ScreenVertex where
  x : Int32
  y : Int32
  z : UInt16
  /-- Whether the vertex was behind the camera; its position then means
  nothing. -/
  behind : Bool := false
deriving DecidableEq, Repr, Inhabited

end DepthPrepass
