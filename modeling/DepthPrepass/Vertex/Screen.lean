import DepthPrepass.Binary32
import DepthPrepass.Buffer
import DepthPrepass.ScreenVertex
import DepthPrepass.Vertex.Space

/-!
# From positions to the screen

A model position passes through world, view and clip space and the viewport;
then the screen offset is taken off in sixteenths of a pixel and what is left
of a pixel is dropped. A vertex is behind the camera unless its last clip
coordinate is positive. A position that is a screen coordinate already is only
truncated. Depths are truncated too; those beyond the ends of the range become
the ends.

* `Camera.project`, `ScreenVertex.ofPosition`: one vertex.
* `Camera.projectAll`, `ScreenVertex.ofPositions`: the vertices of a draw,
  into a reused buffer.
-/

namespace DepthPrepass

/-- The map from normalized device coordinates to pixels and depths. -/
structure Viewport where
  center : Vec3 := .zero
  scale : Vec3 := .one

/-- All that takes a model position to the screen. -/
structure Camera where
  world : Affine := .identity
  view : Affine := .identity
  projection : Projection := .identity
  viewport : Viewport := {}
  /-- The screen offset, in sixteenths of a pixel. -/
  offsetX : Int32 := 0
  offsetY : Int32 := 0

namespace Camera

/-- A model position in clip space. -/
def clipPosition (camera : Camera) (p : Vec3) : Vec4 :=
  camera.projection.apply (camera.view.apply (camera.world.apply p))

/-- A coordinate in pixels, from one in device coordinates. The offset is
taken off in sixteenths. -/
def pixel (device scale center : Float32) (offset : Int32) : Int32 :=
  let sixteenths := (device * scale + center) * 16 - Binary32.ofInt32 offset
  Binary32.toInt32 (sixteenths * (1 / 16))

/-- The vertex at a point in clip space. -/
def toScreen (camera : Camera) (clip : Vec4) : ScreenVertex :=
  let device := clip.dehomogenize
  let center := camera.viewport.center
  let scale := camera.viewport.scale
  { x := pixel device.x scale.x center.x camera.offsetX
    y := pixel device.y scale.y center.y camera.offsetY
    z := (device.z * scale.z + center.z).toUInt16
    behind := !clip.inFront }

/-- The vertex at a model position. -/
def project (camera : Camera) (p : Vec3) : ScreenVertex :=
  camera.toScreen (camera.clipPosition p)

/-- Project the first `count` positions into a buffer, and say whether any of
them is in front of the camera. -/
def projectAll (camera : Camera) (positions : Array Vec3) (count : Nat)
    (buffer : Array ScreenVertex) : Array ScreenVertex × Bool :=
  let projected (i : Nat) := camera.project (positions.getD i .zero)
  (Buffer.overwrite buffer count projected,
    (List.range count).any fun i => !(projected i).behind)

end Camera

namespace ScreenVertex

/-- The vertex at a screen position. -/
def ofPosition (p : Vec3) : ScreenVertex :=
  { x := Binary32.toInt32 p.x
    y := Binary32.toInt32 p.y
    z := p.z.toUInt16 }

/-- Take the first `count` positions to a buffer as they are. -/
def ofPositions (positions : Array Vec3) (count : Nat)
    (buffer : Array ScreenVertex) : Array ScreenVertex :=
  Buffer.overwrite buffer count fun i => ofPosition (positions.getD i .zero)

end ScreenVertex

end DepthPrepass
