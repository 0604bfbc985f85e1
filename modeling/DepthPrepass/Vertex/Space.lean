/-!
# Points and transforms

Single-precision points and the transforms between model, world, view and clip
space. Each product and each sum is rounded for itself, and sums run from left
to right, so the order in which they are written is the order in which they
are computed.
-/

namespace DepthPrepass

/-- A point or direction in space. -/
structure Vec3 where
  x : Float32
  y : Float32
  z : Float32

/-- A point in homogeneous coordinates. -/
structure Vec4 where
  x : Float32
  y : Float32
  z : Float32
  w : Float32

namespace Vec3

/-- The origin. -/
def zero : Vec3 := ⟨0, 0, 0⟩

instance : Inhabited Vec3 := ⟨zero⟩

/-- Ones throughout. -/
def one : Vec3 := ⟨1, 1, 1⟩

instance : Add Vec3 := ⟨fun a b => ⟨a.x + b.x, a.y + b.y, a.z + b.z⟩⟩

/-- Multiply by a number. -/
def scale (a : Vec3) (k : Float32) : Vec3 :=
  ⟨a.x * k, a.y * k, a.z * k⟩

end Vec3

namespace Vec4

instance : Add Vec4 :=
  ⟨fun a b => ⟨a.x + b.x, a.y + b.y, a.z + b.z, a.w + b.w⟩⟩

/-- Multiply by a number. -/
def scale (a : Vec4) (k : Float32) : Vec4 :=
  ⟨a.x * k, a.y * k, a.z * k, a.w * k⟩

/-- Whether a point in clip space is in front of the camera. -/
def inFront (a : Vec4) : Bool :=
  0 < a.w

/-- Divide by the last coordinate. -/
def dehomogenize (a : Vec4) : Vec3 :=
  ⟨a.x / a.w, a.y / a.w, a.z / a.w⟩

end Vec4

/-- A linear map and a shift, given by the images of the axes and of the
origin. -/
structure Affine where
  xAxis : Vec3
  yAxis : Vec3
  zAxis : Vec3
  origin : Vec3

namespace Affine

/-- The map that changes nothing. -/
def identity : Affine :=
  ⟨⟨1, 0, 0⟩, ⟨0, 1, 0⟩, ⟨0, 0, 1⟩, .zero⟩

/-- The image of a point. -/
def apply (m : Affine) (p : Vec3) : Vec3 :=
  m.xAxis.scale p.x + m.yAxis.scale p.y + m.zAxis.scale p.z + m.origin

end Affine

/-- A map of homogeneous coordinates, given by its columns. -/
structure Projection where
  xAxis : Vec4
  yAxis : Vec4
  zAxis : Vec4
  wAxis : Vec4

namespace Projection

/-- The map that changes nothing. -/
def identity : Projection :=
  ⟨⟨1, 0, 0, 0⟩, ⟨0, 1, 0, 0⟩, ⟨0, 0, 1, 0⟩, ⟨0, 0, 0, 1⟩⟩

/-- The image of a point in space, whose last coordinate is one. -/
def apply (m : Projection) (p : Vec3) : Vec4 :=
  m.xAxis.scale p.x + m.yAxis.scale p.y + m.zAxis.scale p.z
    + m.wAxis.scale 1

end Projection

end DepthPrepass
