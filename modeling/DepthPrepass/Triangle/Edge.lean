import DepthPrepass.ScreenVertex
import DepthPrepass.Triple

/-!
# Edge functions

An edge is a linear function of the pixel position that is zero on the line
through two corners and positive on the inner side. A triangle has three, one
for each corner, through the other two; where none of them is negative, the
pixel is inside or on the boundary. Each function's value at its own corner is
twice the triangle's area, signed by the orientation. All of it is arithmetic
of 32-bit words that wrap.
-/

namespace DepthPrepass

/-- The function `a * x + b * y + c`. -/
structure Edge where
  a : Int32
  b : Int32
  c : Int32
deriving DecidableEq, Repr

namespace Edge

/-- The edge through two corners. -/
def through (p q : ScreenVertex) : Edge :=
  { a := p.y - q.y
    b := q.x - p.x
    c := p.x * q.y - q.x * p.y }

/-- The value at a pixel. -/
def eval (e : Edge) (x y : Int32) : Int32 :=
  e.a * x + e.b * y + e.c

/-- The edges of a triangle, each opposite the corner in its place. -/
def ofCorners (t : Triple ScreenVertex) : Triple Edge :=
  ⟨through t.second t.third, through t.third t.first,
    through t.first t.second⟩

/-- Twice the signed area of a triangle. -/
def area (t : Triple ScreenVertex) : Int32 :=
  (through t.second t.third).eval t.first.x t.first.y

end Edge

end DepthPrepass
