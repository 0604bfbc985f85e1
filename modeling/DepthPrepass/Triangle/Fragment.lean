import DepthPrepass.Painted

/-!
# Fragments

A fragment is a pixel that a triangle covers, with the triangle's depth there.
Fragments are tested against the surface in the order in which they are found.
The comparison sees the whole depth, and what is stored of it is the whole
part.

* `Tested.fragments`: the depth tests of a list of fragments.
-/

namespace DepthPrepass

/-- A covered pixel and the depth there. -/
structure Fragment where
  x : Nat
  y : Nat
  depth : Float32

namespace Tested

/-- Test a fragment against its pixel. What is stored of its depth is the
whole part, within the range of cells. -/
def fragment (test : DepthTest) (t : Tested) (f : Fragment) : Tested :=
  t.visit test f.depth f.depth.toUInt16 (t.surface.index f.x f.y)

/-- Test fragments one after another. -/
def fragments (test : DepthTest) (fs : List Fragment) (s : Surface) : Tested :=
  fs.foldl (fragment test) (start s)

end Tested

end DepthPrepass
