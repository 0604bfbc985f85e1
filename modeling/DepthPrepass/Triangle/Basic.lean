import DepthPrepass.Policy
import DepthPrepass.Triangle.Walk

/-!
# Triangles

A triangle is drawn in the part of the scissor that its bounding box, the
boundary included, shares with the surface. Its front is the side on which the
corners, the last two exchanged, have a positive area; the policy says whether
the other side is drawn too. There are three reasons not to draw it, and the
first that holds is the one that counts.

* `walk?`: the walk that finds a triangle's fragments, or the reason why there
  is none.
* `paint`: the depth tests of the fragments.
-/

namespace DepthPrepass

/-- The corners of a triangle on the screen. -/
abbrev Triangle := Triple ScreenVertex

namespace Triangle

/-- Why a triangle is not drawn. -/
inductive Rejection where
  /-- The test never passes and the policy respects that. -/
  | never
  /-- The bounding box does not meet the clip region. -/
  | offScissor
  /-- The area is not positive. -/
  | culled
deriving DecidableEq, Repr

/-- The work that a rejection counts as. -/
def Rejection.work : Rejection → Counters
  | never => 0
  | offScissor => .count .trianglesOffScissor 1
  | culled => .count .trianglesCulled 1

/-- The test that decides about the fragments of a triangle, if it is drawn
at all. -/
def effectiveTest? (policy : TriangleNever) (test : DepthTest) :
    Option DepthTest :=
  match test, policy with
  | .never, .reject => none
  | .never, .pass => some .always
  | test, _ => some test

/-- The smallest region that holds the three corners, as far as a region can
reach. -/
def box (t : Triangle) : Region :=
  { left := min (min t.first.x t.second.x) t.third.x
    top := min (min t.first.y t.second.y) t.third.y
    right := Coordinate.next (max (max t.first.x t.second.x) t.third.x)
    bottom := Coordinate.next (max (max t.first.y t.second.y) t.third.y) }

/-- The corners with the last two exchanged. -/
def flip (t : Triangle) : Triangle :=
  ⟨t.first, t.third, t.second⟩

/-- The corners in the order in which they are drawn. That is the flipped
order, unless its area is negative and both sides are drawn. -/
def drawn (culling : Culling) (t : Triangle) : Triangle :=
  if Edge.area t.flip < 0 ∧ culling = .twoSided then t else t.flip

/-- The walk over a region of a triangle whose corners are in order. -/
def walkIn (region : Region) (t : Triangle) : Walk :=
  let inverse := 1 / Binary32.ofInt32 (Edge.area t)
  { region
    edges := Edge.ofCorners t
    slopes := t.map fun corner => corner.z.toFloat32 * inverse }

/-- The walk over the part of a triangle that is in the clip region. -/
def walk? (culling : Culling) (clip : Region) (t : Triangle) :
    Except Rejection Walk :=
  let region := t.box.inter clip
  if region.isEmpty then .error .offScissor
  else
    let t := t.drawn culling
    if Edge.area t ≤ 0 then .error .culled else .ok (t.walkIn region)

/-- The test and the walk of a triangle, or the reason not to draw it. -/
def plan (policy : Policy) (test : DepthTest) (clip : Region) (t : Triangle) :
    Except Rejection (DepthTest × Walk) :=
  match effectiveTest? policy.triangleNever test with
  | none => .error .never
  | some test => (t.walk? policy.culling clip).map fun walk => (test, walk)

/-- Paint a triangle within a scissor. -/
def paint (mode : LaneMode) (policy : Policy) (test : DepthTest)
    (scissor : Region) (t : Triangle) (s : Surface) : Painted :=
  let submitted := Counters.count .trianglesSubmitted 1
  match t.plan policy test (s.clip scissor) with
  | .error rejection => .nothing s (submitted + rejection.work)
  | .ok (test, walk) =>
    (Tested.fragments test (walk.fragments mode) s).painted submitted

end Triangle

end DepthPrepass
