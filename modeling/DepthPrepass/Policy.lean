import DepthPrepass.LaneMode

/-!
# Policies

What a rasterizer does where there is a choice: which triangles it turns away,
what a rectangle does under a test between never and always, what a triangle
does under never, and how many pixels it handles at a time.
-/

namespace DepthPrepass

/-- Which orientations of a triangle are drawn. -/
inductive Culling where
  /-- Only the front, whose corners run in the accepted order. -/
  | frontOnly
  /-- Both sides. -/
  | twoSided
deriving DecidableEq, Repr, Inhabited

/-- What a rectangle does under a test that is neither never nor always. -/
inductive RectangleTest where
  /-- Nothing. -/
  | skip
  /-- It tests each of its pixels. -/
  | perPixel
deriving DecidableEq, Repr, Inhabited

/-- What a triangle does under the test that never passes. -/
inductive TriangleNever where
  /-- It is drawn as if the test always passed. -/
  | pass
  /-- It is not drawn, as with rectangles. -/
  | reject
deriving DecidableEq, Repr, Inhabited

/-- Which lane mode is wanted. -/
inductive LanePreference where
  /-- The widest there is. -/
  | auto
  | scalar
deriving DecidableEq, Repr, Inhabited

/-- The choices that can show in a picture. -/
structure Policy where
  culling : Culling := .frontOnly
  rectangleTest : RectangleTest := .skip
  triangleNever : TriangleNever := .pass
deriving DecidableEq, Repr, Inhabited

/-- All choices. -/
structure Settings extends Policy where
  lanes : LanePreference := .auto
deriving DecidableEq, Repr, Inhabited

/-- A change of some of the choices that show. -/
structure PolicyChange where
  culling : Option Culling := none
  rectangleTest : Option RectangleTest := none
  triangleNever : Option TriangleNever := none
deriving DecidableEq, Repr

/-- The policy with a change made. -/
def Policy.change (policy : Policy) (change : PolicyChange) : Policy :=
  { culling := change.culling.getD policy.culling
    rectangleTest := change.rectangleTest.getD policy.rectangleTest
    triangleNever := change.triangleNever.getD policy.triangleNever }

namespace Culling

/-- The choice's name in messages. -/
def name : Culling → String
  | frontOnly => "FrontOnly"
  | twoSided => "TwoSided"

end Culling

namespace RectangleTest

/-- The choice's name in messages. -/
def name : RectangleTest → String
  | skip => "Skip"
  | perPixel => "PerPixel"

end RectangleTest

namespace TriangleNever

/-- The choice's name in messages. -/
def name : TriangleNever → String
  | pass => "Pass"
  | reject => "Reject"

end TriangleNever

namespace LanePreference

/-- The mode that a preference leads to. -/
def mode : LanePreference → LaneMode
  | auto => .widest
  | scalar => .scalar

/-- The preference that leads to a mode. -/
def ofMode : LaneMode → LanePreference
  | .scalar => scalar
  | .wide => auto

end LanePreference

/-- Settings with one pixel at a time, otherwise as usual. -/
def Settings.scalar : Settings := { lanes := .scalar }

end DepthPrepass
