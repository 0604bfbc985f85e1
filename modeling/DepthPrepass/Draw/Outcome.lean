import DepthPrepass.Draw.Primitive
import DepthPrepass.Draw.State
import DepthPrepass.Vertex.Position

/-!
# What becomes of a draw

A draw is done, skipped because it would not change depth, or refused because
the caller did not give it enough room or data. A skipped draw and a refused
one leave the surface as it was.
-/

namespace DepthPrepass

/-- Why a draw is skipped. -/
inductive SkipReason where
  | gate (gate : DepthGate)
  | unsupportedPrimitive (primitive : Primitive)
  | indexedVertices
  | skinnedVertices
  | noPosition
  | allBehindCamera
deriving DecidableEq, Repr

/-- Why a draw is refused. -/
inductive DrawError where
  | scratchTooSmall (requested capacity : Nat)
  | vertexData (shortage : DataShortage)
deriving DecidableEq, Repr

/-- What a draw did. -/
structure DrawStats where
  rectangles : Nat := 0
  triangles : Nat := 0
  trianglesBehind : Nat := 0
  pixelsWritten : Nat := 0
deriving DecidableEq, Repr

/-- What became of a draw that was not refused. -/
inductive DrawOutcome where
  | drawn (stats : DrawStats)
  | skipped (reason : SkipReason)
deriving DecidableEq, Repr

/-- The text of a reason. -/
def SkipReason.message : SkipReason → String
  | gate g => g.name
  | unsupportedPrimitive primitive => s!"UnsupportedPrimitive({primitive.name})"
  | indexedVertices => "IndexedVertices"
  | skinnedVertices => "SkinnedVertices"
  | noPosition => "NoPosition"
  | allBehindCamera => "AllBehindCamera"

/-- The text of an error about vertex data. -/
def DataShortage.message (shortage : DataShortage) : String :=
  s!"vertex data holds {shortage.available} bytes, "
    ++ s!"draw needs {shortage.needed}"

/-- The text of an error. -/
def DrawError.message : DrawError → String
  | scratchTooSmall requested capacity =>
    s!"draw of {requested} vertices exceeds scratch capacity {capacity}"
  | vertexData shortage => shortage.message

namespace DrawOutcome

/-- Whether the draw was skipped. -/
def isSkipped : DrawOutcome → Bool
  | drawn _ => false
  | skipped _ => true

/-- How many cells the draw wrote. -/
def pixelsWritten : DrawOutcome → Nat
  | drawn stats => stats.pixelsWritten
  | skipped _ => 0

end DrawOutcome

end DepthPrepass
