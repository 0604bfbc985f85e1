/-!
# Lane modes

Pixels are handled one at a time or several at a time. The choice decides how
rows are filled and how triangles are walked, never what comes out.
-/

namespace DepthPrepass

/-- How many pixels are handled at a time. -/
inductive LaneMode where
  /-- One pixel at a time. -/
  | scalar
  /-- Eight cells at a time in a row fill, four in a triangle. -/
  | wide
deriving DecidableEq, Repr

namespace LaneMode

/-- The mode's name in messages. -/
def name : LaneMode → String
  | scalar => "Scalar"
  | wide => "Sse2"

/-- The name of the mode's row fill in messages. -/
def rowFillName : LaneMode → String
  | scalar => "scalar"
  | wide => "sse2"

/-- Whether triangles are walked four pixels at a time. -/
def isWide (mode : LaneMode) : Bool :=
  mode != scalar

/-- The widest mode there is. Every machine has the 128-bit registers that it
needs. -/
def widest : LaneMode := wide

end LaneMode

end DepthPrepass
