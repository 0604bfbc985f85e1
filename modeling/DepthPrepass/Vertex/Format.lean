/-!
# Vertex formats

A register says in which format the parts of a vertex are stored, and whether
positions are screen coordinates already. What matters to depth are the
position's format and whether there are indices or weights at all.
-/

namespace DepthPrepass

/-- The format of a position's components. -/
inductive PositionFormat where
  /-- There is no position. -/
  | none
  | int8
  | int16
  | float32
deriving DecidableEq, Repr, Inhabited

/-- The format of vertex indices. -/
inductive IndexFormat where
  | none
  | uint8
  | uint16
  | uint32
deriving DecidableEq, Repr, Inhabited

/-- The format of skinning weights. -/
inductive WeightFormat where
  | none
  | uint8
  | uint16
  | float32
deriving DecidableEq, Repr, Inhabited

/-- What the vertex type register says. -/
structure VertexType where
  position : PositionFormat := .none
  /-- Whether positions are screen coordinates. -/
  through : Bool := false
  index : IndexFormat := .none
  weights : WeightFormat := .none
deriving DecidableEq, Repr, Inhabited

/-- Where the positions are in vertex data. -/
structure VertexLayout where
  /-- Bytes from one vertex to the next. -/
  stride : Nat
  /-- Bytes before the position within a vertex. -/
  positionOffset : Nat
deriving DecidableEq, Repr

namespace PositionFormat

/-- The bytes of one component. -/
def componentSize : PositionFormat → Nat
  | none => 0
  | int8 => 1
  | int16 => 2
  | float32 => 4

/-- The bytes of a position. -/
def size (format : PositionFormat) : Nat :=
  3 * format.componentSize

/-- The format with a two-bit code. -/
def ofCode : Nat → PositionFormat
  | 0 => none
  | 1 => int8
  | 2 => int16
  | _ => float32

end PositionFormat

/-- The format with a two-bit code. -/
def IndexFormat.ofCode : Nat → IndexFormat
  | 0 => none
  | 1 => uint8
  | 2 => uint16
  | _ => uint32

/-- The format with a two-bit code. -/
def WeightFormat.ofCode : Nat → WeightFormat
  | 0 => none
  | 1 => uint8
  | 2 => uint16
  | _ => float32

namespace VertexType

/-- The two bits of a register from bit `shift` on. -/
def code (bits shift : UInt32) : Nat :=
  ((bits >>> shift) &&& 3).toNat

/-- Read the register: two bits each for the position from bit 7 on, the
weights from bit 9 on and the index from bit 11 on, and bit 23 for screen
coordinates. -/
def ofBits (bits : UInt32) : VertexType :=
  { position := .ofCode (code bits 7)
    weights := .ofCode (code bits 9)
    index := .ofCode (code bits 11)
    through := (bits >>> 23) &&& 1 == 1 }

/-- Whether vertices are looked up by index. -/
def isIndexed (t : VertexType) : Bool :=
  t.index != .none

/-- Whether vertices are blended by weights. -/
def isSkinned (t : VertexType) : Bool :=
  t.weights != .none

end VertexType

/-- Positions and nothing else, without gaps. -/
def VertexLayout.packed (format : PositionFormat) : VertexLayout :=
  ⟨format.size, 0⟩

end DepthPrepass
