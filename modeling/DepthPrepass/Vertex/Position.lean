import DepthPrepass.Binary32
import DepthPrepass.Buffer
import DepthPrepass.Size
import DepthPrepass.Vertex.Format
import DepthPrepass.Vertex.Space

/-!
# Vertex positions

Positions are read from vertex data, little-endian, one vertex after another.
Integer components of a model position are fractions of the format's range;
as screen coordinates they stand for themselves. Data that does not reach to
the end of the last position is refused as a whole.

* `requiredBytes`: how long the data must be, in checked arithmetic.
* `positionAt`: the position of one vertex.
* `readPositions`: the positions of a draw, into a reused buffer.
-/

namespace DepthPrepass

/-- Vertex data that ends too early. -/
structure DataShortage where
  needed : Nat
  available : Nat
deriving DecidableEq, Repr

namespace VertexLayout

/-- The byte at which component `j` of the position of vertex `i` starts. -/
def address (layout : VertexLayout) (format : PositionFormat) (i j : Nat) :
    Nat :=
  i * layout.stride + layout.positionOffset + j * format.componentSize

/-- The bytes up to the end of the last of `count` positions; the largest
size if that is no size. -/
def requiredBytes (layout : VertexLayout) (format : PositionFormat)
    (count : Nat) : Nat :=
  if count = 0 then 0
  else
    Size.orLargest <|
      (Size.strided? count layout.stride layout.positionOffset).bind
        (Size.add? · format.size)

end VertexLayout

namespace PositionFormat

/-- What a component is multiplied by: one for a screen coordinate, and
otherwise the fraction of its range that an integer stands for. -/
def unit (format : PositionFormat) (through : Bool) : Float32 :=
  if through then 1
  else
    match format with
    | int8 => 1 / 128
    | int16 => 1 / 32768
    | none | float32 => 1

/-- The byte at an address. -/
def byteAt (data : Array UInt8) (address : Nat) : UInt8 :=
  data.getD address 0

/-- The half-word at an address, the low byte first. -/
def halfWordAt (data : Array UInt8) (address : Nat) : UInt16 :=
  (byteAt data address).toUInt16
    ||| (byteAt data (address + 1)).toUInt16 <<< 8

/-- The word at an address, the low half first. -/
def wordAt (data : Array UInt8) (address : Nat) : UInt32 :=
  (halfWordAt data address).toUInt32
    ||| (halfWordAt data (address + 2)).toUInt32 <<< 16

/-- The component at an address. Numbers that are stored as such are taken
bit by bit. -/
def componentAt (format : PositionFormat) (through : Bool)
    (data : Array UInt8) (address : Nat) : Float32 :=
  match format with
  | none => 0
  | int8 =>
    Binary32.ofInt8 (byteAt data address).toInt8 * int8.unit through
  | int16 =>
    Binary32.ofInt16 (halfWordAt data address).toInt16 * int16.unit through
  | float32 => .ofBits (wordAt data address)

end PositionFormat

namespace VertexLayout

/-- The position of vertex `i`. -/
def positionAt (layout : VertexLayout) (format : PositionFormat)
    (through : Bool) (data : Array UInt8) (i : Nat) : Vec3 :=
  let component (j : Nat) :=
    format.componentAt through data (layout.address format i j)
  ⟨component 0, component 1, component 2⟩

/-- Read `count` positions into a buffer. Without a position format the
buffer stays as it is. -/
def readPositions (layout : VertexLayout) (format : PositionFormat)
    (through : Bool) (data : Array UInt8) (count : Nat)
    (buffer : Array Vec3) : Except DataShortage (Array Vec3) :=
  let needed := layout.requiredBytes format count
  if data.size < needed then .error ⟨needed, data.size⟩
  else if format = .none then .ok buffer
  else
    .ok (Buffer.overwrite buffer count
      (layout.positionAt format through data))

theorem size_of_readPositions {layout : VertexLayout}
    {format : PositionFormat} {through : Bool} {data : Array UInt8}
    {count : Nat} {buffer positions : Array Vec3}
    (h : layout.readPositions format through data count buffer
      = .ok positions) : positions.size = buffer.size := by
  unfold readPositions at h
  dsimp only at h
  split at h
  · cases h
  · split at h <;> cases h
    · rfl
    · exact Buffer.size_overwrite ..

end VertexLayout

end DepthPrepass
