import DepthPrepass.Triple

/-!
# Primitives and how they are assembled

A draw names a kind of primitive, and its vertices are grouped accordingly:
rectangles take two vertices each, triangles three, where a strip or a fan
shares vertices between them. Vertices that are left over are dropped. In a
strip every second triangle has its last two corners exchanged, which the
offset that alternates between one and two brings about; so all triangles of a
strip have the same orientation.

* `rectangles`, `Topology.triangles`: the groups, as vertex numbers.
-/

namespace DepthPrepass

/-- How triangles share vertices. -/
inductive Topology where
  /-- They share none. -/
  | list
  /-- Each shares two with the one before. -/
  | strip
  /-- Each shares one with the one before, and the first with all. -/
  | fan
deriving DecidableEq, Repr

/-- What a draw's vertices are grouped into. -/
inductive Assembly where
  | rectangles
  | triangles (topology : Topology)
deriving DecidableEq, Repr

/-- The kinds of primitive that a register can name. -/
inductive Primitive where
  | points
  | lines
  | lineStrip
  | triangles
  | triangleStrip
  | triangleFan
  | rectangles
  /-- The kind of the draw before. -/
  | keepPrevious
  | invalid
deriving DecidableEq, Repr

namespace Primitive

/-- The kind with a register code. -/
def ofBits (bits : UInt32) : Primitive :=
  match bits.toNat with
  | 0 => points
  | 1 => lines
  | 2 => lineStrip
  | 3 => triangles
  | 4 => triangleStrip
  | 5 => triangleFan
  | 6 => rectangles
  | 7 => keepPrevious
  | _ => invalid

/-- How the primitives are assembled, if they cover area. The others never
reach a depth surface. -/
def assembly? : Primitive → Option Assembly
  | triangles => some (.triangles .list)
  | triangleStrip => some (.triangles .strip)
  | triangleFan => some (.triangles .fan)
  | rectangles => some .rectangles
  | _ => none

/-- The kind's name. -/
def name : Primitive → String
  | points => "Points"
  | lines => "Lines"
  | lineStrip => "LineStrip"
  | triangles => "Triangles"
  | triangleStrip => "TriangleStrip"
  | triangleFan => "TriangleFan"
  | rectangles => "Rectangles"
  | keepPrevious => "KeepPrevious"
  | invalid => "Invalid"

/-- The kind in words. -/
def label : Primitive → String
  | points => "points"
  | lines => "lines"
  | lineStrip => "line strip"
  | triangles => "triangles"
  | triangleStrip => "triangle strip"
  | triangleFan => "triangle fan"
  | rectangles => "rectangles"
  | keepPrevious => "keep previous"
  | invalid => "invalid"

end Primitive

namespace Assembly

/-- How many rectangles a number of vertices makes. -/
def rectangleCount (vertices : Nat) : Nat :=
  vertices / 2

/-- The corners of the first `n` rectangles. -/
def rectanglePairs (n : Nat) : List (Nat × Nat) :=
  (List.range n).map fun i => (2 * i, 2 * i + 1)

end Assembly

namespace Topology

/-- How many triangles a number of vertices makes. -/
def triangleCount : Topology → (vertices : Nat) → Nat
  | list, vertices => vertices / 3
  | strip, vertices | fan, vertices => vertices - 2

/-- The corners of `n` successive triangles of a strip, from vertex `i` on,
where the second corner comes `offset` after the first. The other offset is
that of the third corner, and of the second corner of the next triangle. -/
def stripFrom : (i offset n : Nat) → List (Triple Nat)
  | _, _, 0 => []
  | i, offset, n + 1 =>
    let other := offset ^^^ 3
    ⟨i, i + offset, i + other⟩ :: stripFrom (i + 1) other n

/-- The corners of the first `n` triangles. -/
def triangles : Topology → (n : Nat) → List (Triple Nat)
  | list, n => (List.range n).map fun i => ⟨3 * i, 3 * i + 1, 3 * i + 2⟩
  | strip, n => stripFrom 0 2 n
  | fan, n => (List.range n).map fun i => ⟨0, i + 2, i + 1⟩

end Topology

end DepthPrepass
