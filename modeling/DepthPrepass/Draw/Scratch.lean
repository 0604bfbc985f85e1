import DepthPrepass.Draw.Outcome

/-!
# Scratch storage of draws

Draws decode their vertices into storage that is made once. It has room for a
fixed number of vertices, once as positions and once on the screen, and what a
draw leaves in it is overwritten by the next one as far as that reaches.

* `ofCapacity`: new storage; its capacity never changes afterwards.
* `readPositions`, `placeOnScreen`: the two steps of a draw that use it.
-/

namespace DepthPrepass

/-- Room for the vertices of one draw at a time. -/
structure Scratch where
  positions : Array Vec3
  screen : Array ScreenVertex
  size_eq : screen.size = positions.size

namespace Scratch

/-- The number of vertices of the largest draw. -/
def maxDrawVertices : Nat := 65536

/-- New storage for a number of vertices. -/
def ofCapacity (capacity : Nat) : Scratch :=
  { positions := Array.replicate capacity .zero
    screen := Array.replicate capacity default
    size_eq := by rw [Array.size_replicate, Array.size_replicate] }

/-- How many vertices there is room for. -/
def capacity (scratch : Scratch) : Nat :=
  scratch.positions.size

/-- Whether there is room for a draw. -/
def reserve (scratch : Scratch) (count : Nat) : Except DrawError Unit :=
  if scratch.capacity < count then
    .error (.scratchTooSmall count scratch.capacity)
  else .ok ()

/-- Read the positions of a draw. Storage that is refused stays as it was. -/
def readPositions (scratch : Scratch) (type : VertexType)
    (layout : VertexLayout) (data : Array UInt8) (count : Nat) :
    Except DrawError Scratch :=
  match scratch.reserve count with
  | .error error => .error error
  | .ok () =>
    match h : layout.readPositions type.position type.through data count
        scratch.positions with
    | .error shortage => .error (.vertexData shortage)
    | .ok positions =>
      .ok
        { positions
          screen := scratch.screen
          size_eq := by
            rw [scratch.size_eq, VertexLayout.size_of_readPositions h] }

/-- The screen part after the first `count` positions have been brought to
the screen, and whether there is anything to see: screen coordinates always
are, a projection only if it has a vertex in front of the camera. -/
def screenOf (scratch : Scratch) (camera : Camera) (through : Bool)
    (count : Nat) : Array ScreenVertex × Bool :=
  if through then
    (ScreenVertex.ofPositions scratch.positions count scratch.screen, true)
  else camera.projectAll scratch.positions count scratch.screen

theorem size_screenOf (scratch : Scratch) (camera : Camera) (through : Bool)
    (count : Nat) :
    (scratch.screenOf camera through count).1.size = scratch.screen.size := by
  unfold screenOf
  split <;> exact Buffer.size_overwrite ..

/-- Bring the first `count` positions to the screen, and say whether there is
anything to see. -/
def placeOnScreen (scratch : Scratch) (camera : Camera) (through : Bool)
    (count : Nat) : Scratch × Bool :=
  let placed := scratch.screenOf camera through count
  ({ positions := scratch.positions
     screen := placed.1
     size_eq := by rw [size_screenOf, scratch.size_eq] }, placed.2)

/-- The vertex with a number. -/
def vertex (scratch : Scratch) (i : Nat) : ScreenVertex :=
  scratch.screen.getD i default

theorem capacity_of_readPositions {scratch scratch' : Scratch}
    {type : VertexType} {layout : VertexLayout} {data : Array UInt8}
    {count : Nat}
    (h : scratch.readPositions type layout data count = .ok scratch') :
    scratch'.capacity = scratch.capacity := by
  unfold readPositions at h
  split at h
  · cases h
  · split at h
    · cases h
    · next hp =>
      cases h
      exact VertexLayout.size_of_readPositions hp

theorem capacity_placeOnScreen (scratch : Scratch) (camera : Camera)
    (through : Bool) (count : Nat) :
    (scratch.placeOnScreen camera through count).1.capacity
      = scratch.capacity := rfl

end Scratch

end DepthPrepass
