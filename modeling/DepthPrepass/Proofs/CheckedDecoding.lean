import Mathlib.Algebra.GroupWithZero.Nat
import DepthPrepass.Proofs.CheckedAccess
import DepthPrepass.Proofs.DrawOutcome

/-!
# No byte out of range

Before positions are read, the length of the data is compared with the end of the last
position, in checked arithmetic. The addresses that are computed afterwards are not
checked, neither those of the last vertex nor those of the others. Here they are: a
product or a sum that is no size, and a byte that is not in the data, have no result.

* `VertexLayout.address?`, `PositionFormat.component?`: checked addresses and bytes.
* `VertexLayout.readInto?`: checked reading, into a buffer that is there in any case.
* `VertexLayout.address_add_componentSize_le`: no component of any vertex ends after
  the last position.
* `VertexLayout.readPositions_within_data`: no check ever fails, however vertices
  overlap and wherever positions are in them.
-/

namespace DepthPrepass

/-! ## Checked steps -/

namespace PositionFormat

/-- The byte that is `k` bytes after an address, if there is one. -/
def byte? (data : Array UInt8) (address k : Nat) : Option UInt8 := do
  let place ← Size.add? address k
  data[place]?

/-- The component at an address, if all of its bytes are there. -/
def component? (format : PositionFormat) (through : Bool) (data : Array UInt8)
    (address : Nat) : Option Float32 :=
  match format with
  | none => some 0
  | int8 => do
    let byte ← byte? data address 0
    return Binary32.ofInt8 byte.toInt8 * int8.unit through
  | int16 => do
    let low ← byte? data address 0
    let high ← byte? data address 1
    let half := low.toUInt16 ||| high.toUInt16 <<< 8
    return Binary32.ofInt16 half.toInt16 * int16.unit through
  | float32 => do
    let first ← byte? data address 0
    let second ← byte? data address 1
    let third ← byte? data address 2
    let fourth ← byte? data address 3
    let low := first.toUInt16 ||| second.toUInt16 <<< 8
    let high := third.toUInt16 ||| fourth.toUInt16 <<< 8
    return .ofBits (low.toUInt32 ||| high.toUInt32 <<< 16)

end PositionFormat

namespace VertexLayout

/-- The address of a component, if it and all that is computed on the way to it are
sizes. -/
def address? (layout : VertexLayout) (format : PositionFormat) (i j : Nat) :
    Option Nat := do
  let vertex ← Size.mul? i layout.stride
  let position ← Size.add? vertex layout.positionOffset
  let component ← Size.mul? j format.componentSize
  Size.add? position component

/-- The position of vertex `i`, with each address and each byte checked. -/
def position? (layout : VertexLayout) (format : PositionFormat) (through : Bool)
    (data : Array UInt8) (i : Nat) : Option Vec3 := do
  let x ← (layout.address? format i 0).bind (format.component? through data)
  let y ← (layout.address? format i 1).bind (format.component? through data)
  let z ← (layout.address? format i 2).bind (format.component? through data)
  return ⟨x, y, z⟩

/-- Read `count` positions into a buffer with every step checked. How it has gone and
what is in the buffer then are two things: there is a buffer after an error too. -/
def readInto? (layout : VertexLayout) (format : PositionFormat) (through : Bool)
    (data : Array UInt8) (count : Nat) (buffer : Array Vec3) :
    Option (Except DataShortage Unit × Array Vec3) :=
  let needed := layout.requiredBytes format count
  if data.size < needed then some (.error ⟨needed, data.size⟩, buffer)
  else if format = .none then some (.ok (), buffer)
  else do
    let buffer ← (List.range count).foldlM (fun buffer i =>
      (layout.position? format through data i).map (buffer.setIfInBounds i)) buffer
    return (.ok (), buffer)

end VertexLayout

/-! ## Steps that do not fail -/

namespace PositionFormat

variable {format : PositionFormat} {through : Bool} {data : Array UInt8}
  {address : Nat}

theorem byte?_eq_some {k : Nat} (hdata : data.size < Size.limit)
    (h : address + k < data.size) :
    byte? data address k = some (byteAt data (address + k)) := by
  have hplace : Size.add? address k = some (address + k) :=
    Size.add?_eq_some_iff.2 ⟨rfl, by omega⟩
  unfold byte? byteAt
  rw [hplace, Array.getD_eq_getD_getElem?, Array.getElem?_eq_getElem h]
  exact Array.getElem?_eq_getElem h

theorem component?_eq_some (hdata : data.size < Size.limit)
    (h : address + format.componentSize ≤ data.size) :
    format.component? through data address
      = some (format.componentAt through data address) := by
  have hbyte (k : Nat) (hk : k < format.componentSize) :
      byte? data address k = some (byteAt data (address + k)) :=
    byte?_eq_some hdata (by omega)
  unfold component?
  -- as many bytes are read as the format has, which is as many as `h` gives
  cases format with
  | none => rfl
  | int8 =>
    dsimp only
    rw [hbyte 0 (by decide)]
    rfl
  | int16 =>
    dsimp only
    rw [hbyte 0 (by decide), hbyte 1 (by decide)]
    rfl
  | float32 =>
    dsimp only
    rw [hbyte 0 (by decide), hbyte 1 (by decide), hbyte 2 (by decide),
      hbyte 3 (by decide)]
    rfl

end PositionFormat

namespace VertexLayout

variable {layout : VertexLayout} {format : PositionFormat} {through : Bool}
  {data : Array UInt8} {count i j : Nat}

theorem address?_eq_some (h : layout.address format i j < Size.limit) :
    layout.address? format i j = some (layout.address format i j) := by
  unfold address at h ⊢
  -- what is computed on the way is no larger than the whole address
  have hvertex : Size.mul? i layout.stride = some (i * layout.stride) :=
    Size.mul?_eq_some_iff.2 ⟨rfl, by omega⟩
  have hposition : Size.add? (i * layout.stride) layout.positionOffset
      = some (i * layout.stride + layout.positionOffset) :=
    Size.add?_eq_some_iff.2 ⟨rfl, by omega⟩
  have hcomponent : Size.mul? j format.componentSize
      = some (j * format.componentSize) :=
    Size.mul?_eq_some_iff.2 ⟨rfl, by omega⟩
  unfold address?
  rw [hvertex, Option.bind_eq_bind, Option.bind_some, hposition, Option.bind_some,
    hcomponent]
  exact Size.add?_eq_some_iff.2 ⟨rfl, h⟩

/-- A component of any vertex ends where the last component of the last vertex ends,
or before. -/
theorem address_add_componentSize_le (layout : VertexLayout)
    (format : PositionFormat) (hi : i < count) (hj : j < 3) :
    layout.address format i j + format.componentSize
      ≤ (count - 1) * layout.stride + layout.positionOffset
        + 3 * format.componentSize := by
  have hvertex : i * layout.stride ≤ (count - 1) * layout.stride :=
    Nat.mul_le_mul_right _ (by omega)
  have hcomponent : (j + 1) * format.componentSize ≤ 3 * format.componentSize :=
    Nat.mul_le_mul_right _ hj
  rw [Nat.succ_mul] at hcomponent
  unfold address
  omega

theorem position?_eq_some (hdata : data.size < Size.limit)
    (h : ∀ j < 3,
      layout.address format i j + format.componentSize ≤ data.size) :
    layout.position? format through data i
      = some (layout.positionAt format through data i) := by
  have hcomponent (j : Nat) (hj : j < 3) :
      (layout.address? format i j).bind (format.component? through data)
        = some (format.componentAt through data (layout.address format i j)) := by
    have hend := h j hj
    rw [address?_eq_some (by omega), Option.bind_some]
    exact PositionFormat.component?_eq_some hdata hend
  unfold position?
  rw [hcomponent 0 (by decide), hcomponent 1 (by decide), hcomponent 2 (by decide)]
  rfl

/-- Data that is long enough for what is asked of it has all components of all
vertices. -/
theorem address_add_componentSize_le_size (hdata : data.size < Size.largest)
    (h : layout.requiredBytes format count ≤ data.size) (hi : i < count)
    (hj : j < 3) :
    layout.address format i j + format.componentSize ≤ data.size := by
  have hle := layout.address_add_componentSize_le format hi hj
  rw [requiredBytes_eq_min, if_neg (by omega)] at h
  -- data is shorter than the largest size, so what is asked for is the exact extent
  omega

theorem readInto?_eq_some (through : Bool) (buffer : Array Vec3)
    (hdata : data.size < Size.largest)
    (h : layout.requiredBytes format count ≤ data.size) :
    ∃ positions,
      layout.readPositions format through data count buffer = .ok positions
        ∧ layout.readInto? format through data count buffer
          = some (.ok (), positions) := by
  have hlimit : data.size < Size.limit := by
    unfold Size.largest at hdata
    omega
  unfold readPositions readInto?
  dsimp only
  rw [if_neg (Nat.not_lt.2 h), if_neg (Nat.not_lt.2 h)]
  -- without a format no byte is read, and the positions stay what they were
  by_cases hformat : format = .none
  · rw [if_pos hformat, if_pos hformat]
    exact ⟨buffer, rfl, rfl⟩
  · rw [if_neg hformat, if_neg hformat]
    refine ⟨_, rfl, ?_⟩
    -- no read depends on what has been stored, so the invariant of the loop is trivial
    have hread : (List.range count).foldlM (fun buffer i =>
          (layout.position? format through data i).map (buffer.setIfInBounds i))
          buffer
        = some (Buffer.overwrite buffer count
            (layout.positionAt format through data)) := by
      refine foldlM_eq_some_foldl (fun _ => True) ?_ trivial
      intro i hi own _
      have hi := List.mem_range.1 hi
      rw [position?_eq_some hlimit fun j hj =>
        address_add_componentSize_le_size hdata h hi hj]
      exact ⟨rfl, trivial⟩
    rw [hread]
    rfl

/-! ## Reading -/

/-- **No byte out of range.** Whatever the stride, the offset of positions in vertices
and the number of vertices are, what is asked of the data is the exact end of the last
position, up to the largest size. Shorter data is refused, and the buffer stays as it
was. Otherwise reading fails at no check: each byte of each component of each vertex
has an address, and the data has that byte. -/
theorem readPositions_within_data (layout : VertexLayout) (format : PositionFormat)
    (through : Bool) (data : Array UInt8) (count : Nat) (buffer : Array Vec3)
    (hdata : data.size < 2 ^ 63) :
    let needed :=
      if count = 0 then 0
      else
        min ((count - 1) * layout.stride + layout.positionOffset
          + 3 * format.componentSize) (2 ^ 64 - 1)
    layout.requiredBytes format count = needed
      ∧ (data.size < needed →
        layout.readPositions format through data count buffer
            = .error ⟨needed, data.size⟩
          ∧ layout.readInto? format through data count buffer
            = some (.error ⟨needed, data.size⟩, buffer))
      ∧ (needed ≤ data.size →
        (∃ positions,
          layout.readPositions format through data count buffer = .ok positions
            ∧ layout.readInto? format through data count buffer
              = some (.ok (), positions))
          ∧ ∀ i < count, ∀ j < 3, ∀ k < format.componentSize,
            let place := i * layout.stride + layout.positionOffset
              + j * format.componentSize + k
            place < 2 ^ 64 ∧ place < data.size
              ∧ (layout.address? format i j).bind (Size.add? · k) = some place) := by
  intro needed
  have hneeded : layout.requiredBytes format count = needed :=
    layout.requiredBytes_eq_min format count
  have hlargest : data.size < Size.largest := Nat.lt_trans hdata (by decide)
  refine ⟨hneeded, fun hshort => ?_, fun hlong => ⟨?_, ?_⟩⟩
  · unfold readPositions readInto?
    rw [hneeded]
    dsimp only
    rw [if_pos hshort, if_pos hshort]
    exact ⟨rfl, rfl⟩
  · exact readInto?_eq_some through buffer hlargest (hneeded ▸ hlong)
  · intro i hi j hj k hk place
    -- the component ends within the data, so each of its bytes does
    have hend : layout.address format i j + format.componentSize ≤ data.size :=
      address_add_componentSize_le_size hlargest (hneeded ▸ hlong) hi hj
    have hplace : place = layout.address format i j + k := rfl
    have hlimit : (2 : Nat) ^ 64 = Size.limit := rfl
    have hsize : data.size < 2 ^ 64 := Nat.lt_trans hdata (by decide)
    refine ⟨by omega, by omega, ?_⟩
    rw [address?_eq_some (by omega), Option.bind_some]
    exact Size.add?_eq_some_iff.2 ⟨rfl, by omega⟩

/-- Positions that overlap in all bytes but one, after an offset that is larger than
the distance from one vertex to the next. The data ends with the last byte. -/
theorem readPositions_within_data_overlapping :
    let layout : VertexLayout := ⟨1, 5⟩
    let data : Array UInt8 := Array.replicate 13 1
    let buffer : Array Vec3 := Array.replicate 3 .zero
    data.size < 2 ^ 63 ∧ layout.requiredBytes .int16 3 = 13
      ∧ (∃ positions,
        layout.readPositions .int16 false data 3 buffer = .ok positions
          ∧ layout.readInto? .int16 false data 3 buffer
            = some (.ok (), positions))
      ∧ (layout.address? .int16 2 2).bind (Size.add? · 1) = some 12 := by
  intro layout data buffer
  have hdata : data.size < 2 ^ 63 := by decide
  obtain ⟨hneeded, -, hlong⟩ :=
    layout.readPositions_within_data .int16 false data 3 buffer hdata
  obtain ⟨hread, hplace⟩ := hlong (by decide)
  obtain ⟨-, -, hlast⟩ :=
    hplace 2 (by decide) 2 (by decide) 1 (by decide)
  exact ⟨hdata, hneeded, hread, hlast⟩

/-- A stride with which the third vertex would start behind all sizes. -/
example : requiredBytes ⟨2 ^ 63, 0⟩ .float32 3 = 2 ^ 64 - 1 := by decide

end VertexLayout

end DepthPrepass
