import DepthPrepass.Region
import DepthPrepass.Surface.Layout

/-!
# Depth surfaces

A surface is a run of 16-bit depth cells with a layout that fits it. Cells
outside the layout (padding between rows, cells after the last pixel) belong
to the storage and not to the picture. Storage of a given layout is accepted
only if it holds the whole extent; storage cut into whole rows always does. A
buffer that is made for the purpose does unless it has so many pixels that
their number wraps: then it allocates fewer cells, and nothing tells.

* `ofCells?`, `ofRows`, `DepthBuffer.surface?`: the three ways to get a surface.
* `DepthBuffer.surface?_eq_none_iff`: which buffers are no surfaces.
* `get?`: the depth at a pixel.
* `bounds`, `clip`: the surface as a region of signed coordinates, and the
  part of a region that is on it.
* `set`: the one way to change a cell. What it does is said by
  `layout_set` and `getElem?_cells_set`.
-/

namespace DepthPrepass

/-- Depth cells with a layout that fits them. -/
structure Surface where
  layout : Surface.Layout
  cells : Array UInt16
  fits : layout.extent ≤ cells.size

namespace Surface

/-- Why storage is not a surface. -/
inductive Error where
  | widthExceedsStride (width stride : Nat)
  | tooSmall (cells width height stride needed : Nat)
deriving DecidableEq, Repr

/-- The text of an error. -/
def Error.message : Error → String
  | widthExceedsStride width stride =>
    s!"target width {width} exceeds stride {stride}"
  | tooSmall cells width height stride needed =>
    s!"depth slice holds {cells} cells, {width}x{height} at stride {stride} "
      ++ s!"needs {needed}"

/-- The depth of a pixel that nothing has been drawn on. -/
def farthest : UInt16 := 65535

/-- Storage read by a given layout. A width beyond the stride is reported
before storage that is too short. An extent that is no size is more than any
storage holds. -/
def ofCells? (cells : Array UInt16) (stride width height : Nat) :
    Except Error Surface :=
  if hw : width ≤ stride then
    let layout : Layout := ⟨stride, width, height, hw⟩
    match h : layout.extent? with
    | some needed =>
      if hn : needed ≤ cells.size then
        .ok ⟨layout, cells, Layout.extent?_eq_some h ▸ hn⟩
      else
        .error (.tooSmall cells.size width height stride needed)
    | none =>
      .error (.tooSmall cells.size width height stride Size.largest)
  else
    .error (.widthExceedsStride width stride)

theorem cells_of_ofCells? {cells : Array UInt16} {stride width height : Nat}
    {s : Surface} (h : ofCells? cells stride width height = .ok s) :
    s.cells = cells := by
  unfold ofCells? at h
  split at h
  · dsimp only at h
    split at h
    · split at h
      · cases h
        rfl
      · cases h
    · cases h
  · cases h

/-- Storage read as whole rows of `stride` cells. What is left after the last
whole row is ignored. -/
def ofRows (cells : Array UInt16) (stride : Nat) : Surface :=
  { layout := ⟨stride, stride, cells.size / stride, Nat.le_refl _⟩
    cells
    fits := by
      unfold Layout.extent
      split
      · omega
      · next h =>
        have hpos : 0 < cells.size / stride :=
          Nat.pos_of_ne_zero fun hz => h (.inl hz)
        rw [← Nat.succ_mul, Nat.succ_eq_add_one, Nat.sub_add_cancel hpos]
        exact Nat.div_mul_le_self cells.size stride }

/-- The cell of the pixel `(x, y)`. -/
def index (s : Surface) (x y : Nat) : Nat :=
  s.layout.index x y

/-- The depth at `(x, y)`, if that is a pixel of the surface. -/
def get? (s : Surface) (x y : Nat) : Option UInt16 :=
  if x < s.layout.width ∧ y < s.layout.height then s.cells[s.index x y]?
  else none

/-- All pixels of a layout as a region. -/
def Layout.bounds (layout : Layout) : Region :=
  { left := 0
    top := 0
    right := Coordinate.ofExtent layout.width
    bottom := Coordinate.ofExtent layout.height }

/-- The whole surface as a region. -/
def bounds (s : Surface) : Region :=
  s.layout.bounds

/-- The part of a region that is on the surface. -/
def clip (s : Surface) (r : Region) : Region :=
  r.inter s.bounds

/-- Replace the content of one cell. -/
def set (s : Surface) (i : Nat) (value : UInt16) : Surface :=
  { layout := s.layout
    cells := s.cells.setIfInBounds i value
    fits := by rw [Array.size_setIfInBounds]; exact s.fits }

theorem ext_cells {s t : Surface} (hl : s.layout = t.layout)
    (hc : s.cells = t.cells) : s = t := by
  cases s; cases t; simp_all

theorem index_lt_size (s : Surface) {x y : Nat} (hx : x < s.layout.width)
    (hy : y < s.layout.height) : s.index x y < s.cells.size :=
  Nat.lt_of_lt_of_le (s.layout.index_lt_extent hx hy) s.fits

@[simp] theorem layout_set (s : Surface) (i : Nat) (value : UInt16) :
    (s.set i value).layout = s.layout := rfl

@[simp] theorem size_cells_set (s : Surface) (i : Nat) (value : UInt16) :
    (s.set i value).cells.size = s.cells.size :=
  Array.size_setIfInBounds

theorem getElem?_cells_set (s : Surface) (i j : Nat) (value : UInt16) :
    (s.set i value).cells[j]?
      = if i = j then if i < s.cells.size then some value else none
        else s.cells[j]? :=
  Array.getElem?_setIfInBounds

end Surface

/-! ## Buffers -/

/-- Cells that are made for a picture of given extents, row after row and
without padding. Their number is the product of the extents with no check. -/
structure DepthBuffer where
  width : Nat
  height : Nat
  cells : Array UInt16
  size_cells : cells.size = Size.mul width height

namespace DepthBuffer

/-- A buffer on which nothing has been drawn. -/
def blank (width height : Nat) : DepthBuffer :=
  { width
    height
    cells := Array.replicate (Size.mul width height) Surface.farthest
    size_cells := Array.size_replicate }

/-- How the pixels are laid out, whether or not there are as many cells. -/
def layout (buffer : DepthBuffer) : Surface.Layout :=
  ⟨buffer.width, buffer.width, buffer.height, Nat.le_refl _⟩

/-- The buffer as a surface, if it has its cells. It is handed out for painting
in any case: nobody compares its extents with the cells. -/
def surface? (buffer : DepthBuffer) : Option Surface :=
  if fits : buffer.layout.extent ≤ buffer.cells.size then
    some ⟨buffer.layout, buffer.cells, fits⟩
  else none

/-- Without padding the extent is the number of pixels. -/
theorem extent_layout (buffer : DepthBuffer) :
    buffer.layout.extent = buffer.width * buffer.height := by
  unfold layout Surface.Layout.extent
  dsimp only
  split
  · next h =>
    rcases h with h | h
    · rw [h, Nat.mul_zero]
    · rw [h, Nat.zero_mul]
  · next h =>
    -- the rows before the last one and the last one
    rw [← Nat.succ_mul, Nat.succ_eq_add_one, Nat.sub_add_cancel (by omega),
      Nat.mul_comm]

/-- A product that wraps is less than the exact one, so only a buffer whose
product does not wrap has its cells. -/
theorem extent_le_iff {buffer : DepthBuffer} :
    buffer.layout.extent ≤ buffer.cells.size
      ↔ buffer.width * buffer.height < Size.limit := by
  rw [extent_layout, buffer.size_cells]
  constructor
  · intro h
    exact Nat.lt_of_le_of_lt h (Nat.mod_lt _ (by decide))
  · intro h
    exact Nat.le_of_eq (Size.mul_eq_iff.2 h).symm

/-- **Buffers** are surfaces exactly if the number of their pixels is a
size. -/
theorem surface?_eq_none_iff {buffer : DepthBuffer} :
    buffer.surface? = none ↔ Size.limit ≤ buffer.width * buffer.height := by
  rw [← Nat.not_lt, ← extent_le_iff]
  constructor
  · intro h hfits
    rw [surface?, dif_pos hfits] at h
    cases h
  · exact fun h => dif_neg h

end DepthBuffer

/-- A surface without padding on which nothing has been drawn: a new buffer of
no more pixels than can be counted. -/
def Surface.blank (width height : Nat)
    (h : width * height < Size.limit := by decide) : Surface :=
  { layout := (DepthBuffer.blank width height).layout
    cells := (DepthBuffer.blank width height).cells
    fits := DepthBuffer.extent_le_iff.2 h }

end DepthPrepass
