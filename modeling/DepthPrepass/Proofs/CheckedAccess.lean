import DepthPrepass.Proofs.Setup

/-!
# No access out of range

Painting addresses cells row by row: corners become indices, an index becomes a
cell by a product and a sum of sizes, and the cells of a row are a part of the
storage. Here all of it is done once more with every step checked, so that a
negative corner, a size that overflows, a row whose end is before its start, a
cell beyond the storage and a count that goes below zero have no result.

* `Surface.rowCells?`, `Surface.cell?`: checked addresses.
* `Rectangle.paint?`, `Triangle.paint?`: checked painting.
* `Surface.Sized.rowCells?_eq_some`: the spans of a surface have addresses.
* `Surface.InRange`: no check ever fails, so that checked painting is painting.
* `Surface.inRange_unless_wrapped`: this is so on all that can be painted on,
  with one exception: buffers whose number of pixels is not a size.
* `DepthBuffer.wrapped_out_of_range`: what is out of range on such a buffer.
-/

namespace DepthPrepass

/-! ## Checked steps -/

/-- The difference of two sizes, if it is not negative. -/
def Size.sub? (a b : Nat) : Option Nat :=
  if b ≤ a then some (a - b) else none

/-- A coordinate as an index, if it is not negative. -/
def Coordinate.index? (n : Int32) : Option Nat :=
  if 0 ≤ n then some n.toNatClampNeg else none

namespace Region

/-- The spans of a region, if its corners are indices. -/
def rowSpans? (r : Region) : Option (List RowSpan) := do
  let left ← Coordinate.index? r.left
  let top ← Coordinate.index? r.top
  let right ← Coordinate.index? r.right
  let bottom ← Coordinate.index? r.bottom
  return (List.range' top (bottom - top)).map fun y => ⟨y, left, right⟩

/-- The number of pixels of a region, if its corners are indices that are in
order and the number is a size. -/
def size? (r : Region) : Option Nat := do
  let left ← Coordinate.index? r.left
  let top ← Coordinate.index? r.top
  let right ← Coordinate.index? r.right
  let bottom ← Coordinate.index? r.bottom
  let columns ← Size.sub? right left
  let rows ← Size.sub? bottom top
  Size.mul? columns rows

end Region

namespace Surface

/-- The first cell of a row span and the one after its last, if they can be
computed and what is between them is a part of that many cells. -/
def Layout.rowCells? (layout : Layout) (cells : Nat) (span : RowSpan) :
    Option (Nat × Nat) := do
  let start ← Size.mul? span.row layout.stride
  let first ← Size.add? start span.first
  let last ← Size.add? start span.last
  if first ≤ last ∧ last ≤ cells then some (first, last) else none

/-- The cell of a pixel, if it can be computed and is one of that many. -/
def Layout.cell? (layout : Layout) (cells x y : Nat) : Option Nat := do
  let start ← Size.mul? y layout.stride
  let i ← Size.add? start x
  if i < cells then some i else none

/-- The cells of a row span in the storage of a surface. -/
def rowCells? (s : Surface) (span : RowSpan) : Option (Nat × Nat) :=
  s.layout.rowCells? s.cells.size span

/-- The cell of a pixel in the storage of a surface. -/
def cell? (s : Surface) (x y : Nat) : Option Nat :=
  s.layout.cell? s.cells.size x y

end Surface

/-! ## Checked painting -/

namespace Rectangle

/-- Fill a row span with its cells checked. -/
def fillSpan? (mode : LaneMode) (depth : UInt16) (s : Surface)
    (span : RowSpan) : Option Surface := do
  let (first, last) ← s.rowCells? span
  return s.fillCells mode depth first (last - first)

/-- Test the pixels of a row span with its cells checked. -/
def testSpan? (test : DepthTest) (depth : UInt16) (t : Tested)
    (span : RowSpan) : Option Tested := do
  let (first, last) ← t.surface.rowCells? span
  return (List.range' first (last - first)).foldl
    (Tested.visit test depth.toFloat32 depth) t

/-- Fill the row spans of a region and count its pixels as written. -/
def fillArea? (mode : LaneMode) (depth : UInt16) (area : Region)
    (spans : List RowSpan) (s : Surface) : Option Painted := do
  let filled ← spans.foldlM (fillSpan? mode depth) s
  let size ← area.size?
  return ⟨filled, size, .count .rectsFilled 1⟩

/-- Test the row spans of a region. Its pixels are counted as tested, and those
that have not passed as failed. -/
def testArea? (test : DepthTest) (depth : UInt16) (area : Region)
    (spans : List RowSpan) (s : Surface) : Option Painted := do
  let tested ← spans.foldlM (testSpan? test depth) (.start s)
  let size ← area.size?
  let failed ← Size.sub? size tested.passed
  return ⟨tested.surface, tested.passed, .count .rectsFilled 1
    + { pixelsTested := size.toUInt64
        depthPassed := tested.passed.toUInt64
        depthFailed := failed.toUInt64 }⟩

/-- Paint a rectangle with every step checked. -/
def paint? (mode : LaneMode) (policy : RectangleTest) (test : DepthTest)
    (scissor : Region) (r : Rectangle) (s : Surface) : Option Painted :=
  let area := r.area scissor s
  if area.isEmpty then some (.nothing s 0)
  else do
    let spans ← area.rowSpans?
    match test, policy with
    | .never, _ => some (.nothing s 0)
    | .always, _ => fillArea? mode r.depth area spans s
    | _, .skip => some (.nothing s 0)
    | test, .perPixel => testArea? test r.depth area spans s

end Rectangle

namespace Walk

/-- Test a fragment of a row span against a cell of the span, which must be one
of those from `first` up to `last`. -/
def testFragment? (test : DepthTest) (span : RowSpan) (first last : Nat)
    (t : Tested) (f : Fragment) : Option Tested := do
  let column ← Size.sub? f.x span.first
  if first + column < last then
    some (t.visit test f.depth f.depth.toUInt16 (first + column))
  else none

/-- Test the fragments of successive row spans with their cells checked. -/
def testRows? (walk : Walk) (mode : LaneMode) (test : DepthTest) :
    (spans : List RowSpan) → (w : Triple Int32) → Tested → Option Tested
  | [], _, t => some t
  | span :: spans, w, t => do
    let (first, last) ← t.surface.rowCells? span
    let t ← (walk.row mode w span).foldlM (testFragment? test span first last) t
    walk.testRows? mode test spans (w + walk.down) t

end Walk

/-- Paint a triangle with every step checked. -/
def Triangle.paint? (mode : LaneMode) (policy : Policy) (test : DepthTest)
    (scissor : Region) (t : Triangle) (s : Surface) : Option Painted :=
  let submitted := Counters.count .trianglesSubmitted 1
  match t.plan policy test (s.clip scissor) with
  | .error rejection => some (.nothing s (submitted + rejection.work))
  | .ok (test, walk) => do
    let spans ← walk.region.rowSpans?
    let tested ← walk.testRows? mode test spans walk.origin (.start s)
    return tested.painted submitted

/-! ## Steps that do not fail -/

theorem Coordinate.index?_eq_some {n : Int32} (h : 0 ≤ n.toInt) :
    index? n = some n.toNatClampNeg := by
  refine if_pos (Int32.le_iff_toInt_le.2 ?_)
  rw [Int32.toInt_zero]
  exact h

theorem Size.sub?_eq_some {a b : Nat} (h : b ≤ a) :
    sub? a b = some (a - b) :=
  if_pos h

/-- A fold whose steps do not fail, as long as an invariant holds that they
keep, does not fail. -/
theorem foldlM_eq_some_foldl {α σ : Type} {step? : σ → α → Option σ}
    {step : σ → α → σ} (I : σ → Prop) {l : List α}
    (h : ∀ a ∈ l, ∀ s, I s → step? s a = some (step s a) ∧ I (step s a))
    {s : σ} (hs : I s) : l.foldlM step? s = some (l.foldl step s) := by
  induction l generalizing s with
  | nil => rfl
  | cons a l ih =>
    obtain ⟨hstep, hnext⟩ := h a List.mem_cons_self s hs
    rw [List.foldlM_cons, hstep, List.foldl_cons]
    exact ih (fun b hb => h b (List.mem_cons_of_mem a hb)) hnext

/-- A span with pixels, all of them on a surface of the given layout. -/
structure RowSpan.On (span : RowSpan) (layout : Surface.Layout) : Prop where
  row_lt : span.row < layout.height
  first_lt_last : span.first < span.last
  last_le : span.last ≤ layout.width

/-- A surface of the given layout whose storage has a size. -/
structure Surface.Sized (s : Surface) (layout : Surface.Layout) : Prop where
  layout_eq : s.layout = layout
  size_lt : s.cells.size < Size.limit

namespace Region

variable {r : Region} {s : Surface}

/-- The corners of a region on a surface that has pixels, as indices. -/
structure Indexed (r : Region) (s : Surface) : Prop extends r.On s where
  left_lt_right : r.left.toInt < r.right.toInt
  top_lt_bottom : r.top.toInt < r.bottom.toInt

theorem On.indexed (h : r.On s) (hne : r.isEmpty = false) : r.Indexed s := by
  have hne : ¬ (r.isEmpty = true) := Bool.eq_false_iff.1 hne
  simp only [isEmpty, Bool.or_eq_true, decide_eq_true_eq, ge_iff_le,
    Int32.le_iff_toInt_le, not_or, Int.not_le] at hne
  exact ⟨h, hne.1, hne.2⟩

theorem Indexed.rowSpans?_eq_some (h : r.Indexed s) :
    r.rowSpans? = some r.rowSpans := by
  have hl := h.left_nonneg
  have ht := h.top_nonneg
  have hr := h.left_lt_right
  have hb := h.top_lt_bottom
  rw [rowSpans?, Coordinate.index?_eq_some hl, Coordinate.index?_eq_some ht,
    Coordinate.index?_eq_some (by omega), Coordinate.index?_eq_some (by omega)]
  rfl

/-- The corners of a region with pixels are in order as indices too. -/
theorem Indexed.indices (h : r.Indexed s) :
    r.left.toNatClampNeg < r.right.toNatClampNeg
      ∧ r.top.toNatClampNeg < r.bottom.toNatClampNeg
      ∧ r.right.toNatClampNeg ≤ s.layout.width
      ∧ r.bottom.toNatClampNeg ≤ s.layout.height := by
  have hl := h.left_nonneg
  have ht := h.top_nonneg
  have hlr := h.left_lt_right
  have htb := h.top_lt_bottom
  have hw := h.right_le
  have hh := h.bottom_le
  -- no corner is negative, so each index has the value of its coordinate
  have h₁ := toNatClampNeg_cast hl
  have h₂ := toNatClampNeg_cast ht
  have h₃ := toNatClampNeg_cast (n := r.right) (by omega)
  have h₄ := toNatClampNeg_cast (n := r.bottom) (by omega)
  omega

theorem Indexed.on_of_mem_rowSpans (h : r.Indexed s) {span : RowSpan}
    (hspan : span ∈ r.rowSpans) : span.On s.layout := by
  obtain ⟨hlr, -, hw, hh⟩ := h.indices
  obtain ⟨-, hrow, hfirst, hlast⟩ := mem_rowSpans.1 hspan
  constructor
  · omega
  · omega
  · omega

/-- A region on a surface has at most as many pixels as there are cells. -/
theorem Indexed.columns_mul_rows_le (h : r.Indexed s) :
    r.columns * r.rows ≤ s.cells.size := by
  obtain ⟨hlr, htb, hw, hh⟩ := h.indices
  have hcolumns : r.columns ≤ s.layout.width :=
    Nat.le_trans (Nat.sub_le ..) hw
  have hrows : r.rows ≤ s.layout.height := Nat.le_trans (Nat.sub_le ..) hh
  -- the last row has its width, the others have at least theirs
  have hextent : s.layout.height * s.layout.width ≤ s.layout.extent := by
    unfold Surface.Layout.extent
    rw [if_neg (by omega)]
    calc s.layout.height * s.layout.width
        = (s.layout.height - 1) * s.layout.width + s.layout.width := by
          rw [← Nat.succ_mul, Nat.succ_eq_add_one,
            Nat.sub_add_cancel (by omega)]
      _ ≤ (s.layout.height - 1) * s.layout.stride + s.layout.width :=
          Nat.add_le_add_right
            (Nat.mul_le_mul_left _ s.layout.width_le_stride) _
  calc r.columns * r.rows
      ≤ s.layout.width * s.layout.height := Nat.mul_le_mul hcolumns hrows
    _ = s.layout.height * s.layout.width := Nat.mul_comm ..
    _ ≤ s.cells.size := Nat.le_trans hextent s.fits

theorem Indexed.size?_eq_some (h : r.Indexed s)
    (hs : s.cells.size < Size.limit) :
    r.size? = some (r.columns * r.rows) := by
  have hl := h.left_nonneg
  have ht := h.top_nonneg
  have hr := h.left_lt_right
  have hb := h.top_lt_bottom
  obtain ⟨hlr, htb, -, -⟩ := h.indices
  have hle := h.columns_mul_rows_le
  -- the product counts cells of the storage, whose size is a size
  have hmul : Size.mul? r.columns r.rows = some (r.columns * r.rows) :=
    Size.mul?_eq_some_iff.2 ⟨rfl, by omega⟩
  rw [size?, Coordinate.index?_eq_some hl, Coordinate.index?_eq_some ht,
    Coordinate.index?_eq_some (by omega), Coordinate.index?_eq_some (by omega)]
  show (Size.sub? _ _).bind (fun columns =>
    (Size.sub? _ _).bind fun rows => Size.mul? columns rows) = _
  rw [Size.sub?_eq_some (by omega), Size.sub?_eq_some (by omega)]
  exact hmul

end Region

namespace Surface

variable {s : Surface} {layout : Layout}

/-- The cells of a span on a surface can be computed, and the storage has
them. -/
theorem Sized.rowCells?_eq_some (h : s.Sized layout) {span : RowSpan}
    (hspan : span.On layout) :
    s.rowCells? span = some (s.index span.first span.row,
      s.index span.first span.row + span.length) := by
  obtain ⟨rfl, hs⟩ := h
  have hrow := hspan.row_lt
  have hlt := hspan.first_lt_last
  have hle := hspan.last_le
  -- the last pixel has a cell, so what is computed on the way to it is a size
  have hlast := s.index_lt_size (x := span.last - 1) (by omega) hrow
  unfold index Layout.index at hlast ⊢
  have hstart : Size.mul? span.row s.layout.stride
      = some (span.row * s.layout.stride) :=
    Size.mul?_eq_some_iff.2 ⟨rfl, by omega⟩
  have hfirst : Size.add? (span.row * s.layout.stride) span.first
      = some (span.row * s.layout.stride + span.first) :=
    Size.add?_eq_some_iff.2 ⟨rfl, by omega⟩
  have hend : Size.add? (span.row * s.layout.stride) span.last
      = some (span.row * s.layout.stride + span.first + span.length) := by
    unfold RowSpan.length
    exact Size.add?_eq_some_iff.2 ⟨by omega, by omega⟩
  have hrange : span.row * s.layout.stride + span.first
        ≤ span.row * s.layout.stride + span.first + span.length
      ∧ span.row * s.layout.stride + span.first + span.length
        ≤ s.cells.size := by
    unfold RowSpan.length
    omega
  unfold rowCells? Layout.rowCells?
  rw [hstart]
  show (Size.add? _ _).bind (fun first => (Size.add? _ _).bind _) = _
  rw [hfirst, hend]
  exact if_pos hrange

/-- A pixel has a cell exactly if its index is a size and one of the cells. -/
theorem Layout.cell?_eq_some_iff {cells x y i : Nat} :
    layout.cell? cells x y = some i
      ↔ layout.index x y = i ∧ i < cells ∧ i < Size.limit := by
  simp only [Layout.cell?, Layout.index, Option.bind_eq_bind,
    Option.bind_eq_some_iff, Size.mul?_eq_some_iff, Size.add?_eq_some_iff,
    Option.ite_none_right_eq_some, Option.some.injEq]
  constructor
  · rintro ⟨_, ⟨rfl, -⟩, _, ⟨rfl, hlt⟩, hcell, rfl⟩
    exact ⟨rfl, hcell, hlt⟩
  · rintro ⟨rfl, hcell, hlt⟩
    -- the start of the row comes before the pixel
    exact ⟨_, ⟨rfl, by omega⟩, _, ⟨rfl, hlt⟩, hcell, rfl⟩

theorem cell?_eq_index (hs : s.cells.size < Size.limit) {x y : Nat}
    (hx : x < s.layout.width) (hy : y < s.layout.height) :
    s.cell? x y = some (s.index x y) := by
  have hlt := s.index_lt_size hx hy
  exact Layout.cell?_eq_some_iff.2 ⟨rfl, hlt, Nat.lt_trans hlt hs⟩

/-- Looking at a pixel fails at no check. -/
theorem get?_eq_some_cell? (hs : s.cells.size < Size.limit) {x y : Nat}
    (hx : x < s.layout.width) (hy : y < s.layout.height) :
    ∃ i, s.cell? x y = some i ∧ ∃ h : i < s.cells.size,
      s.get? x y = some s.cells[i] := by
  refine ⟨s.index x y, cell?_eq_index hs hx hy, s.index_lt_size hx hy, ?_⟩
  unfold get?
  rw [if_pos ⟨hx, hy⟩]
  exact Array.getElem?_eq_getElem _

theorem Sized.fillSpan (h : s.Sized layout) (mode : LaneMode)
    (value : UInt16) (span : RowSpan) :
    (s.fillSpan mode value span).Sized layout :=
  ⟨h.layout_eq, (RowFill.size_fill ..).trans_lt h.size_lt⟩

theorem Sized.visit {t : Tested} (h : t.surface.Sized layout)
    (test : DepthTest) (candidate : Float32) (value : UInt16) (i : Nat) :
    (t.visit test candidate value i).surface.Sized layout := by
  constructor
  · rw [Tested.layout_visit]
    exact h.layout_eq
  · rw [Tested.size_cells_visit]
    exact h.size_lt

end Surface

/-! ## Rectangles -/

namespace Rectangle

variable {layout : Surface.Layout} {span : RowSpan}

theorem fillSpan?_eq_some {s : Surface} (hs : s.Sized layout)
    (hspan : span.On layout) (mode : LaneMode) (depth : UInt16) :
    fillSpan? mode depth s span = some (s.fillSpan mode depth span) := by
  unfold fillSpan?
  rw [hs.rowCells?_eq_some hspan]
  show some (s.fillCells mode depth _ _) = _
  rw [Nat.add_sub_cancel_left]
  rfl

theorem testSpan?_eq_some {t : Tested} (ht : t.surface.Sized layout)
    (hspan : span.On layout) (test : DepthTest) (depth : UInt16) :
    testSpan? test depth t span = some (testSpan test depth t span) := by
  unfold testSpan?
  rw [ht.rowCells?_eq_some hspan]
  show some ((List.range' _ _).foldl _ t) = _
  rw [Nat.add_sub_cancel_left]
  rfl

/-- The tests of a row span keep the layout and the number of cells. -/
theorem sized_testSpan {t : Tested} (ht : t.surface.Sized layout)
    (test : DepthTest) (depth : UInt16) (span : RowSpan) :
    (testSpan test depth t span).surface.Sized layout :=
  List.foldlRecOn (motive := fun t : Tested => t.surface.Sized layout) _ _ ht
    fun _ ht i _ => ht.visit test depth.toFloat32 depth i

variable {area : Region} {s : Surface}

/-- Each pixel of a region is tested once, and its test passes or fails. -/
theorem counts_testRows (h : area.On s) (test : DepthTest) (depth : UInt16) :
    (testRows test depth area.rowSpans s).tested = area.columns * area.rows
      ∧ (testRows test depth area.rowSpans s).passed
          + (testRows test depth area.rowSpans s).failed
        = area.columns * area.rows := by
  have htested : (testRows test depth area.rowSpans s).tested
      = area.columns * area.rows := by
    rw [testRows_eq_visits, Tested.tested_visits, List.length_map,
      ← Region.length_pixels]
    · exact Nat.zero_add _
    · intro v hv
      obtain ⟨p, hp, rfl⟩ := List.mem_map.1 hv
      exact Region.index_lt_size h hp
  -- passed and failed tests add up at any time, whatever has been tested
  have hbalanced : (testRows test depth area.rowSpans s).Balanced := by
    rw [testRows_eq_visits]
    exact (Tested.balanced_start s).visits _
  exact ⟨htested, hbalanced.trans htested⟩

theorem fillArea?_eq_some (h : area.Indexed s)
    (hs : s.cells.size < Size.limit) (mode : LaneMode) (depth : UInt16) :
    fillArea? mode depth area area.rowSpans s
      = some ⟨fillRows mode depth area.rowSpans s, area.columns * area.rows,
          .count .rectsFilled 1⟩ := by
  have hfill : area.rowSpans.foldlM (fillSpan? mode depth) s
      = some (fillRows mode depth area.rowSpans s) := by
    refine foldlM_eq_some_foldl (fun own => own.Sized s.layout) ?_ ⟨rfl, hs⟩
    intro span hspan own hown
    exact ⟨fillSpan?_eq_some hown (h.on_of_mem_rowSpans hspan) mode depth,
      hown.fillSpan mode depth span⟩
  unfold fillArea?
  rw [hfill, h.size?_eq_some hs]
  rfl

theorem testArea?_eq_some (h : area.Indexed s)
    (hs : s.cells.size < Size.limit) (test : DepthTest) (depth : UInt16) :
    testArea? test depth area area.rowSpans s
      = some ((testRows test depth area.rowSpans s).painted
          (.count .rectsFilled 1)) := by
  have htest : area.rowSpans.foldlM (testSpan? test depth) (Tested.start s)
      = some (testRows test depth area.rowSpans s) := by
    refine foldlM_eq_some_foldl (fun own => own.surface.Sized s.layout) ?_
      ⟨rfl, hs⟩
    intro span hspan own hown
    exact ⟨testSpan?_eq_some hown (h.on_of_mem_rowSpans hspan) test depth,
      sized_testSpan hown test depth span⟩
  obtain ⟨htested, hcounts⟩ := counts_testRows h.toOn test depth
  unfold testArea?
  rw [htest, h.size?_eq_some hs]
  generalize testRows test depth area.rowSpans s = tested at htested hcounts ⊢
  -- what has not passed has failed, so the difference is a count
  have hfailed : Size.sub? (area.columns * area.rows) tested.passed
      = some tested.failed := by
    rw [Size.sub?_eq_some (by omega), ← hcounts, Nat.add_sub_cancel_left]
  show Option.bind (Size.sub? (area.columns * area.rows) tested.passed) _ = _
  rw [hfailed, ← htested]
  rfl

/-- Painting a rectangle fails at no check. -/
theorem paint?_eq_some (hs : s.cells.size < Size.limit) (mode : LaneMode)
    (policy : RectangleTest) (test : DepthTest) (scissor : Region)
    (r : Rectangle) :
    r.paint? mode policy test scissor s
      = some (r.paint mode policy test scissor s) := by
  unfold paint? paint
  dsimp only
  split
  · rfl
  · next hne =>
    -- clipped to the surface and not empty, the area has indices as corners
    have hon : (r.area scissor s).On s := Region.on_inter_clip ..
    have h := hon.indexed (Bool.eq_false_iff.2 hne)
    rw [h.rowSpans?_eq_some, Option.bind_eq_bind, Option.bind_some]
    cases test with
    | never => rfl
    | always => exact fillArea?_eq_some h hs mode r.depth
    | _ =>
      cases policy with
      | skip => rfl
      | perPixel => exact testArea?_eq_some h hs _ r.depth

end Rectangle

/-! ## Triangles -/

namespace Walk

variable {walk : Walk} {mode : LaneMode} {test : DepthTest}
  {layout : Surface.Layout} {span : RowSpan} {f : Fragment} {t : Tested}

/-- The fragments of a row span are at its pixels. -/
theorem mem_row {u v : Int32}
    (hf : f ∈ walk.row mode (walk.valuesAt u v) span) :
    f.y = span.row ∧ span.first ≤ f.x ∧ f.x < span.first + span.length := by
  rw [row_eq_stops, rowStops_valuesAt, scalarStops_valuesAt] at hf
  obtain ⟨stop, hstop, hf⟩ := List.mem_filterMap.1 hf
  obtain ⟨k, hk, rfl⟩ := List.mem_map.1 hstop
  have hk := List.mem_range.1 hk
  unfold fragmentAtStop? fragmentOf? at hf
  split at hf
  · cases hf
    refine ⟨rfl, Nat.le_add_right .., ?_⟩
    exact Nat.add_lt_add_left hk _
  · cases hf

/-- A fragment at a pixel of a row span has its cell in the span's part of the
storage. -/
theorem testFragment?_eq_some (hy : f.y = span.row)
    (hfirst : span.first ≤ f.x) (hlast : f.x < span.first + span.length)
    (ht : t.surface.layout = layout) :
    testFragment? test span (layout.index span.first span.row)
        (layout.index span.first span.row + span.length) t f
      = some (t.fragment test f) := by
  subst ht
  have hcell : t.surface.layout.index span.first span.row
      + (f.x - span.first) = t.surface.index f.x f.y := by
    unfold Surface.index Surface.Layout.index
    rw [hy]
    omega
  unfold testFragment?
  rw [Size.sub?_eq_some hfirst, Option.bind_eq_bind, Option.bind_some, hcell,
    if_pos (by omega)]
  rfl

theorem sized_fragments (fs : List Fragment)
    (ht : t.surface.Sized layout) :
    (fs.foldl (Tested.fragment test) t).surface.Sized layout :=
  List.foldlRecOn (motive := fun t : Tested => t.surface.Sized layout) _ _ ht
    fun _ ht f _ => ht.visit test f.depth f.depth.toUInt16 _

/-- Testing row by row, with the cells of each row checked, is testing all
fragments. -/
theorem testRows?_eq_some {spans : List RowSpan} {u v : Int32}
    (hspans : ∀ span ∈ spans, span.On layout) (ht : t.surface.Sized layout) :
    walk.testRows? mode test spans (walk.valuesAt u v) t
      = some ((walk.rows mode spans (walk.valuesAt u v)).foldl
          (Tested.fragment test) t) := by
  -- the tests of a row keep the layout, and with it the next addresses
  induction spans generalizing v t with
  | nil => rfl
  | cons span spans ih =>
    have hrow : (walk.row mode (walk.valuesAt u v) span).foldlM
          (testFragment? test span (layout.index span.first span.row)
            (layout.index span.first span.row + span.length)) t
        = some ((walk.row mode (walk.valuesAt u v) span).foldl
            (Tested.fragment test) t) := by
      refine foldlM_eq_some_foldl (fun t => t.surface.Sized layout) ?_ ht
      intro f hf own hown
      obtain ⟨hy, hfirst, hlast⟩ := mem_row hf
      exact ⟨testFragment?_eq_some hy hfirst hlast hown.layout_eq,
        hown.visit test f.depth f.depth.toUInt16 _⟩
    have hcells := ht.rowCells?_eq_some (hspans span List.mem_cons_self)
    rw [Surface.index, ht.layout_eq] at hcells
    rw [testRows?, hcells, Option.bind_eq_bind, Option.bind_some]
    dsimp only
    rw [hrow, Option.bind_eq_bind, Option.bind_some, ← valuesAt_nextRow,
      ih (fun span h => hspans span (List.mem_cons_of_mem _ h))
        (sized_fragments _ ht), rows, List.foldl_append, valuesAt_nextRow]

end Walk

/-- Painting a triangle fails at no check. -/
theorem Triangle.paint?_eq_some {s : Surface}
    (hs : s.cells.size < Size.limit) (mode : LaneMode) (policy : Policy)
    (test : DepthTest) (scissor : Region) (t : Triangle) :
    t.paint? mode policy test scissor s
      = some (t.paint mode policy test scissor s) := by
  cases hplan : t.plan policy test (s.clip scissor) with
  | error rejection => simp only [paint?, paint, hplan]
  | ok planned =>
    obtain ⟨test', walk⟩ := planned
    -- the box of a walked triangle has pixels, all of them on the surface
    obtain ⟨-, hne, -, hwalk⟩ := plan_eq_ok_iff.1 hplan
    have h : walk.region.Indexed s := by
      subst hwalk
      exact (on_of_plan_eq_ok hplan).indexed hne
    have hrows : walk.testRows? mode test' walk.region.rowSpans walk.origin
          (.start s)
        = some ((walk.rows mode walk.region.rowSpans walk.origin).foldl
            (Tested.fragment test') (.start s)) :=
      Walk.testRows?_eq_some (fun _ => h.on_of_mem_rowSpans) ⟨rfl, hs⟩
    simp only [paint?, paint, hplan]
    rw [h.rowSpans?_eq_some, Option.bind_eq_bind, Option.bind_some, hrows]
    rfl

/-! ## All painting -/

/-- Nothing that is done to a surface is out of range: whatever the corners, the
scissor, the test, the policy and the lane mode, checked painting is painting,
and each pixel has a cell that can be looked at. -/
structure Surface.InRange (s : Surface) : Prop where
  rectangle : ∀ mode policy test scissor (r : Rectangle),
    r.paint? mode policy test scissor s
      = some (r.paint mode policy test scissor s)
  triangle : ∀ mode policy test scissor (t : Triangle),
    t.paint? mode policy test scissor s
      = some (t.paint mode policy test scissor s)
  get : ∀ x y, x < s.layout.width → y < s.layout.height →
    ∃ i, s.cell? x y = some i ∧ ∃ h : i < s.cells.size,
      s.get? x y = some s.cells[i]

/-- It is enough that the cells can be counted. -/
theorem Surface.inRange_of_size_lt {s : Surface}
    (hs : s.cells.size < Size.limit) : s.InRange where
  rectangle mode policy test scissor r :=
    r.paint?_eq_some hs mode policy test scissor
  triangle mode policy test scissor t :=
    t.paint?_eq_some hs mode policy test scissor
  get _ _ hx hy := get?_eq_some_cell? hs hx hy

/-- A buffer that is no surface has a pixel without a cell. -/
theorem DepthBuffer.exists_cell?_eq_none {buffer : DepthBuffer}
    (h : ¬ buffer.layout.extent ≤ buffer.cells.size) :
    ∃ x < buffer.width, ∃ y < buffer.height,
      buffer.layout.cell? buffer.cells.size x y = none := by
  rw [Surface.Layout.extent_le_iff] at h
  push Not at h
  obtain ⟨x, hx, y, hy, hle⟩ := h
  refine ⟨x, hx, y, hy, Option.eq_none_iff_forall_ne_some.2 fun i hi => ?_⟩
  obtain ⟨rfl, hlt, -⟩ := Surface.Layout.cell?_eq_some_iff.1 hi
  exact absurd hlt (Nat.not_lt.2 hle)

/-- **No access out of range**: storage that is accepted, storage cut into whole
rows and a buffer whose number of pixels is a size are surfaces to which nothing
is done out of range. A buffer with more pixels is none: it has a pixel that has
no cell. -/
theorem Surface.inRange_unless_wrapped (cells : Array UInt16)
    (hcells : cells.size < Size.limit) (stride width height : Nat)
    (buffer : DepthBuffer) :
    (∀ s, ofCells? cells stride width height = .ok s → s.InRange)
      ∧ (ofRows cells stride).InRange
      ∧ (buffer.width * buffer.height < Size.limit →
          ∃ s, buffer.surface? = some s ∧ s.InRange)
      ∧ (Size.limit ≤ buffer.width * buffer.height →
          buffer.surface? = none
            ∧ ∃ x < buffer.width, ∃ y < buffer.height,
              buffer.layout.cell? buffer.cells.size x y = none) := by
  refine ⟨?_, inRange_of_size_lt hcells, ?_, ?_⟩
  · intro s hs
    refine inRange_of_size_lt ?_
    rw [cells_of_ofCells? hs]
    exact hcells
  · intro h
    -- a product that may wrap is a size in any case
    have hsize : buffer.cells.size < Size.limit := by
      rw [buffer.size_cells]
      exact Nat.mod_lt _ (by decide)
    exact ⟨⟨buffer.layout, buffer.cells, DepthBuffer.extent_le_iff.2 h⟩,
      dif_pos _, inRange_of_size_lt hsize⟩
  · intro h
    refine ⟨DepthBuffer.surface?_eq_none_iff.2 h, ?_⟩
    exact DepthBuffer.exists_cell?_eq_none
      (mt DepthBuffer.extent_le_iff.1 (Nat.not_lt.2 h))

/-- Storage that ends with the last pixel of three rows, the same storage cut
into rows, the last of which is not whole, and a buffer as wide as there are
sizes. -/
theorem Surface.inRange_unless_wrapped_cut :
    let cells : Array UInt16 := Array.replicate 11 7
    cells.size < Size.limit
      ∧ (∃ s, ofCells? cells 4 3 3 = .ok s ∧ s.InRange)
      ∧ (ofRows cells 4).InRange
      ∧ ∃ s, (DepthBuffer.blank (2 ^ 64 - 1) 1).surface? = some s
          ∧ s.InRange := by
  intro cells
  have hcells : cells.size < Size.limit := by decide
  obtain ⟨hslice, hrows, hbuffer, -⟩ := inRange_unless_wrapped cells hcells 4 3 3
    (DepthBuffer.blank (2 ^ 64 - 1) 1)
  have hbuffer := hbuffer (by decide)
  exact ⟨hcells, ⟨_, rfl, hslice _ rfl⟩, hrows, hbuffer⟩

/-- **A buffer that wraps** has no cells at all, and yet its extents let the
first four pixels of a row through the scissor. The row that is to be filled is
not in the storage, and neither is the cell of a pixel that is to be looked
at. -/
theorem DepthBuffer.wrapped_out_of_range :
    let buffer := DepthBuffer.blank (2 ^ 32) (2 ^ 32)
    let fill : Rectangle := ⟨0, 0, 4, 1, 5⟩
    let clip := Region.inter ⟨0, 0, 8, 8⟩ buffer.layout.bounds
    let area := fill.region.inter clip
    buffer.cells.size = 0 ∧ buffer.surface? = none
      ∧ area.isEmpty = false ∧ area.rowSpans? = some [⟨0, 0, 4⟩]
      ∧ buffer.layout.rowCells? buffer.cells.size ⟨0, 0, 4⟩ = none
      ∧ 3 < buffer.width ∧ 0 < buffer.height
      ∧ buffer.layout.cell? buffer.cells.size 3 0 = none := by
  intro buffer fill clip area
  have hsize : buffer.cells.size = 0 := by
    rw [buffer.size_cells]
    decide
  have hsurface : buffer.surface? = none :=
    DepthBuffer.surface?_eq_none_iff.2 (by decide)
  refine ⟨hsize, hsurface, ?_⟩
  rw [hsize]
  decide

end DepthPrepass
