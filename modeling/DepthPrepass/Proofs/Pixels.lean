import Mathlib.Data.List.Nodup
import Mathlib.Data.List.Range
import DepthPrepass.Surface.Basic

/-!
# The pixels of a region

A region has its pixels in whole numbers, and it is visited as a list of them,
row by row. The two agree once the region is on a surface: then none of its
corners is negative, and no pixel is lost where a coordinate becomes an index.
Clipping is what puts a region on a surface.

* `Region.Covers`: the pixels of a region, in whole numbers.
* `Surface.covers_clip`: the pixels that clipping leaves.
* `Region.On`, `Region.on_inter_clip`: regions on a surface.
* `Region.mem_pixels`, `Region.nodup_pixels`: a region on a surface is visited
  at each of its pixels once.
-/

namespace DepthPrepass

/-- The pixels of a span, from left to right. -/
def RowSpan.pixels (span : RowSpan) : List (Nat × Nat) :=
  (List.range' span.first span.length).map fun x => (x, span.row)

namespace Region

/-- Whether a region has the pixel with given whole coordinates. -/
def Covers (r : Region) (x y : Int) : Prop :=
  r.left.toInt ≤ x ∧ x < r.right.toInt ∧ r.top.toInt ≤ y ∧ y < r.bottom.toInt

instance (r : Region) (x y : Int) : Decidable (r.Covers x y) :=
  inferInstanceAs (Decidable (_ ∧ _))

/-- The pixels of a region, in the order in which it is visited. -/
def pixels (r : Region) : List (Nat × Nat) :=
  r.rowSpans.flatMap RowSpan.pixels

/-- A region no pixel of which is outside of a surface. -/
structure On (r : Region) (s : Surface) : Prop where
  left_nonneg : 0 ≤ r.left.toInt
  top_nonneg : 0 ≤ r.top.toInt
  right_le : r.right.toInt ≤ s.layout.width
  bottom_le : r.bottom.toInt ≤ s.layout.height

/-! ## Whole coordinates -/

theorem covers_inter {r s : Region} {x y : Int} :
    (r.inter s).Covers x y ↔ r.Covers x y ∧ s.Covers x y := by
  simp only [Covers, inter, Coordinate.toInt_max, Coordinate.toInt_min]
  omega

theorem isEmpty_iff_covers {r : Region} :
    r.isEmpty ↔ ∀ x y, ¬ r.Covers x y := by
  simp only [isEmpty, Bool.or_eq_true, decide_eq_true_eq, Covers, ge_iff_le,
    Int32.le_iff_toInt_le]
  constructor
  · intro h x y
    omega
  · intro h
    have := h r.left.toInt r.top.toInt
    omega

/-- A pixel that a region covers has coordinates that are words. -/
theorem Covers.toInt_ofNat {r : Region} {x y : Nat} (h : r.Covers x y) :
    (Int32.ofNat x).toInt = x ∧ (Int32.ofNat y).toInt = y := by
  obtain ⟨-, hx, -, hy⟩ := h
  have hright := r.right.toInt_lt
  have hbottom := r.bottom.toInt_lt
  exact ⟨Int32.toInt_ofNat_of_lt (by omega), Int32.toInt_ofNat_of_lt (by omega)⟩

/-- The index that becomes of a coordinate. -/
theorem toNatClampNeg_cast {n : Int32} (h : 0 ≤ n.toInt) :
    (n.toNatClampNeg : Int) = n.toInt :=
  Int.toNat_of_nonneg h

/-! ## On a surface -/

/-- An intersection is on the surface if one of the two regions is. -/
theorem On.inter {r : Region} {s : Surface} (h : r.On s) (q : Region) :
    (q.inter r).On s := by
  obtain ⟨hleft, htop, hright, hbottom⟩ := h
  constructor <;>
    simp only [Region.inter, Coordinate.toInt_max, Coordinate.toInt_min] <;>
    omega

theorem on_bounds (s : Surface) : s.bounds.On s :=
  ⟨Int.le_refl 0, Int.le_refl 0,
    (Coordinate.toInt_ofExtent s.layout.width).trans_le (Int.min_le_left ..),
    (Coordinate.toInt_ofExtent s.layout.height).trans_le (Int.min_le_left ..)⟩

theorem on_clip (s : Surface) (scissor : Region) : (s.clip scissor).On s :=
  (on_bounds s).inter scissor

/-- **Clipping**: whatever the region and the scissor, what is left of them is
on the surface. -/
theorem on_inter_clip (r scissor : Region) (s : Surface) :
    (r.inter (s.clip scissor)).On s :=
  (on_clip s scissor).inter r

/-! ## Visits -/

variable {r : Region} {s : Surface}

/-- Only the pixels of a region on a surface are visited, and all of them. -/
theorem mem_pixels (h : r.On s) {x y : Nat} :
    (x, y) ∈ r.pixels ↔ r.Covers x y := by
  have hl := toNatClampNeg_cast h.left_nonneg
  have ht := toNatClampNeg_cast h.top_nonneg
  have hr : (r.right.toNatClampNeg : Int) = max r.right.toInt 0 :=
    Int.toNat_eq_max _
  have hb : (r.bottom.toNatClampNeg : Int) = max r.bottom.toInt 0 :=
    Int.toNat_eq_max _
  simp only [pixels, List.mem_flatMap, RowSpan.pixels, List.mem_map,
    List.mem_range'_1, Prod.mk.injEq, mem_rowSpans, RowSpan.length, Covers]
  constructor
  · rintro ⟨span, ⟨htop, hbottom, hfirst, hlast⟩, x, hx, rfl, rfl⟩
    rw [hfirst, hlast] at hx
    omega
  · intro hc
    refine ⟨⟨y, r.left.toNatClampNeg, r.right.toNatClampNeg⟩,
      ⟨?_, ?_, rfl, rfl⟩, x, ⟨?_, ?_⟩, rfl, rfl⟩
    · show r.top.toNatClampNeg ≤ y
      omega
    · show y < r.bottom.toNatClampNeg
      omega
    · show r.left.toNatClampNeg ≤ x
      omega
    · show x < r.left.toNatClampNeg
        + (r.right.toNatClampNeg - r.left.toNatClampNeg)
      omega

/-- No pixel of a region is visited twice. -/
theorem nodup_pixels (r : Region) : r.pixels.Nodup := by
  have hspan (span : RowSpan) : span.pixels.Nodup :=
    (List.nodup_range' 1).map fun _ _ h => congrArg Prod.fst h
  refine List.nodup_flatMap.2 ⟨fun span _ => hspan span, ?_⟩
  -- different spans of a region are in different rows
  refine List.pairwise_map.2 ((List.nodup_range' 1).imp fun hne => ?_)
  intro p hp hp'
  obtain ⟨_, -, rfl⟩ := List.mem_map.1 hp
  obtain ⟨_, -, h⟩ := List.mem_map.1 hp'
  exact hne (congrArg Prod.snd h).symm

/-- The pixels of a region on a surface have cells. -/
theorem index_lt_size (h : r.On s) {p : Nat × Nat} (hp : p ∈ r.pixels) :
    s.index p.1 p.2 < s.cells.size := by
  obtain ⟨-, hx, -, hy⟩ := (mem_pixels h).1 hp
  have hw := h.right_le
  have hh := h.bottom_le
  exact s.index_lt_size (by omega) (by omega)

/-- They have different cells, so no cell is visited twice. -/
theorem nodup_index_pixels (h : r.On s) :
    (r.pixels.map fun p => s.index p.1 p.2).Nodup := by
  refine List.Nodup.map_on (fun p hp q hq hpq => ?_) (nodup_pixels r)
  obtain ⟨-, hp, -, -⟩ := (mem_pixels h).1 hp
  obtain ⟨-, hq, -, -⟩ := (mem_pixels h).1 hq
  have hw := h.right_le
  obtain ⟨hx, hy⟩ := s.layout.index_inj (by omega) (by omega) hpq
  exact Prod.ext hx hy

theorem length_pixels (r : Region) : r.pixels.length = r.columns * r.rows := by
  simp only [pixels, rowSpans, List.flatMap_map, RowSpan.pixels,
    RowSpan.length, List.length_flatMap, List.length_map, List.length_range',
    List.map_const', List.sum_replicate_nat]
  exact Nat.mul_comm ..

/-- Coordinates are words, so no region has too many pixels for a counter. -/
theorem length_pixels_lt (r : Region) : r.pixels.length < UInt64.size := by
  have hcolumns : r.columns < 2 ^ 31 :=
    Nat.lt_of_le_of_lt (Nat.sub_le ..) r.right.toNatClampNeg_lt
  have hrows : r.rows < 2 ^ 31 :=
    Nat.lt_of_le_of_lt (Nat.sub_le ..) r.bottom.toNatClampNeg_lt
  calc r.pixels.length = r.columns * r.rows := length_pixels r
    _ < 2 ^ 31 * 2 ^ 31 := Nat.mul_lt_mul'' hcolumns hrows
    _ ≤ UInt64.size := by decide

end Region

namespace Surface

/-- The bounds of a surface are a matter of its layout. -/
theorem bounds_congr {s t : Surface} (h : s.layout = t.layout) :
    s.bounds = t.bounds := by
  unfold bounds
  rw [h]

/-- The clipped scissor has the pixels of the surface that are in the
scissor. -/
theorem covers_clip {s : Surface} {scissor : Region} {x y : Int} :
    (s.clip scissor).Covers x y
      ↔ scissor.Covers x y ∧ 0 ≤ x ∧ x < s.layout.width
        ∧ 0 ≤ y ∧ y < s.layout.height := by
  have hw := Coordinate.toInt_ofExtent s.layout.width
  have hh := Coordinate.toInt_ofExtent s.layout.height
  -- an extent beyond the coordinates adds no pixel that a scissor could have
  have hr := scissor.right.toInt_lt
  have hb := scissor.bottom.toInt_lt
  rw [clip, Region.covers_inter]
  unfold Coordinate.largest at hw hh
  simp only [Region.Covers, bounds, Layout.bounds, Int32.toInt_zero]
  omega

/-- The same for coordinates that cannot be negative. -/
theorem covers_clip_natCast {s : Surface} {scissor : Region} {x y : Nat} :
    (s.clip scissor).Covers x y
      ↔ scissor.Covers x y ∧ x < s.layout.width ∧ y < s.layout.height := by
  rw [covers_clip]
  refine and_congr_right fun _ => ?_
  omega

/-- Every pixel of a surface has a depth. -/
theorem exists_get?_eq_some {s : Surface} {x y : Nat} (hx : x < s.layout.width)
    (hy : y < s.layout.height) : ∃ depth, s.get? x y = some depth :=
  ⟨_, (if_pos ⟨hx, hy⟩).trans
    (Array.getElem?_eq_getElem (s.index_lt_size hx hy))⟩

end Surface

end DepthPrepass
