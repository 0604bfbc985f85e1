import Mathlib.Algebra.GroupWithZero.Nat
import DepthPrepass.Proofs.CheckedAccess
import DepthPrepass.Proofs.DrawOutcome

/-!
# Storage that holds its pixels

Whether storage is accepted for a layout is decided by one number, the end of the last
pixel, in checked arithmetic. What is meant is a statement about all pixels: no row is
longer than the distance between rows, and each pixel has its cell in the storage. The
two are the same, also where that end is too large for a size, and where there are no
pixels and so no last one.

* `Surface.ofCells?_cases`: what becomes of storage, in whole numbers.
* `Surface.Addressable`: each pixel has a cell of its own, and its address can be
  computed.
* `Surface.ofCells?_accepts_exactly`: what is accepted, what is not and for which
  reason.
-/

namespace DepthPrepass.Surface

/-! ## The extent of a layout -/

namespace Layout

variable {layout : Layout} {n : Nat}

/-- Where there is anything to hold, the last pixel is the one with the greatest
coordinates. -/
theorem extent_eq_of_pos (h : 0 < layout.extent) :
    layout.extent = (layout.height - 1) * layout.stride + layout.width := by
  unfold extent at h ⊢
  split at h
  · exact absurd h (Nat.lt_irrefl 0)
  · next hpixels => rw [if_neg hpixels]

theorem extent?_eq_some_iff :
    layout.extent? = some n ↔ layout.extent = n ∧ n < Size.limit := by
  unfold extent? extent
  split
  · have hzero : 0 < Size.limit := by decide
    constructor
    · rintro ⟨⟩
      exact ⟨rfl, hzero⟩
    · rintro ⟨rfl, -⟩
      rfl
  · exact Size.strided?_eq_some_iff

/-- The extent that is shown is the exact one, up to the largest size. -/
theorem orLargest_extent? (layout : Layout) :
    Size.orLargest layout.extent? = min layout.extent Size.largest :=
  Size.orLargest_eq_min fun _ => extent?_eq_some_iff

end Layout

/-! ## Accepting storage -/

/-- **Storage** is refused because rows are too long, or else because it is too short,
and otherwise it is taken as it is. -/
theorem ofCells?_cases (cells : Array UInt16) (stride width height : Nat)
    (hcells : cells.size < Size.largest) :
    (stride < width
        ∧ ofCells? cells stride width height
          = .error (.widthExceedsStride width stride))
      ∨ ∃ hw : width ≤ stride,
        let layout : Layout := ⟨stride, width, height, hw⟩
        (cells.size < layout.extent
            ∧ ofCells? cells stride width height
              = .error (.tooSmall cells.size width height stride
                  (min layout.extent Size.largest)))
          ∨ ∃ hfits : layout.extent ≤ cells.size,
            ofCells? cells stride width height = .ok ⟨layout, cells, hfits⟩ := by
  unfold ofCells?
  by_cases hw : width ≤ stride
  · rw [dif_pos hw]
    refine .inr ⟨hw, ?_⟩
    intro layout
    have hshown := layout.orLargest_extent?
    dsimp only
    split
    · next needed hneeded =>
      have hneeded : layout.extent? = some needed := hneeded
      obtain rfl := Layout.extent?_eq_some hneeded
      rw [hneeded] at hshown
      by_cases hfits : layout.extent ≤ cells.size
      · exact .inr ⟨hfits, dif_pos hfits⟩
      · refine .inl ⟨Nat.not_le.1 hfits, ?_⟩
        rw [dif_neg hfits, ← hshown]
        rfl
    · next hnone =>
      -- an extent that is no size is not less than the largest size
      have hnone : layout.extent? = none := hnone
      have hlargest : Size.largest = min layout.extent Size.largest := by
        rw [← hshown, hnone]
        rfl
      rw [← hlargest]
      exact .inl ⟨by omega, rfl⟩
  · rw [dif_neg hw]
    exact .inl ⟨Nat.not_le.1 hw, rfl⟩

/-! ## Addressing pixels -/

/-- Each pixel has a cell of its own, and its address can be computed in sizes. -/
structure Addressable (s : Surface) : Prop where
  index_lt : ∀ x < s.layout.width, ∀ y < s.layout.height,
    y * s.layout.stride + x < 2 ^ 64 ∧ y * s.layout.stride + x < s.cells.size
  cell?_eq : ∀ x < s.layout.width, ∀ y < s.layout.height,
    s.cell? x y = some (y * s.layout.stride + x)
  index_inj : ∀ x < s.layout.width, ∀ y < s.layout.height,
    ∀ x' < s.layout.width, ∀ y' < s.layout.height,
      y * s.layout.stride + x = y' * s.layout.stride + x' → x = x' ∧ y = y'

/-- A surface has been made for a layout that fits, so nothing more is needed than a
storage whose length is a size. -/
theorem addressable (s : Surface) (hs : s.cells.size < 2 ^ 63) : s.Addressable where
  index_lt x hx y hy := by
    have hlt : y * s.layout.stride + x < s.cells.size := s.index_lt_size hx hy
    exact ⟨Nat.lt_trans hlt (Nat.lt_trans hs (by decide)), hlt⟩
  cell?_eq x hx y hy :=
    cell?_eq_index (Nat.lt_trans hs (by decide)) hx hy
  index_inj x hx _ _ x' hx' _ _ h := s.layout.index_inj hx hx' h

/-- **Exactly the layouts that fit are accepted.** Storage becomes a surface of a layout
if and only if no row is longer than the distance between rows and each pixel has its
cell in the storage, and then each pixel has a cell of its own with an address that can
be computed. Otherwise rows that are too long are reported first, and after them the
exact number of cells that would be needed, up to the largest size. Storage that is cut
into whole rows is addressed in the same way, whatever their length is, and even if
that is zero. -/
theorem ofCells?_accepts_exactly (cells : Array UInt16) (stride width height : Nat)
    (hcells : cells.size < 2 ^ 63) :
    let result := ofCells? cells stride width height
    let fits := width ≤ stride
      ∧ ∀ x < width, ∀ y < height, y * stride + x < cells.size
    ((∃ s, result = .ok s) ↔ fits)
      ∧ (∀ s, result = .ok s →
        s.cells = cells ∧ s.layout.stride = stride ∧ s.layout.width = width
          ∧ s.layout.height = height ∧ s.Addressable)
      ∧ (stride < width → result = .error (.widthExceedsStride width stride))
      ∧ (width ≤ stride ∧ ¬ fits →
        result = .error (.tooSmall cells.size width height stride
          (min ((height - 1) * stride + width) (2 ^ 64 - 1))))
      ∧ (ofRows cells stride).Addressable := by
  intro result fits
  have hlargest : cells.size < Size.largest := Nat.lt_trans hcells (by decide)
  have hrows : (ofRows cells stride).Addressable := addressable _ hcells
  have hrefused {error : Error} (herror : result = .error error) :
      ¬ ∃ s, result = .ok s := by
    rintro ⟨s, hok⟩
    cases herror.symm.trans hok
  obtain ⟨hwide, herror⟩ | ⟨hw, ⟨hshort, herror⟩ | ⟨hfits, hok⟩⟩ :=
    ofCells?_cases cells stride width height hlargest
  · -- rows that are too long: three of the parts speak of another case
    refine ⟨⟨fun hok => absurd hok (hrefused herror), ?_⟩, ?_, ?_, ?_, hrows⟩
    · rintro ⟨hw, -⟩
      exact absurd hw (Nat.not_le.2 hwide)
    · intro s hok
      exact absurd ⟨s, hok⟩ (hrefused herror)
    · intro _
      exact herror
    · rintro ⟨hw, -⟩
      exact absurd hw (Nat.not_le.2 hwide)
  · -- storage that is too short: it lacks the cell of some pixel
    refine ⟨⟨fun hok => absurd hok (hrefused herror), ?_⟩, ?_, ?_, ?_, hrows⟩
    · rintro ⟨-, hpixels⟩
      exact absurd (Layout.extent_le_iff.2 hpixels) (Nat.not_le.2 hshort)
    · intro s hok
      exact absurd ⟨s, hok⟩ (hrefused herror)
    · intro hwide
      exact absurd hw (Nat.not_le.2 hwide)
    · intro _
      rw [Layout.extent_eq_of_pos (Nat.zero_lt_of_lt hshort)] at herror
      exact herror
  · -- storage that is accepted, which no error can be reported of
    have hpixels : fits := ⟨hw, Layout.extent_le_iff.1 hfits⟩
    refine ⟨⟨fun _ => hpixels, fun _ => ⟨_, hok⟩⟩, ?_, ?_, ?_, hrows⟩
    · intro s hs
      obtain rfl := Except.ok.inj (hok.symm.trans hs)
      exact ⟨rfl, rfl, rfl, rfl, addressable _ hcells⟩
    · intro hwide
      exact absurd hw (Nat.not_le.2 hwide)
    · rintro ⟨-, hnot⟩
      exact absurd hpixels hnot

/-- Storage that is cut after the last pixel, and one that is too short for rows that
are two pixels longer. -/
theorem ofCells?_accepts_exactly_cut :
    let cells : Array UInt16 := Array.replicate 27 0
    cells.size < 2 ^ 63
      ∧ (∃ s, ofCells? cells 8 3 4 = .ok s)
      ∧ ofCells? cells 8 5 4 = .error (.tooSmall 27 5 4 8 29)
      ∧ ofCells? cells 4 8 1 = .error (.widthExceedsStride 8 4)
      ∧ ofCells? cells (2 ^ 63) 1 3 = .error (.tooSmall 27 1 3 (2 ^ 63) (2 ^ 64 - 1))
      ∧ (ofRows cells 0).Addressable := by
  intro cells
  have hcells : cells.size < 2 ^ 63 := by decide
  obtain ⟨haccepted, -⟩ := ofCells?_accepts_exactly cells 8 3 4 hcells
  obtain ⟨-, -, -, hshort, -⟩ := ofCells?_accepts_exactly cells 8 5 4 hcells
  obtain ⟨-, -, hwide, -⟩ := ofCells?_accepts_exactly cells 4 8 1 hcells
  obtain ⟨-, -, -, hlarge, -⟩ := ofCells?_accepts_exactly cells (2 ^ 63) 1 3 hcells
  obtain ⟨-, -, -, -, hrows⟩ := ofCells?_accepts_exactly cells 0 0 0 hcells
  refine ⟨hcells, haccepted.2 (by decide), hshort (by decide), hwide (by decide),
    hlarge ⟨by decide, ?_⟩, hrows⟩
  rintro ⟨-, hpixels⟩
  have hsecond := hpixels 0 (by decide) 1 (by decide)
  exact absurd hsecond (by decide)

end DepthPrepass.Surface
