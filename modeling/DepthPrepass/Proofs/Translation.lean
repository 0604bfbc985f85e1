import DepthPrepass.Proofs.DirectEvaluation

/-!
# Triangles that are moved

Moving a triangle by whole pixels changes its edge functions: their constant terms
are products of coordinates and wrap in other places than before. What does not
change is the area between an edge and a pixel that is moved along, and that area,
wrapped once, is the value of the edge function there. So a pixel of one surface and
the pixel that it is moved to on another one are tested alike and with the same
depth to the last bit, wherever the two walks have started; and what becomes of
their cells depends on nothing else but what these have held.

* `ScreenVertex.Moved`, `Triangle.Moved`: moving by whole numbers of pixels, as long
  as all coordinates are still words.
* `Edge.eval_through_moved`: the value of an edge function moves along.
* `Triangle.Moved.testsAt_iff`, `Triangle.Moved.depthAt_eq`: so does what is tested.
* `Triangle.paint_moved`: painting a triangle and a moved one on two surfaces.
-/

namespace DepthPrepass

/-! ## Moved points -/

namespace Point

/-- The point that is further on by whole numbers. -/
def move (dx dy : Int) (p : Point) : Point :=
  ⟨p.x + dx, p.y + dy⟩

variable {dx dy : Int} {z low high : Point}

/-- Areas do not change. -/
theorem cross_move (p q r : Point) :
    cross (p.move dx dy) (q.move dx dy) (r.move dx dy) = cross p q r := by
  unfold cross move
  ring

theorem inBox_move :
    (z.move dx dy).InBox (low.move dx dy) (high.move dx dy)
      ↔ z.InBox low high := by
  simp only [InBox, move]
  omega

end Point

/-! ## Moved corners -/

/-- Vertex `w` is vertex `v` moved by whole numbers of pixels, at the same depth. Its
coordinates are words, so they have not wrapped. -/
structure ScreenVertex.Moved (dx dy : Int) (v w : ScreenVertex) : Prop where
  x_eq : w.x.toInt = v.x.toInt + dx
  y_eq : w.y.toInt = v.y.toInt + dy
  z_eq : w.z = v.z

/-- Triangle `u` is triangle `t` moved by whole numbers of pixels. -/
structure Triangle.Moved (dx dy : Int) (t u : Triangle) : Prop where
  first : t.first.Moved dx dy u.first
  second : t.second.Moved dx dy u.second
  third : t.third.Moved dx dy u.third

section Moved

variable {dx dy : Int} {v w p q p' q' : ScreenVertex} {x y x' y' : Int32}

theorem ScreenVertex.Moved.point_eq (h : v.Moved dx dy w) :
    w.point = v.point.move dx dy := by
  unfold ScreenVertex.point Point.move
  rw [h.x_eq, h.y_eq]

/-- **The value of an edge function moves along**, also where it has wrapped. -/
theorem Edge.eval_through_moved (hp : p.Moved dx dy p') (hq : q.Moved dx dy q')
    (hx : x'.toInt = x.toInt + dx) (hy : y'.toInt = y.toInt + dy) :
    (through p' q').eval x' y' = (through p q).eval x y := by
  have hpixel : (⟨x'.toInt, y'.toInt⟩ : Point)
      = Point.move dx dy ⟨x.toInt, y.toInt⟩ := by
    unfold Point.move
    rw [hx, hy]
  rw [eval_through, eval_through, hpixel, hp.point_eq, hq.point_eq,
    Point.cross_move]

end Moved

namespace Triangle

variable {dx dy : Int} {t u : Triangle} {culling : Culling}

namespace Moved

theorem flip (h : t.Moved dx dy u) : t.flip.Moved dx dy u.flip :=
  ⟨h.first, h.third, h.second⟩

theorem area_eq (h : t.Moved dx dy u) : Edge.area u = Edge.area t :=
  Edge.eval_through_moved h.second h.third h.first.x_eq h.first.y_eq

/-- The same side is seen, so the corners are drawn in the same order. -/
theorem drawn (h : t.Moved dx dy u) (culling : Culling) :
    (t.drawn culling).Moved dx dy (u.drawn culling) := by
  unfold Triangle.drawn
  rw [h.flip.area_eq]
  split
  · exact h
  · exact h.flip

theorem low_eq (h : t.Moved dx dy u) : u.low = t.low.move dx dy := by
  obtain ⟨⟨hx₁, hy₁, -⟩, ⟨hx₂, hy₂, -⟩, ⟨hx₃, hy₃, -⟩⟩ := h
  simp only [low, Point.move, Point.mk.injEq]
  omega

theorem high_eq (h : t.Moved dx dy u) : u.high = t.high.move dx dy := by
  obtain ⟨⟨hx₁, hy₁, -⟩, ⟨hx₂, hy₂, -⟩, ⟨hx₃, hy₃, -⟩⟩ := h
  simp only [high, Point.move, Point.mk.injEq]
  omega

/-! ## Moved pixels -/

variable {clip clip' : Region} {x y x' y' : Nat}

/-- The box moves along. -/
theorem inBox_iff (h : t.Moved dx dy u) (hx : (x' : Int) = x + dx)
    (hy : (y' : Int) = y + dy) :
    Point.InBox ⟨x', y'⟩ u.low u.high ↔ Point.InBox ⟨x, y⟩ t.low t.high := by
  have hpixel : (⟨x', y'⟩ : Point) = Point.move dx dy ⟨x, y⟩ := by
    unfold Point.move
    rw [hx, hy]
  rw [h.low_eq, h.high_eq, hpixel, Point.inBox_move]

/-- At pixels that two clip regions cover, and so have coordinates that are words, the
edge functions have the same values. -/
theorem edgesAt_eq (h : t.Moved dx dy u) (hx : (x' : Int) = x + dx)
    (hy : (y' : Int) = y + dy) (hclip : clip.Covers x y)
    (hclip' : clip'.Covers x' y') : u.edgesAt x' y' = t.edgesAt x y := by
  obtain ⟨hwordx, hwordy⟩ := hclip.toInt_ofNat
  obtain ⟨hwordx', hwordy'⟩ := hclip'.toInt_ofNat
  have hpixelx : (Int32.ofNat x').toInt = (Int32.ofNat x).toInt + dx := by
    rw [hwordx, hwordx', hx]
  have hpixely : (Int32.ofNat y').toInt = (Int32.ofNat y).toInt + dy := by
    rw [hwordy, hwordy', hy]
  exact Triple.ext_values
    (Edge.eval_through_moved h.second h.third hpixelx hpixely)
    (Edge.eval_through_moved h.third h.first hpixelx hpixely)
    (Edge.eval_through_moved h.first h.second hpixelx hpixely)

/-- The depth is the same to the last bit. -/
theorem depthAt_eq (h : t.Moved dx dy u) (hx : (x' : Int) = x + dx)
    (hy : (y' : Int) = y + dy) (hclip : clip.Covers x y)
    (hclip' : clip'.Covers x' y') : u.depthAt x' y' = t.depthAt x y := by
  unfold depthAt
  rw [h.edgesAt_eq hx hy hclip hclip', h.area_eq, h.first.z_eq, h.second.z_eq,
    h.third.z_eq]

/-- The one pixel is tested if the other one is. -/
theorem testsAt_iff (h : t.Moved dx dy u) (hx : (x' : Int) = x + dx)
    (hy : (y' : Int) = y + dy) (hclip : clip.Covers x y)
    (hclip' : clip'.Covers x' y') :
    u.TestsAt culling clip' x' y' ↔ t.TestsAt culling clip x y := by
  unfold TestsAt
  rw [(h.drawn culling).area_eq, h.inBox_iff hx hy,
    (h.drawn culling).edgesAt_eq hx hy hclip hclip']
  simp only [hclip, hclip', true_and]

theorem passesAt_eq (h : t.Moved dx dy u) (hx : (x' : Int) = x + dx)
    (hy : (y' : Int) = y + dy) (hclip : clip.Covers x y)
    (hclip' : clip'.Covers x' y') (policy : Policy) (test : DepthTest)
    (stored : UInt16) :
    u.passesAt policy test clip' x' y' stored
      = t.passesAt policy test clip x y stored := by
  unfold passesAt
  simp only [h.testsAt_iff hx hy hclip hclip',
    (h.drawn policy.culling).depthAt_eq hx hy hclip hclip']

end Moved

/-! ## Painting -/

/-- What is left of a pixel of the clip region. -/
theorem get?_paint (mode : LaneMode) (policy : Policy) (test : DepthTest)
    {scissor : Region} {s : Surface} {x y : Nat}
    (hclip : (s.clip scissor).Covers x y) :
    (t.paint mode policy test scissor s).surface.get? x y
      = (s.get? x y).map fun stored =>
          if t.passesAt policy test (s.clip scissor) x y stored then
            ((t.drawn policy.culling).depthAt x y).toUInt16
          else stored := by
  obtain ⟨-, hx, hy⟩ := Surface.covers_clip_natCast.1 hclip
  rw [(t.receives_paint mode policy test scissor s).get?_eq]
  refine Option.map_congr fun stored _ => ?_
  exact settleAll_index hx hy stored

/-- **A triangle and the same triangle moved** by whole pixels, painted on two
surfaces with any layouts and contents, in any scissors and lane modes: if a pixel is in
the one clip region and the pixel that it is moved to is in the other one, and both have
held the same depth before, then both hold the same depth afterwards. -/
theorem paint_moved (h : t.Moved dx dy u) (mode mode' : LaneMode)
    (policy : Policy) (test : DepthTest) {scissor scissor' : Region}
    {s s' : Surface} {x y x' y' : Nat} (hx : (x' : Int) = x + dx)
    (hy : (y' : Int) = y + dy) (hclip : (s.clip scissor).Covers x y)
    (hclip' : (s'.clip scissor').Covers x' y')
    (hstored : s'.get? x' y' = s.get? x y) :
    ∃ value,
      (t.paint mode policy test scissor s).surface.get? x y = some value
        ∧ (u.paint mode' policy test scissor' s').surface.get? x' y'
          = some value := by
  obtain ⟨-, hwidth, hheight⟩ := Surface.covers_clip_natCast.1 hclip
  obtain ⟨stored, hvalue⟩ := Surface.exists_get?_eq_some hwidth hheight
  rw [get?_paint mode policy test hclip, get?_paint mode' policy test hclip',
    hstored, hvalue, (h.drawn policy.culling).depthAt_eq hx hy hclip hclip']
  simp only [h.passesAt_eq hx hy hclip hclip', Option.map_some]
  exact ⟨_, rfl, rfl⟩

/-- A triangle whose area has wrapped, moved from a small surface to one with other
rows. The constant terms of its edge functions come out different, `605032704` and
`605382704` for the first edge, but the depths do not. -/
theorem paint_moved_wrapped :
    let t : Triangle :=
      ⟨⟨0, 0, 100, false⟩, ⟨0, 70000, 500, false⟩, ⟨70000, 0, 900, false⟩⟩
    let u : Triangle :=
      ⟨⟨3, 2, 100, false⟩, ⟨3, 70002, 500, false⟩, ⟨70003, 2, 900, false⟩⟩
    let s : Surface := .blank 4 4
    let s' : Surface := .ofRows (Array.replicate 65 65535) 9
    let scissor' : Region := ⟨2, 1, 8, 7⟩
    t.Moved 3 2 u
      ∧ (s.clip s.bounds).Covers 2 1 ∧ (s'.clip scissor').Covers 5 3
      ∧ s'.get? 5 3 = s.get? 2 1
      ∧ (t.paint .scalar {} .less s.bounds s).surface.get? 2 1 = some 100
      ∧ (u.paint .wide {} .less scissor' s').surface.get? 5 3 = some 100 := by
  intro t u s s' scissor'
  have hmoved : t.Moved 3 2 u :=
    ⟨⟨rfl, rfl, rfl⟩, ⟨rfl, rfl, rfl⟩, ⟨rfl, rfl, rfl⟩⟩
  have hclip : (s.clip s.bounds).Covers (2 : Nat) (1 : Nat) := by decide +kernel
  have hclip' : (s'.clip scissor').Covers (5 : Nat) (3 : Nat) := by
    decide +kernel
  have hstored : s'.get? 5 3 = s.get? 2 1 := by decide +kernel
  have hpainted : (t.paint .scalar {} .less s.bounds s).surface.get? 2 1
      = some 100 := by decide +kernel
  obtain ⟨value, hvalue, hvalue'⟩ := paint_moved hmoved .scalar .wide {} .less
    rfl rfl hclip hclip' hstored
  rw [hpainted] at hvalue
  exact ⟨hmoved, hclip, hclip', hstored, hpainted, hvalue'.trans hvalue.symm⟩

end Triangle

end DepthPrepass
