import DepthPrepass.Proofs.Complements
import DepthPrepass.Proofs.DirectEvaluation

/-!
# The order of the corners

The setup of a triangle reads the order of its corners twice: to see which side is
in front, and to give each corner its edge. The rest of it is arithmetic of words,
and what holds of areas holds of words that have wrapped as well: an area stays the
same when the corners are rotated, and it changes its sign when two of them are
exchanged. The area that is its own negative is no exception, since it is below
zero in both orders and so no triangle has it.

* `Triple.rotations`: the cyclic orders of three values.
* `Edge.area_rotate`, `Edge.area_flip`: the area.
* `Triangle.plan_rotation`: the setup of a rotated triangle.
* `Triangle.walk?_flip_twoSided`, `Triangle.walk?_twoSided_of_pos`: the setup of a
  triangle both sides of which are drawn.
* `Triangle.paint_corner_order`: painting.
-/

namespace DepthPrepass

/-! ## Cyclic orders -/

namespace Triple

variable {α β : Type}

/-- The values with the first one moved to the end. -/
def rotate (t : Triple α) : Triple α :=
  ⟨t.second, t.third, t.first⟩

/-- The three cyclic orders of the values. -/
def rotations (t : Triple α) : List (Triple α) :=
  [t, t.rotate, t.rotate.rotate]

variable {t u : Triple α}

theorem mem_rotations :
    u ∈ t.rotations ↔ u = t ∨ u = t.rotate ∨ u = t.rotate.rotate := by
  simp [rotations]

/-- What one rotation leaves alone is the same for all of them. -/
theorem eq_of_mem_rotations {p : Triple α → β} (h : ∀ t, p t.rotate = p t)
    (hu : u ∈ t.rotations) : p u = p t := by
  obtain rfl | rfl | rfl := mem_rotations.1 hu
  · rfl
  · exact h t
  · exact (h t.rotate).trans (h t)

/-- What rotates along with the values has the rotations that they have. -/
theorem map_mem_rotations {f : Triple α → Triple β}
    (h : ∀ t, f t.rotate = (f t).rotate) (hu : u ∈ t.rotations) :
    f u ∈ (f t).rotations := by
  rw [mem_rotations]
  obtain rfl | rfl | rfl := mem_rotations.1 hu
  · exact .inl rfl
  · exact .inr (.inl (h t))
  · exact .inr (.inr (by rw [h, h]))

end Triple

/-! ## Areas -/

namespace Edge

theorem area_rotate (t : Triangle) : area t.rotate = area t := by
  unfold area through eval Triple.rotate
  grind

/-- Exchanging two corners changes the sign of the area. -/
theorem area_flip (t : Triangle) : area t.flip = -area t := by
  unfold area through eval Triangle.flip
  grind

end Edge

/-- The policy with another choice of the sides that are drawn. -/
def Policy.drawing (policy : Policy) (culling : Culling) : Policy :=
  { policy with culling }

@[simp] theorem Policy.culling_drawing (policy : Policy) (culling : Culling) :
    (policy.drawing culling).culling = culling := rfl

namespace Triangle

variable {mode : LaneMode} {policy : Policy} {culling : Culling}
  {test : DepthTest} {clip scissor : Region} {t u : Triangle} {s : Surface}

/-! ## The box -/

/-- The box is known from its least and its greatest corner. -/
theorem box_congr (hlow : t.low = u.low) (hhigh : t.high = u.high) :
    t.box = u.box := by
  obtain ⟨hl, ht, hr, hb⟩ := t.toInt_box
  obtain ⟨hl', ht', hr', hb'⟩ := u.toInt_box
  have hleft : t.box.left = u.box.left :=
    Int32.toInt_inj.1 (by rw [hl, hl', hlow])
  have htop : t.box.top = u.box.top :=
    Int32.toInt_inj.1 (by rw [ht, ht', hlow])
  have hright : t.box.right = u.box.right :=
    Int32.toInt_inj.1 (by rw [hr, hr', hhigh])
  have hbottom : t.box.bottom = u.box.bottom :=
    Int32.toInt_inj.1 (by rw [hb, hb', hhigh])
  exact Region.mk.injEq .. ▸ ⟨hleft, htop, hright, hbottom⟩

theorem box_rotate (t : Triangle) : box t.rotate = t.box := by
  apply box_congr
  · simp only [low, Triple.rotate, Point.mk.injEq]
    omega
  · simp only [high, Triple.rotate, Point.mk.injEq]
    omega

theorem box_flip (t : Triangle) : t.flip.box = t.box := by
  apply box_congr
  · simp only [low, flip, Point.mk.injEq]
    omega
  · simp only [high, flip, Point.mk.injEq]
    omega

/-! ## Rotated corners -/

theorem area_rotation (hu : u ∈ t.rotations) : Edge.area u = Edge.area t :=
  Triple.eq_of_mem_rotations Edge.area_rotate hu

theorem box_rotation (hu : u ∈ t.rotations) : u.box = t.box :=
  Triple.eq_of_mem_rotations box_rotate hu

/-- Exchanging the last two corners turns the cyclic order around. -/
theorem flip_rotation (hu : u ∈ t.rotations) : u.flip ∈ t.flip.rotations := by
  rw [Triple.mem_rotations]
  obtain rfl | rfl | rfl := Triple.mem_rotations.1 hu
  · exact .inl rfl
  · exact .inr (.inr rfl)
  · exact .inr (.inl rfl)

/-- Rotating the corners rotates them in the order in which they are drawn,
too. -/
theorem drawn_rotation (hu : u ∈ t.rotations) :
    u.drawn culling ∈ (t.drawn culling).rotations := by
  unfold drawn
  rw [area_rotation (flip_rotation hu)]
  split
  · exact hu
  · exact flip_rotation hu

/-- The setup of a rotated triangle is the same but for the walk, which has the
edges of the rotated corners. -/
theorem plan_rotation (hu : u ∈ t.rotations) :
    u.plan policy test clip
      = (t.plan policy test clip).map fun drawn =>
          (drawn.1, (u.drawn policy.culling).walkIn drawn.2.region) := by
  unfold plan walk?
  dsimp only
  rw [box_rotation hu, area_rotation (drawn_rotation hu)]
  -- box and area are the same, so all that can differ is the walk
  cases effectiveTest? policy.triangleNever test with
  | none => rfl
  | some test' =>
    dsimp only
    split
    · rfl
    · split <;> rfl

/-- Where the edge functions of rotated corners are evaluated, the values are
rotated. -/
theorem edgesAt_rotation (hu : u ∈ t.rotations) (x y : Nat) :
    u.edgesAt x y ∈ (t.edgesAt x y).rotations :=
  Triple.map_mem_rotations (f := fun t => edgesAt t x y) (fun _ => rfl) hu

/-- What each corner contributes to the depth at a pixel. -/
def shares (t : Triangle) (x y : Nat) : Triple Float32 :=
  (t.edgesAt x y).zipWith
    (fun value slope => Binary32.ofInt32 value * slope)
    (t.map fun corner =>
      corner.z.toFloat32 * (1 / Binary32.ofInt32 (Edge.area t)))

theorem depthAt_eq_sum_shares (t : Triangle) (x y : Nat) :
    t.depthAt x y = (t.shares x y).sum := rfl

theorem shares_rotate (t : Triangle) (x y : Nat) :
    shares t.rotate x y = (t.shares x y).rotate := by
  unfold shares
  rw [Edge.area_rotate]
  rfl

/-- The shares of rotated corners are the same numbers, rotated. -/
theorem shares_rotation (hu : u ∈ t.rotations) (x y : Nat) :
    u.shares x y ∈ (t.shares x y).rotations :=
  Triple.map_mem_rotations (f := fun t => shares t x y)
    (fun t => shares_rotate t x y) hu

theorem inside_rotate (w : Triple Int32) :
    Walk.inside w.rotate = Walk.inside w := by
  rw [Bool.eq_iff_iff, Walk.inside_iff, Walk.inside_iff]
  unfold Triple.rotate
  tauto

/-- The pixels of a walk are those inside the edges of its corners. -/
theorem map_pixel_fragments_walkIn {region : Region} (h : region.On s)
    (t : Triangle) :
    ((t.walkIn region).fragments mode).map Fragment.pixel
      = region.pixels.filter fun p => Walk.inside (t.edgesAt p.1 p.2) :=
  Walk.map_pixel_fragments _ mode h

/-- Rotating the corners does not move the fragments. -/
theorem map_pixel_fragments_rotation (hu : u ∈ t.rotations) :
    (u.fragments mode policy test (s.clip scissor)).map Fragment.pixel
      = (t.fragments mode policy test (s.clip scissor)).map Fragment.pixel := by
  have hon : (t.box.inter (s.clip scissor)).On s := Region.on_inter_clip ..
  unfold fragments
  rw [plan_rotation hu]
  cases hplan : t.plan policy test (s.clip scissor) with
  | error rejection => rfl
  | ok drawn =>
    obtain ⟨test', walk⟩ := drawn
    obtain ⟨-, -, -, rfl⟩ := plan_eq_ok_iff.1 hplan
    refine (map_pixel_fragments_walkIn hon _).trans
      (Eq.trans ?_ (map_pixel_fragments_walkIn hon _).symm)
    -- being inside asks for all three edge values, in any order
    refine List.filter_congr fun p _ => ?_
    exact Triple.eq_of_mem_rotations inside_rotate
      (edgesAt_rotation (drawn_rotation hu) p.1 p.2)

/-- The depth of a fragment is the depth there. -/
theorem depth_of_mem_fragments {f : Fragment}
    (hf : f ∈ t.fragments mode policy test (s.clip scissor)) :
    f.depth = (t.drawn policy.culling).depthAt f.x f.y := by
  obtain ⟨test', walk, hplan, -, hdepth⟩ := exists_walk_of_mem_fragments hf
  obtain ⟨-, -, -, rfl⟩ := plan_eq_ok_iff.1 hplan
  exact hdepth

/-! ## Both sides -/

/-- When both sides are drawn, the last two corners can be exchanged. -/
theorem walk?_flip_twoSided :
    t.flip.walk? .twoSided clip = t.walk? .twoSided clip := by
  have hflip : Edge.area t = -Edge.area t.flip := Edge.area_flip t.flip
  have hdrawn : t.drawn .twoSided
      = if Edge.area t.flip < 0 then t else t.flip := by
    simp only [drawn, and_true]
  have hdrawn' : t.flip.drawn .twoSided
      = if Edge.area t < 0 then t.flip else t := by
    simp only [drawn, and_true]
    rfl
  unfold walk?
  rw [box_flip, hdrawn, hdrawn']
  by_cases hfront : Edge.area t.flip < 0
  · by_cases hback : Edge.area t < 0
    · -- only the least word is below zero together with its negative
      simp only [if_pos hfront, if_pos hback, if_pos (Int32.le_of_lt hfront),
        if_pos (Int32.le_of_lt hback)]
    · rw [if_pos hfront, if_neg hback]
  · by_cases hback : Edge.area t < 0
    · rw [if_neg hfront, if_pos hback]
    · -- a word and its negative are not below zero only if they are zero
      have hzero : Edge.area t.flip ≤ 0 ∧ Edge.area t ≤ 0 := by
        rw [hflip] at hback ⊢
        grind
      simp only [if_neg hfront, if_neg hback, if_pos hzero.1, if_pos hzero.2]

theorem flip_flip (t : Triangle) : t.flip.flip = t := rfl

/-- Drawing both sides draws a triangle whose front is seen as drawing the front
does. -/
theorem walk?_twoSided_of_pos (h : 0 < Edge.area t.flip) :
    t.walk? .twoSided clip = t.walk? .frontOnly clip := by
  have hdrawn : t.drawn .twoSided = t.flip :=
    if_neg fun h' => Int32.lt_asymm h h'.1
  unfold walk?
  rw [hdrawn, drawn_frontOnly]

/-- In at most one of the two orders the front is seen. -/
theorem not_pos_area_flip (h : 0 < Edge.area t.flip) : ¬ 0 < Edge.area t := by
  rw [Edge.area_flip] at h
  grind

theorem flip_mem (hu : u ∈ [t, t.flip]) : u.flip ∈ [t, t.flip] := by
  rw [List.mem_pair] at hu ⊢
  obtain rfl | rfl := hu
  · exact .inr rfl
  · exact .inl (flip_flip t)

/-- If a triangle is drawn whichever side is seen, the front is seen in one of the
two orders. -/
theorem pos_area_of_drawn_twoSided
    (h : 0 < Edge.area (t.drawn .twoSided)) :
    0 < Edge.area t.flip ∨ 0 < Edge.area t := by
  unfold drawn at h
  split at h
  · exact .inr h
  · exact .inl h

/-! ## Painting -/

/-- A setup that comes out the same paints the same. -/
theorem paint_congr {policy policy' : Policy}
    (h : t.plan policy test (s.clip scissor)
      = u.plan policy' test (s.clip scissor)) :
    t.paint mode policy test scissor s = u.paint mode policy' test scissor s := by
  unfold paint
  rw [h]

theorem plan_flip_twoSided :
    t.flip.plan (policy.drawing .twoSided) test clip
      = t.plan (policy.drawing .twoSided) test clip := by
  unfold plan Policy.drawing
  rw [walk?_flip_twoSided]

theorem plan_twoSided_of_pos (h : 0 < Edge.area t.flip) :
    t.plan (policy.drawing .twoSided) test clip
      = t.plan (policy.drawing .frontOnly) test clip := by
  unfold plan Policy.drawing
  rw [walk?_twoSided_of_pos h]

/-- If pixels are tested, the area is positive in the order that is drawn. -/
theorem pos_area_of_pixelsTested_ne_zero
    (h : (t.paint mode policy test scissor s).work.pixelsTested ≠ 0) :
    0 < Edge.area (t.drawn policy.culling) := by
  cases hplan : t.plan policy test (s.clip scissor) with
  | error rejection =>
    refine absurd ?_ h
    unfold paint
    rw [hplan]
    cases rejection <;> rfl
  | ok drawn =>
    obtain ⟨-, -, harea, -⟩ := plan_eq_ok_iff.1 hplan
    exact harea

/-- Rotating the corners of a triangle. -/
theorem paint_rotation (mode : LaneMode) (policy : Policy) (test : DepthTest)
    (scissor : Region) (s : Surface) (hu : u ∈ t.rotations) :
    (u.paint mode policy test scissor s).work.trianglesOffScissor
        = (t.paint mode policy test scissor s).work.trianglesOffScissor
      ∧ (u.paint mode policy test scissor s).work.trianglesCulled
        = (t.paint mode policy test scissor s).work.trianglesCulled
      ∧ (u.paint mode policy test scissor s).work.pixelsTested
        = (t.paint mode policy test scissor s).work.pixelsTested
      ∧ (u.paint mode policy .always scissor s).written
        = (t.paint mode policy .always scissor s).written := by
  have hlength (test : DepthTest) :
      (u.fragments mode policy test (s.clip scissor)).length
        = (t.fragments mode policy test (s.clip scissor)).length := by
    simpa only [List.length_map] using congrArg List.length
      (map_pixel_fragments_rotation hu)
  have hrejected : (u.paint mode policy test scissor s).work.trianglesOffScissor
        = (t.paint mode policy test scissor s).work.trianglesOffScissor
      ∧ (u.paint mode policy test scissor s).work.trianglesCulled
        = (t.paint mode policy test scissor s).work.trianglesCulled := by
    have hrest (own : Tested) (before : Counters) :
        (own.painted before).work.trianglesOffScissor
            = before.trianglesOffScissor
          ∧ (own.painted before).work.trianglesCulled
            = before.trianglesCulled :=
      ⟨UInt64.add_zero _, UInt64.add_zero _⟩
    unfold paint
    rw [plan_rotation hu]
    cases t.plan policy test (s.clip scissor) with
    | error rejection => exact ⟨rfl, rfl⟩
    | ok drawn =>
      simp only [Except.map, hrest, and_self]
  refine ⟨hrejected.1, hrejected.2, ?_, ?_⟩
  · rw [pixelsTested_paint, pixelsTested_paint, tested_tests, tested_tests,
      hlength]
  · rw [written_paint_always, written_paint_always, hlength]

/-- Depths of fragments in the same pixel are added up from the same shares. -/
theorem depth_rotation (hu : u ∈ t.rotations) {f g : Fragment}
    (hf : f ∈ t.fragments mode policy test (s.clip scissor))
    (hg : g ∈ u.fragments mode policy test (s.clip scissor))
    (hpixel : f.pixel = g.pixel) :
    (u.drawn policy.culling).shares g.x g.y
        ∈ ((t.drawn policy.culling).shares f.x f.y).rotations
      ∧ f.depth = ((t.drawn policy.culling).shares f.x f.y).sum
      ∧ g.depth = ((u.drawn policy.culling).shares g.x g.y).sum := by
  obtain ⟨hx, hy⟩ := Prod.mk.inj hpixel
  rw [depth_of_mem_fragments hf, depth_of_mem_fragments hg, hx, hy]
  exact ⟨shares_rotation (drawn_rotation hu) g.x g.y,
    depthAt_eq_sum_shares _ _ _, depthAt_eq_sum_shares _ _ _⟩

/-- **The order of the corners.** Exchanging the last two makes no difference if
both sides are drawn. Rotating them makes none to how a triangle is classified, to
which pixels are tested and to how many are written when the test always passes, and
the depths are those of the same three shares, added up in the rotated order. If
only the front is drawn, pixels are tested in at most one of the two orders, and
drawing both sides does what that one does. -/
theorem paint_corner_order (mode : LaneMode) (policy : Policy)
    (test : DepthTest) (scissor : Region) (t : Triangle) (s : Surface) :
    let painted (culling : Culling) (test : DepthTest) (u : Triangle) :=
      u.paint mode (policy.drawing culling) test scissor s
    let fragments (culling : Culling) (u : Triangle) :=
      u.fragments mode (policy.drawing culling) test (s.clip scissor)
    let tested (culling : Culling) (u : Triangle) :=
      (painted culling test u).work.pixelsTested
    painted .twoSided test t.flip = painted .twoSided test t
      ∧ (∀ culling, ∀ u : Triangle, u ∈ t.rotations →
        (painted culling test u).work.trianglesOffScissor
            = (painted culling test t).work.trianglesOffScissor
          ∧ (painted culling test u).work.trianglesCulled
            = (painted culling test t).work.trianglesCulled
          ∧ (fragments culling u).map Fragment.pixel
            = (fragments culling t).map Fragment.pixel
          ∧ tested culling u = tested culling t
          ∧ (painted culling .always u).written
            = (painted culling .always t).written
          ∧ ∀ f ∈ fragments culling t, ∀ g ∈ fragments culling u,
            f.pixel = g.pixel →
              (u.drawn culling).shares g.x g.y
                  ∈ ((t.drawn culling).shares f.x f.y).rotations
                ∧ f.depth = ((t.drawn culling).shares f.x f.y).sum
                ∧ g.depth = ((u.drawn culling).shares g.x g.y).sum)
      ∧ (tested .frontOnly t = 0 ∨ tested .frontOnly t.flip = 0)
      ∧ (∀ u ∈ [t, t.flip], tested .frontOnly u ≠ 0 →
        ∀ v ∈ [t, t.flip],
          painted .twoSided test v = painted .frontOnly test u)
      ∧ ((∀ u ∈ [t, t.flip], tested .frontOnly u = 0) →
        ∀ v ∈ [t, t.flip], tested .twoSided v = 0) := by
  intro painted fragments tested
  -- both sides drawn: the one with the front is, whichever is given
  have hboth : painted .twoSided test t.flip = painted .twoSided test t :=
    paint_congr plan_flip_twoSided
  have hsame {u : Triangle} (hu : u ∈ [t, t.flip]) :
      painted .twoSided test u = painted .twoSided test t := by
    obtain rfl | rfl := List.mem_pair.1 hu
    · rfl
    · exact hboth
  -- the front is seen: then drawing the other side as well adds nothing
  have hfront {u : Triangle} (hu : 0 < Edge.area u.flip) :
      painted .twoSided test u = painted .frontOnly test u :=
    paint_congr (plan_twoSided_of_pos hu)
  -- a tested pixel needs a positive area, which only the front has
  have hseen {u : Triangle} (hu : tested .frontOnly u ≠ 0) :
      0 < Edge.area u.flip := by
    have harea := pos_area_of_pixelsTested_ne_zero hu
    rwa [Policy.culling_drawing, drawn_frontOnly] at harea
  refine ⟨hboth, fun culling u hu => ?_, ?_, fun u hu htested v hv => ?_,
    fun hnone v hv => ?_⟩
  · -- rotating: counters come from the plan, pixels and depths from the shares
    obtain ⟨hoff, hculled, htested, -⟩ :=
      paint_rotation mode (policy.drawing culling) test scissor s hu
    obtain ⟨-, -, -, hwritten⟩ :=
      paint_rotation mode (policy.drawing culling) .always scissor s hu
    refine ⟨hoff, hculled, map_pixel_fragments_rotation hu, htested, hwritten,
      fun f hf g hg hpixel => ?_⟩
    have hdepth := depth_rotation hu hf hg hpixel
    rwa [Policy.culling_drawing] at hdepth
  · -- one order: the two areas are opposite, so not both are positive
    by_cases h : tested .frontOnly t = 0
    · exact .inl h
    · refine .inr (Classical.byContradiction fun h' => ?_)
      have hback : 0 < Edge.area t.flip.flip := hseen h'
      rw [flip_flip] at hback
      exact not_pos_area_flip (hseen h) hback
  · -- that order is the one that is drawn when both sides are
    rw [hsame hv, ← hsame hu]
    exact hfront (hseen htested)
  · -- neither order: a pixel tested with both sides drawn is tested in one
    refine Classical.byContradiction fun h => ?_
    have harea := pos_area_of_pixelsTested_ne_zero h
    rw [Policy.culling_drawing] at harea
    -- drawing the front of one of the two orders does the same
    obtain ⟨u, hu, hpos⟩ : ∃ u ∈ [t, t.flip], 0 < Edge.area u.flip := by
      obtain hpos | hpos := pos_area_of_drawn_twoSided harea
      · exact ⟨v, hv, hpos⟩
      · exact ⟨v.flip, flip_mem hv, hpos⟩
    refine h ?_
    show (painted .twoSided test v).work.pixelsTested = 0
    rw [hsame hv, ← hsame hu, hfront hpos]
    exact hnone u hu

/-- A triangle whose front is seen, on a surface that it covers, in several
orders. -/
theorem paint_corner_order_covering :
    let t : Triangle :=
      ⟨⟨0, 0, 300, false⟩, ⟨0, 8, 300, false⟩, ⟨8, 0, 200, false⟩⟩
    let s : Surface := .blank 4 4
    (t.paint .wide (Policy.drawing {} .frontOnly) .notEqual s.bounds
        s).work.pixelsTested = 16
      ∧ (Triangle.paint .wide (Policy.drawing {} .frontOnly) .notEqual s.bounds
        t.rotate s).work.pixelsTested = 16
      ∧ (t.flip.paint .wide (Policy.drawing {} .frontOnly) .notEqual s.bounds
        s).work.pixelsTested = 0
      ∧ t.flip.paint .wide (Policy.drawing {} .twoSided) .notEqual s.bounds s
        = t.paint .wide (Policy.drawing {} .frontOnly) .notEqual s.bounds s := by
  intro t s
  obtain ⟨-, hrotations, hone, hsides, -⟩ :=
    paint_corner_order .wide {} .notEqual s.bounds t s
  dsimp only at hrotations hone hsides
  have htested : (t.paint .wide (Policy.drawing {} .frontOnly) .notEqual
      s.bounds s).work.pixelsTested = 16 := by decide +kernel
  have hne : (t.paint .wide (Policy.drawing {} .frontOnly) .notEqual
      s.bounds s).work.pixelsTested ≠ 0 := by
    rw [htested]
    decide
  have hrotate : t.rotate ∈ t.rotations := Triple.mem_rotations.2 (.inr (.inl rfl))
  have hflip : t.flip ∈ [t, t.flip] := flip_mem List.mem_cons_self
  obtain ⟨-, -, -, hsame, -⟩ := hrotations .frontOnly t.rotate hrotate
  exact ⟨htested, hsame.trans htested, hone.resolve_left hne,
    hsides t List.mem_cons_self hne t.flip hflip⟩

end Triangle

end DepthPrepass
