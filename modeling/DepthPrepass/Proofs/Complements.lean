import DepthPrepass.Proofs.DepthUpdates
import DepthPrepass.Proofs.Fans

/-!
# Complementary tests

Of two tests such as "less" and "greater or equal" exactly one passes, whatever is
stored, as long as the candidate is a number; and the depths that are tested always
are. Each pixel is tested once, so what the two tests write adds up to all pixels
that are tested. That holds although each of the two is looked at in a painting of
its own, and what the paintings leave may differ in every pixel: a visit to one cell
does not show in another.

* `DepthTest.Complementary`: the pairs of tests.
* `Tested.passed_visits_of_nodup`: visits to different cells do not see each other.
* `Tested.passed_add_passed`: the passed visits of two complementary tests.
* `Rasterizer.written_add_written`: triangles and rectangles.
-/

namespace DepthPrepass

/-! ## Pairs of tests -/

namespace DepthTest

/-- Pairs of tests of which exactly one passes. -/
inductive Complementary : (test other : DepthTest) → Prop where
  | less : Complementary less greaterEqual
  | lessEqual : Complementary lessEqual greater
  | equal : Complementary equal notEqual

variable {test other : DepthTest}

/-- For candidates that are not negative, and so are numbers, the one passes where
the other fails. -/
theorem Complementary.passes_eq_not (h : Complementary test other)
    {x : Float32} (hx : 0 ≤ x) (stored : UInt16) :
    other.passes x stored.toFloat32 = !test.passes x stored.toFloat32 := by
  cases h with
  | less =>
    rw [passes, passes, ← decide_not, decide_eq_decide]
    exact Binary32.toFloat32_le_iff hx stored
  | lessEqual =>
    rw [passes, passes, ← decide_not, decide_eq_decide]
    exact Binary32.toFloat32_lt_iff hx stored
  | equal => rfl

/-- Neither of them is a test that the policy of triangles or rectangles
replaces. -/
theorem Complementary.effectiveTest? (h : Complementary test other)
    (policy : TriangleNever) :
    Triangle.effectiveTest? policy test = some test
      ∧ Triangle.effectiveTest? policy other = some other
      ∧ Rectangle.effectiveTest? .perPixel test = some test
      ∧ Rectangle.effectiveTest? .perPixel other = some other := by
  cases h <;> cases policy <;> decide

end DepthTest

/-! ## Visits to different cells -/

namespace Tested

variable {test other : DepthTest} {t : Tested} {s : Surface} {vs : List Visit}

/-- A visit leaves other cells alone. -/
theorem getElem?_cells_visit_of_ne {v : Visit} {j : Nat} (h : v.cell ≠ j) :
    (t.visit test v.candidate v.value v.cell).surface.cells[j]?
      = t.surface.cells[j]? := by
  rw [getElem?_cells_visit]
  simp only [h, false_and, if_false]
  exact congrFun Option.map_id _

/-- **Visits to different cells do not see each other**: whether one of them passes
is decided by what its cell has held before all of them. -/
theorem passed_visits_of_nodup (h : (vs.map (·.cell)).Nodup) :
    (t.visits test vs).passed
      = t.passed + vs.countP fun v =>
          (t.surface.cells[v.cell]?).any (Candidate.ofVisit test v).passes := by
  induction vs generalizing t with
  | nil => rfl
  | cons v vs ih =>
    -- the first visit changes no cell that the others find
    obtain ⟨hv, hvs⟩ := List.nodup_cons.1 h
    let next := t.visit test v.candidate v.value v.cell
    have hrest : (vs.countP fun w => (next.surface.cells[w.cell]?).any
          (Candidate.ofVisit test w).passes)
        = vs.countP fun w => (t.surface.cells[w.cell]?).any
          (Candidate.ofVisit test w).passes := by
      refine List.countP_congr fun w hw => ?_
      have hne : v.cell ≠ w.cell := fun hvw =>
        hv (List.mem_map.2 ⟨w, hw, hvw.symm⟩)
      rw [getElem?_cells_visit_of_ne hne]
    have hfirst : ((t.surface.cells[v.cell]?).elim 0 fun stored =>
          (test.passes v.candidate stored.toFloat32).toNat)
        = if (t.surface.cells[v.cell]?).any (Candidate.ofVisit test v).passes
          then 1 else 0 := by
      cases t.surface.cells[v.cell]? with
      | none => rfl
      | some stored =>
        show (test.passes v.candidate stored.toFloat32).toNat
          = if test.passes v.candidate stored.toFloat32 = true then 1 else 0
        cases test.passes v.candidate stored.toFloat32 <;> rfl
    calc (t.visits test (v :: vs)).passed
        = (next.visits test vs).passed := rfl
      _ = next.passed + vs.countP fun w => (t.surface.cells[w.cell]?).any
            (Candidate.ofVisit test w).passes := by rw [ih hvs, hrest]
      _ = _ := by rw [passed_visit, hfirst, List.countP_cons]; omega

/-- **Complementary tests** of the same candidates, in different cells, pass as
often together as there are candidates. -/
theorem passed_add_passed (h : test.Complementary other)
    (hnodup : (vs.map (·.cell)).Nodup)
    (hcells : ∀ v ∈ vs, v.cell < s.cells.size)
    (hcandidates : ∀ v ∈ vs, 0 ≤ v.candidate) :
    ((start s).visits test vs).passed + ((start s).visits other vs).passed
      = vs.length := by
  -- where one test passes the other one fails, but for a NaN, which no candidate is
  have hnot : (vs.countP fun v =>
        (s.cells[v.cell]?).any (Candidate.ofVisit other v).passes)
      = vs.countP fun v =>
        ¬ (s.cells[v.cell]?).any (Candidate.ofVisit test v).passes := by
    refine List.countP_congr fun v hv => ?_
    have hcell := hcells v hv
    have hpasses := h.passes_eq_not (hcandidates v hv) s.cells[v.cell]
    rw [Array.getElem?_eq_getElem hcell, Option.any_some, Option.any_some]
    show other.passes v.candidate s.cells[v.cell].toFloat32 = true
      ↔ (decide ¬ test.passes v.candidate s.cells[v.cell].toFloat32 = true)
        = true
    rw [hpasses]
    simp
  have hstart : (start s).passed = 0 := rfl
  rw [passed_visits_of_nodup hnodup, passed_visits_of_nodup hnodup, hstart,
    Nat.zero_add, Nat.zero_add]
  show _ + vs.countP (fun v =>
    (s.cells[v.cell]?).any (Candidate.ofVisit other v).passes) = _
  rw [hnot]
  exact List.length_eq_countP_add_countP _ |>.symm

end Tested

/-! ## Painting -/

section Painting

variable {test other : DepthTest} {scissor : Region} {s : Surface}

namespace Triangle

variable {policy : Policy} {t : Triangle}

/-- What a triangle writes under a test of its own is what its fragments write. -/
theorem written_paint (mode : LaneMode)
    (h : effectiveTest? policy.triangleNever test = some test) :
    (t.paint mode policy test scissor s).written
      = ((Tested.start s).visits test
          ((t.fragments mode policy .always (s.clip scissor)).map
            (Fragment.visit s.layout))).passed := by
  rw [(paint_eq_tests mode).2, tests, h, Option.getD_some,
    Tested.fragments_eq_visits, fragments_eq_always mode h]

/-- Under the test that always passes it writes all of them. -/
theorem written_paint_always (mode : LaneMode) :
    (t.paint mode policy .always scissor s).written
      = (t.fragments mode policy .always (s.clip scissor)).length := by
  rw [(paint_eq_tests mode).2, tests, effectiveTest?_always,
    Option.getD_some]
  exact Tested.passed_fragments_always fun f hf =>
    index_lt_size_of_mem_fragments hf

/-- Complementary tests of a triangle write all of its fragments together. -/
theorem written_paint_add (h : test.Complementary other) (mode : LaneMode) :
    (t.paint mode policy test scissor s).written
        + (t.paint mode policy other scissor s).written
      = (t.fragments mode policy .always (s.clip scissor)).length := by
  obtain ⟨htest, hother, -⟩ := h.effectiveTest? policy.triangleNever
  rw [written_paint mode htest, written_paint mode hother,
    Tested.passed_add_passed h, List.length_map]
  · -- what the sum asks of the visits: different cells, all in the storage, and depths
    -- that are not negative
    rw [List.map_map]
    exact nodup_index_fragments mode
  · intro v hv
    obtain ⟨f, hf, rfl⟩ := List.mem_map.1 hv
    exact index_lt_size_of_mem_fragments hf
  · intro v hv
    obtain ⟨f, hf, rfl⟩ := List.mem_map.1 hv
    exact zero_le_depth_of_mem_fragments hf

end Triangle

namespace Rectangle

variable {r : Rectangle}

theorem visits_area (r : Rectangle) (scissor : Region) (s : Surface) :
    testRows test r.depth (r.area scissor s).rowSpans s
      = (Tested.start s).visits test
          ((r.area scissor s).pixels.map (visit s.layout r.depth)) :=
  testRows_eq_visits ..

/-- Complementary tests of a rectangle write all of its pixels together. -/
theorem written_paint_add (h : test.Complementary other) (mode : LaneMode) :
    (r.paint mode .perPixel test scissor s).written
        + (r.paint mode .perPixel other scissor s).written
      = (r.area scissor s).pixels.length := by
  have hon : (r.area scissor s).On s := Region.on_inter_clip ..
  obtain ⟨-, -, htest, hother⟩ := h.effectiveTest? .pass
  rw [(paint_eq_testRows mode scissor r s htest).2,
    (paint_eq_testRows mode scissor r s hother).2, visits_area, visits_area,
    Tested.passed_add_passed h, List.length_map]
  · -- the same three things for the pixels of a rectangle, which all have one depth
    rw [List.map_map]
    exact Region.nodup_index_pixels hon
  · intro v hv
    obtain ⟨p, hp, rfl⟩ := List.mem_map.1 hv
    exact Region.index_lt_size hon hp
  · intro v hv
    obtain ⟨p, hp, rfl⟩ := List.mem_map.1 hv
    exact Binary32.zero_le_toFloat32 r.depth

/-- Filling writes them all. -/
theorem written_paint_always (mode : LaneMode) (policy : RectangleTest) :
    (r.paint mode policy .always scissor s).written
      = (r.area scissor s).pixels.length := by
  have halways : effectiveTest? policy .always = some .always := rfl
  have hon : (r.area scissor s).On s := Region.on_inter_clip ..
  rw [(paint_eq_testRows mode scissor r s halways).2,
    passed_testRows_always hon, Region.length_pixels]

/-- Each pixel that is tested is counted. -/
theorem toNat_pixelsTested_paint (mode : LaneMode)
    (h : effectiveTest? .perPixel test = some test) (hne : test ≠ .always) :
    (r.paint mode .perPixel test scissor s).work.pixelsTested.toNat
      = (r.area scissor s).pixels.length := by
  have hon : (r.area scissor s).On s := Region.on_inter_clip ..
  have hlt := (r.area scissor s).length_pixels_lt
  have htested := (counts_testRows hon test r.depth).1
  rw [← Region.length_pixels] at htested
  cases hempty : (r.area scissor s).isEmpty with
  | true =>
    rw [testRows_of_isEmpty hon hempty] at htested
    have hpaint : r.paint mode .perPixel test scissor s = .nothing s 0 :=
      if_pos hempty
    rw [hpaint, ← htested]
    rfl
  | false =>
    have hpaint : r.paint mode .perPixel test scissor s
        = (testRows test r.depth (r.area scissor s).rowSpans s).painted
          (.count .rectsFilled 1) := by
      unfold paint
      dsimp only
      rw [hempty, if_neg Bool.false_ne_true]
      cases test with
      | never => cases h
      | always => exact absurd rfl hne
      | _ => rfl
    rw [hpaint]
    show (0 + (testRows test r.depth _ s).tested.toUInt64).toNat = _
    rw [UInt64.zero_add, htested]
    exact UInt64.toNat_ofNat_of_lt hlt

end Rectangle

end Painting

/-- **Complementary tests share out what is tested.** Painted on the same surface,
a triangle writes as many pixels under two complementary tests together as under
the test that always passes, which is all of its fragments, and as many are counted
as tested each time. The same holds for rectangles whose pixels are tested, where all
pixels are those of the rectangle that are in the scissor and on the surface: that is
what filling writes, though it tests nothing. -/
theorem Rasterizer.written_add_written (r : Rasterizer) (scissor : Region)
    (s : Surface) {test other : DepthTest} (h : test.Complementary other) :
    (∀ t : Triangle,
      let painted (test : DepthTest) := r.paintTriangle scissor t test s
      (painted test).written + (painted other).written
          = (painted .always).written
        ∧ (painted .always).written
          = (t.fragments r.mode r.policy .always (s.clip scissor)).length
        ∧ ∀ own ∈ [test, other, .always],
          (painted own).work.pixelsTested.toNat = (painted .always).written)
      ∧ (r.policy.rectangleTest = .perPixel → ∀ rectangle : Rectangle,
        let painted (test : DepthTest) :=
          r.paintRectangle scissor rectangle test s
        let area := (rectangle.area scissor s).pixels.length
        (painted test).written + (painted other).written = area
          ∧ (painted .always).written = area
          ∧ ∀ own ∈ [test, other],
            (painted own).work.pixelsTested.toNat = area) := by
  constructor
  · intro t painted
    -- no test of a pair is the one that never passes
    obtain ⟨htest, hother, -⟩ := h.effectiveTest? r.policy.triangleNever
    have halways := Triangle.effectiveTest?_always r.policy.triangleNever
    have hwritten : (painted .always).written
        = (t.fragments r.mode r.policy .always (s.clip scissor)).length :=
      Triangle.written_paint_always r.mode
    -- which pixels are tested does not depend on the test
    have htested {own : DepthTest} (hown : Triangle.effectiveTest?
          r.policy.triangleNever own = some own) :
        (painted own).work.pixelsTested.toNat = (painted .always).written := by
      rw [hwritten, ← Triangle.fragments_eq_always r.mode hown]
      exact Triangle.toNat_pixelsTested_paint r.mode
    refine ⟨(Triangle.written_paint_add h r.mode).trans hwritten.symm,
      hwritten, ?_⟩
    simp only [List.forall_mem_cons]
    exact ⟨htested htest, htested hother, htested halways, nofun⟩
  · intro hpolicy rectangle painted area
    -- nor the one that is filled without a test, so pixels are counted
    obtain ⟨-, -, htest, hother⟩ := h.effectiveTest? .pass
    have hpainted (own : DepthTest) : painted own
        = rectangle.paint r.mode .perPixel own scissor s := by
      show rectangle.paint r.mode r.policy.rectangleTest own scissor s = _
      rw [hpolicy]
    simp only [hpainted, List.forall_mem_cons]
    refine ⟨Rectangle.written_paint_add h r.mode,
      Rectangle.written_paint_always r.mode .perPixel, ?_, ?_, nofun⟩
    · exact Rectangle.toNat_pixelsTested_paint r.mode htest (by cases h <;> decide)
    · exact Rectangle.toNat_pixelsTested_paint r.mode hother (by cases h <;> decide)

/-- A triangle and a rectangle on a surface that is near on the left and far on the
right, one column of which is not in the scissor. Both are nearer than what is
stored on the right, and not on the left. -/
theorem Rasterizer.written_add_written_half_near :
    let r : Rasterizer := ⟨{ rectangleTest := .perPixel }, .wide⟩
    let scissor : Region := ⟨0, 0, 3, 4⟩
    let t : Triangle :=
      ⟨⟨0, 0, 300, false⟩, ⟨0, 8, 300, false⟩, ⟨8, 0, 300, false⟩⟩
    let rectangle : Rectangle := ⟨0, 0, 4, 3, 300⟩
    let row : Array UInt16 := #[100, 100, 500, 500]
    let s : Surface := .ofRows (row ++ row ++ row ++ row) 4
    let painted (test : DepthTest) := r.paintTriangle scissor t test s
    let filled (test : DepthTest) := r.paintRectangle scissor rectangle test s
    DepthTest.Complementary .less .greaterEqual
      ∧ (painted .less).written = 4 ∧ (painted .greaterEqual).written = 8
      ∧ (painted .always).written = 12
      ∧ (painted .less).work.pixelsTested.toNat = 12
      ∧ (filled .less).written = 3 ∧ (filled .greaterEqual).written = 6
      ∧ (filled .always).written = 9
      ∧ (filled .less).work.pixelsTested.toNat = 9 := by
  intro r scissor t rectangle row s painted filled
  obtain ⟨htriangles, hrectangles⟩ :=
    Rasterizer.written_add_written r scissor s DepthTest.Complementary.less
  obtain ⟨hpainted, -, htested⟩ := htriangles t
  obtain ⟨hfilled, halways, hcounted⟩ := hrectangles rfl rectangle
  have hless : (painted .less).written = 4 := by decide +kernel
  have hgreaterEqual : (painted .greaterEqual).written = 8 := by decide +kernel
  have hnearer : (filled .less).written = 3 := by decide +kernel
  have hfarther : (filled .greaterEqual).written = 6 := by decide +kernel
  have htwelve : (painted .always).written = 12 := by
    rw [← hpainted, hless, hgreaterEqual]
  have hnine : (filled .always).written = 9 := by
    rw [halways, ← hfilled, hnearer, hfarther]
  have htestedTwelve : (painted .less).work.pixelsTested.toNat = 12 := by
    rw [htested .less List.mem_cons_self, htwelve]
  have htestedNine : (filled .less).work.pixelsTested.toNat = 9 := by
    rw [hcounted .less List.mem_cons_self, ← halways, hnine]
  exact ⟨.less, hless, hgreaterEqual, htwelve, htestedTwelve, hnearer, hfarther,
    hnine, htestedNine⟩

end DepthPrepass
