import Mathlib.Algebra.GroupWithZero.Nat
import DepthPrepass.Proofs.Cells
import DepthPrepass.Proofs.CheckedAccess
import DepthPrepass.Rasterizer

/-!
# Strokes

A stroke is the painting of one rectangle or one triangle by some rasterizer,
in some scissor, under some test. What a cell receives from a stroke is decided
by the cell's pixel: the rectangle or the triangle has a candidate for it or
not, and the scissor lets it through or not. Neither what the cells hold nor the
order in which pixels are visited has a part in this.

* `Surface.Layout.pixel?`: the pixel of a cell.
* `Rectangle.candidate?`, `Triangle.candidate?`: what a pixel receives.
* `Rectangle.receives_paint`, `Triangle.receives_paint`: painting one of them.
* `Stroke.paintAll`, `Stroke.receives_paintAll`: painting strokes one after
  another.
-/

namespace DepthPrepass

/-! ## The pixel of a cell -/

namespace Surface.Layout

/-- The pixel of a cell. Padding has none. -/
def pixel? (layout : Layout) (j : Nat) : Option (Nat × Nat) :=
  if j % layout.stride < layout.width ∧ j / layout.stride < layout.height then
    some (j % layout.stride, j / layout.stride)
  else none

theorem pixel?_eq_some_iff {layout : Layout} {j : Nat} {p : Nat × Nat} :
    layout.pixel? j = some p
      ↔ p.1 < layout.width ∧ p.2 < layout.height
        ∧ layout.index p.1 p.2 = j := by
  have hw := layout.width_le_stride
  unfold pixel? index
  constructor
  · intro h
    split at h
    · next hin =>
      obtain rfl := Option.some.inj h
      refine ⟨hin.1, hin.2, ?_⟩
      rw [Nat.mul_comm]
      exact Nat.div_add_mod j layout.stride
    · cases h
  · rintro ⟨hx, hy, rfl⟩
    -- no row is wider than the stride, so the index can be taken apart
    have hlt : p.1 < layout.stride := by omega
    have hmod : (p.2 * layout.stride + p.1) % layout.stride = p.1 := by
      rw [Nat.mul_comm, Nat.mul_add_mod, Nat.mod_eq_of_lt hlt]
    have hdiv : (p.2 * layout.stride + p.1) / layout.stride = p.2 := by
      rw [Nat.mul_comm, Nat.mul_add_div (by omega), Nat.div_eq_of_lt hlt,
        Nat.add_zero]
    rw [hmod, hdiv, if_pos ⟨hx, hy⟩]

/-- What cell `j` receives where the pixels of a region receive what `c` says:
what its pixel receives, if that is in the region. -/
def candidateIn? (layout : Layout) (region : Region)
    (c : Nat × Nat → Option Candidate) (j : Nat) : Option Candidate :=
  (layout.pixel? j).bind fun p => if region.Covers p.1 p.2 then c p else none

end Surface.Layout

/-! ## Visits to the pixels of a region -/

section Visits

variable {region : Region} {s : Surface}

/-- In a list without repetitions, at most one item is the item of an
option. -/
theorem filter_eq_toList {α : Type} [DecidableEq α] {l : List α}
    (hl : l.Nodup) {q : α → Prop} [DecidablePred q] (o : Option α)
    (hq : ∀ a ∈ l, q a ↔ o = some a) :
    l.filter q = (o.filter (· ∈ l)).toList := by
  cases o with
  | none =>
    refine List.filter_eq_nil_iff.2 fun a ha hqa => ?_
    cases (hq a ha).1 (of_decide_eq_true hqa)
  | some b =>
    -- the items asked for are the copies of one, of which there is at most one
    have hfilter : l.filter q = l.filter (· == b) := by
      refine List.filter_congr fun a ha => ?_
      rw [Bool.eq_iff_iff, decide_eq_true_iff, hq a ha, Option.some.injEq,
        beq_iff_eq, eq_comm]
    rw [hfilter, List.filter_beq]
    by_cases hb : b ∈ l
    · rw [List.count_eq_one_of_mem hl hb]
      simp [Option.filter, hb]
    · rw [List.count_eq_zero_of_not_mem hb]
      simp [Option.filter, hb]

/-- Of the pixels of a region on a surface, at most one has a given cell. -/
theorem Region.filter_pixels (h : region.On s) (j : Nat) :
    region.pixels.filter (fun p => s.layout.index p.1 p.2 = j)
      = ((s.layout.pixel? j).filter fun p => region.Covers p.1 p.2).toList := by
  -- pixels of the region are pixels of the surface, where cells tell them apart
  have hcell (p : Nat × Nat) (hp : p ∈ region.pixels) :
      s.layout.index p.1 p.2 = j ↔ s.layout.pixel? j = some p := by
    obtain ⟨-, hx, -, hy⟩ := (mem_pixels h).1 hp
    have hr := h.right_le
    have hb := h.bottom_le
    rw [Surface.Layout.pixel?_eq_some_iff]
    exact ⟨fun hj => ⟨by omega, by omega, hj⟩, fun hj => hj.2.2⟩
  rw [filter_eq_toList region.nodup_pixels _ hcell]
  congr 2
  funext p
  exact decide_eq_decide.2 (mem_pixels h)

/-- Where each pixel of a region is visited at most once, its cell receives the
candidate of that visit. -/
theorem Tested.received_pixels (test : DepthTest) (h : region.On s)
    {visit? : Nat × Nat → Option Visit}
    (hcell : ∀ p v, visit? p = some v → v.cell = s.layout.index p.1 p.2)
    (j : Nat) :
    received test (region.pixels.filterMap visit?) j
      = (s.layout.candidateIn? region
          (fun p => (visit? p).map (Candidate.ofVisit test)) j).toList := by
  -- the visits to a cell are the visits to its pixel, if it is the cell of one
  have hfilter : (region.pixels.filterMap visit?).filter (·.cell = j)
      = (region.pixels.filter fun p =>
          s.layout.index p.1 p.2 = j).filterMap visit? := by
    rw [List.filter_filterMap, List.filterMap_filter]
    refine List.filterMap_congr fun p _ => ?_
    cases hv : visit? p with
    | none => simp
    | some v => simp [Option.filter, hcell p v hv]
  rw [received, hfilter, Region.filter_pixels h]
  unfold Surface.Layout.candidateIn?
  cases s.layout.pixel? j with
  | none => rfl
  | some p =>
    by_cases hp : region.Covers p.1 p.2
    · cases hv : visit? p <;> simp [Option.filter, hp, hv]
    · simp [Option.filter, hp]

/-- Visits to the pixels of a region, cell by cell. -/
theorem Tested.receives_pixels (test : DepthTest) (h : region.On s)
    (visit? : Nat × Nat → Option Visit)
    (hcell : ∀ p v, visit? p = some v → v.cell = s.layout.index p.1 p.2) :
    s.Receives
      (fun j => (s.layout.candidateIn? region
        (fun p => (visit? p).map (Candidate.ofVisit test)) j).toList)
      ((start s).visits test (region.pixels.filterMap visit?)).surface
      ((start s).visits test (region.pixels.filterMap visit?)).passed := by
  obtain ⟨written, hreceives, hpassed⟩ :=
    receives_visits test (start s) (region.pixels.filterMap visit?)
  have hreceived := funext (received_pixels test h hcell)
  have hwritten : ((start s).visits test
      (region.pixels.filterMap visit?)).passed = written :=
    hpassed.trans (Nat.zero_add written)
  rw [hwritten, ← hreceived]
  exact hreceives

end Visits

/-- What a region receives within a scissor, on a surface, is what the pixels of
the region receive where the scissor lets it through. -/
theorem Surface.candidateIn?_clip {s : Surface} {region scissor : Region}
    (c : Nat × Nat → Option Candidate) (j : Nat) :
    s.layout.candidateIn? (region.inter (s.clip scissor)) c j
      = s.layout.candidateIn? scissor
          (fun p => if region.Covers p.1 p.2 then c p else none) j := by
  unfold Layout.candidateIn?
  refine Option.bind_congr fun p hp => ?_
  obtain ⟨hx, hy, -⟩ := Layout.pixel?_eq_some_iff.1 hp
  -- on the surface, clipping takes away what the scissor does
  have hcovers : (region.inter (s.clip scissor)).Covers p.1 p.2
      ↔ scissor.Covers p.1 p.2 ∧ region.Covers p.1 p.2 := by
    rw [Region.covers_inter, covers_clip]
    constructor
    · rintro ⟨hregion, hscissor, -⟩
      exact ⟨hscissor, hregion⟩
    · rintro ⟨hscissor, hregion⟩
      exact ⟨hregion, hscissor, by omega, by omega, by omega, by omega⟩
  rw [if_congr hcovers rfl rfl, ite_and]

/-! ## Rectangles -/

namespace Rectangle

/-- The test that decides about the pixels of a rectangle, if it is painted at
all. -/
def effectiveTest? (policy : RectangleTest) (test : DepthTest) :
    Option DepthTest :=
  match test, policy with
  | .never, _ => none
  | .always, _ => some .always
  | _, .skip => none
  | test, .perPixel => some test

/-- What a pixel receives from a rectangle. -/
def candidate? (policy : RectangleTest) (test : DepthTest) (r : Rectangle)
    (p : Nat × Nat) : Option Candidate :=
  (effectiveTest? policy test).bind fun test =>
    if r.region.Covers p.1 p.2 then some ⟨test, r.depth.toFloat32, r.depth⟩
    else none

variable {policy : RectangleTest} {test test' : DepthTest} {scissor : Region}
  {r : Rectangle} {s : Surface} {mode : LaneMode}

/-- A visit under the test that always passes writes its cell, if there is
one. -/
theorem surface_visit_always (candidate : Float32) (value : UInt16)
    (t : Tested) (i : Nat) :
    (t.visit .always candidate value i).surface = t.surface.set i value := by
  obtain ⟨s, tested, passed, failed⟩ := t
  unfold Tested.visit
  dsimp only
  split
  · rfl
  · -- beyond the storage neither the visit nor the write changes anything
    next h =>
    refine Surface.ext_cells rfl (Array.ext_getElem? fun j => ?_)
    rw [Surface.getElem?_cells_set]
    by_cases hj : i = j
    · subst hj
      rw [if_pos rfl, if_neg h, Array.getElem?_eq_none (Nat.not_lt.1 h)]
    · rw [if_neg hj]

/-- A row that is filled has the cells of a row all of whose tests pass. -/
theorem surface_testSpan_always (mode : LaneMode) (depth : UInt16)
    (t : Tested) (span : RowSpan) :
    (testSpan .always depth t span).surface
      = t.surface.fillSpan mode depth span := by
  have hcells (n i : Nat) (t : Tested) :
      ((List.range' i n).foldl
          (Tested.visit .always depth.toFloat32 depth) t).surface
        = t.surface.fillCells .scalar depth i n := by
    induction n generalizing i t with
    | zero => rfl
    | succ n ih =>
      rw [List.range'_succ, List.foldl_cons, ih, surface_visit_always]
      rfl
  rw [testSpan, hcells]
  exact Surface.ext_cells rfl (RowFill.fill_eq_plain mode ..).symm

theorem surface_testRows_always (mode : LaneMode) (depth : UInt16)
    (spans : List RowSpan) (s : Surface) :
    (testRows .always depth spans s).surface = fillRows mode depth spans s := by
  have hrun (t : Tested) :
      (spans.foldl (testSpan .always depth) t).surface
        = fillRows mode depth spans t.surface := by
    induction spans generalizing t with
    | nil => rfl
    | cons span spans ih =>
      rw [List.foldl_cons, ih, surface_testSpan_always mode]
      rfl
  exact hrun (.start s)

/-- No test that always passes fails. -/
theorem failed_visits_always (vs : List Visit) (t : Tested) :
    (t.visits .always vs).failed = t.failed := by
  induction vs generalizing t with
  | nil => rfl
  | cons v vs ih =>
    refine (ih _).trans ?_
    obtain ⟨s, tested, passed, failed⟩ := t
    unfold Tested.visit
    dsimp only
    split <;> rfl

theorem passed_testRows_always {area : Region} (h : area.On s)
    (depth : UInt16) :
    (testRows .always depth area.rowSpans s).passed
      = area.columns * area.rows := by
  obtain ⟨-, hcounts⟩ := counts_testRows h .always depth
  have hfailed : (testRows .always depth area.rowSpans s).failed = 0 := by
    rw [testRows_eq_visits]
    exact failed_visits_always _ _
  rw [← hcounts, hfailed, Nat.add_zero]

/-- An area without pixels is not visited at all. -/
theorem testRows_of_isEmpty {area : Region} (h : area.On s)
    (hempty : area.isEmpty) (test : DepthTest) (depth : UInt16) :
    testRows test depth area.rowSpans s = .start s := by
  have hpixels : area.pixels = [] := by
    refine List.eq_nil_iff_forall_not_mem.2 fun p hp => ?_
    exact Region.isEmpty_iff_covers.1 hempty _ _ ((Region.mem_pixels h).1 hp)
  have hvisits := testRows_eq_visits test depth area.rowSpans s
  unfold Region.pixels at hpixels
  rw [hvisits, hpixels]
  rfl

/-- **Filling is testing**: a rectangle that is painted leaves what tests of its
pixels leave, and has written where they have passed. -/
theorem paint_eq_testRows (mode : LaneMode) (scissor : Region) (r : Rectangle)
    (s : Surface) (htest : effectiveTest? policy test = some test') :
    (r.paint mode policy test scissor s).surface
        = (testRows test' r.depth (r.area scissor s).rowSpans s).surface
      ∧ (r.paint mode policy test scissor s).written
        = (testRows test' r.depth (r.area scissor s).rowSpans s).passed := by
  have hon : (r.area scissor s).On s := Region.on_inter_clip ..
  unfold paint
  dsimp only
  split
  · next hempty =>
    rw [testRows_of_isEmpty hon hempty]
    exact ⟨rfl, rfl⟩
  · -- the test leaves two ways to paint: fill, or test pixel by pixel
    cases test with
    | never => cases htest
    | always =>
      cases htest
      exact ⟨(surface_testRows_always mode ..).symm,
        (passed_testRows_always hon r.depth).symm⟩
    | _ =>
      cases policy with
      | skip => cases htest
      | perPixel =>
        cases htest
        exact ⟨Tested.surface_painted .., Tested.written_painted ..⟩

theorem paint_eq_nothing (htest : effectiveTest? policy test = none) :
    r.paint mode policy test scissor s = .nothing s 0 := by
  unfold paint
  dsimp only
  split
  · rfl
  · cases test with
    | never => rfl
    | always => cases htest
    | _ =>
      cases policy with
      | skip => rfl
      | perPixel => cases htest

/-- **A rectangle** gives its depth to its pixels, if the policy has it painted
under the test. -/
theorem receives_paint (mode : LaneMode) (policy : RectangleTest)
    (test : DepthTest) (scissor : Region) (r : Rectangle) (s : Surface) :
    s.Receives
      (fun j => (s.layout.candidateIn? scissor
        (r.candidate? policy test) j).toList)
      (r.paint mode policy test scissor s).surface
      (r.paint mode policy test scissor s).written := by
  cases htest : effectiveTest? policy test with
  | none =>
    have hnone (j : Nat) : (s.layout.candidateIn? scissor
        (r.candidate? policy test) j).toList = [] := by
      unfold Surface.Layout.candidateIn? candidate?
      rw [htest]
      simp
    simp only [hnone, paint_eq_nothing htest]
    exact .nothing s
  | some test' =>
    obtain ⟨hsurface, hwritten⟩ := paint_eq_testRows mode scissor r s htest
    have hon : (r.area scissor s).On s := Region.on_inter_clip ..
    -- each pixel of the area is visited once, in the order of the rows
    have htests : testRows test' r.depth (r.area scissor s).rowSpans s
        = (Tested.start s).visits test' ((r.area scissor s).pixels.filterMap
            fun p => some (visit s.layout r.depth p)) := by
      rw [testRows_eq_visits, List.filterMap_eq_map']
      rfl
    have hreceives := Tested.receives_pixels test' hon
      (fun p => some (visit s.layout r.depth p))
      (fun p v hv => (Option.some.inj hv) ▸ rfl)
    -- what the area receives is what the scissor leaves of the rectangle
    have hcandidates (j : Nat) :
        s.layout.candidateIn? (r.area scissor s)
            (fun p => (some (visit s.layout r.depth p)).map
              (Candidate.ofVisit test')) j
          = s.layout.candidateIn? scissor (r.candidate? policy test) j := by
      rw [area, Surface.candidateIn?_clip]
      unfold candidate?
      rw [htest]
      rfl
    simp only [hcandidates] at hreceives
    rw [hsurface, hwritten, htests]
    exact hreceives

end Rectangle

/-! ## Triangles -/

namespace Triangle

/-- The fragment at a pixel of a triangle whose corners are in order. -/
def fragmentAt? (t : Triangle) (p : Nat × Nat) : Option Fragment :=
  (t.walkIn t.box).fragmentAt? p.1 p.2

/-- The region of a walk does not matter to a single pixel. -/
theorem fragmentAt?_walkIn (t : Triangle) (region : Region) (p : Nat × Nat) :
    (t.walkIn region).fragmentAt? p.1 p.2 = t.fragmentAt? p := rfl

/-- What a pixel receives from a triangle: its fragment there, if a drawn side
of it is seen. -/
def candidate? (policy : Policy) (test : DepthTest) (t : Triangle)
    (p : Nat × Nat) : Option Candidate :=
  (effectiveTest? policy.triangleNever test).bind fun test =>
    if t.box.Covers p.1 p.2 ∧ 0 < Edge.area (t.drawn policy.culling) then
      ((t.drawn policy.culling).fragmentAt? p).map fun f =>
        ⟨test, f.depth, f.depth.toUInt16⟩
    else none

variable {policy : Policy} {test test' : DepthTest} {scissor : Region}
  {t : Triangle} {s : Surface} {walk : Walk}

/-- A triangle that is not drawn within a scissor has nothing for the pixels
there: no test, no pixel of its box, or no area. -/
theorem candidateIn?_of_plan_eq_error {rejection : Rejection}
    (h : t.plan policy test (s.clip scissor) = .error rejection) (j : Nat) :
    s.layout.candidateIn? scissor (t.candidate? policy test) j = none := by
  rw [Surface.Layout.candidateIn?, Option.bind_eq_none_iff]
  intro p hp
  split
  · next hscissor =>
    unfold candidate?
    rw [Option.bind_eq_none_iff]
    intro test' htest
    refine if_neg ?_
    rintro ⟨hbox, harea⟩
    obtain ⟨hx, hy, -⟩ := Surface.Layout.pixel?_eq_some_iff.1 hp
    have hclip : (s.clip scissor).Covers p.1 p.2 :=
      Surface.covers_clip.2
        ⟨hscissor, by omega, by omega, by omega, by omega⟩
    have hempty : (t.box.inter (s.clip scissor)).isEmpty = false := by
      refine Bool.eq_false_iff.2 fun hempty => ?_
      exact Region.isEmpty_iff_covers.1 hempty _ _
        (Region.covers_inter.2 ⟨hbox, hclip⟩)
    have hplan := plan_eq_ok_iff.2 ⟨htest, hempty, harea, rfl⟩
    rw [h] at hplan
    cases hplan
  · rfl

/-- A triangle that is drawn within a scissor has its fragments for the pixels
there. -/
theorem candidateIn?_of_plan_eq_ok
    (h : t.plan policy test (s.clip scissor) = .ok (test', walk)) (j : Nat) :
    s.layout.candidateIn? walk.region
        (fun p => ((walk.fragmentAt? p.1 p.2).map
          (Fragment.visit s.layout)).map (Candidate.ofVisit test')) j
      = s.layout.candidateIn? scissor (t.candidate? policy test) j := by
  obtain ⟨htest, -, harea, hwalk⟩ := plan_eq_ok_iff.1 h
  have hregion : walk.region = t.box.inter (s.clip scissor) := by
    rw [← hwalk]
    rfl
  have hfragment (p : Nat × Nat) : walk.fragmentAt? p.1 p.2
      = (t.drawn policy.culling).fragmentAt? p := by
    rw [← hwalk]
    exact fragmentAt?_walkIn ..
  -- with a test and an area, only box and fragment are left to ask
  have hcandidate (p : Nat × Nat) : t.candidate? policy test p
      = if t.box.Covers p.1 p.2 then
          (((t.drawn policy.culling).fragmentAt? p).map
            (Fragment.visit s.layout)).map (Candidate.ofVisit test')
        else none := by
    unfold candidate?
    rw [htest, Option.bind_some]
    cases (t.drawn policy.culling).fragmentAt? p with
    | none => simp
    | some f => simp [harea, Candidate.ofVisit, Fragment.visit]
  rw [hregion, Surface.candidateIn?_clip, funext hcandidate]
  simp only [hfragment]

/-- **A triangle** gives its fragments to its pixels. -/
theorem receives_paint (mode : LaneMode) (policy : Policy) (test : DepthTest)
    (scissor : Region) (t : Triangle) (s : Surface) :
    s.Receives
      (fun j => (s.layout.candidateIn? scissor
        (t.candidate? policy test) j).toList)
      (t.paint mode policy test scissor s).surface
      (t.paint mode policy test scissor s).written := by
  cases hplan : t.plan policy test (s.clip scissor) with
  | error rejection =>
    have hpaint : t.paint mode policy test scissor s
        = .nothing s (.count .trianglesSubmitted 1 + rejection.work) := by
      simp only [paint, hplan]
    simp only [candidateIn?_of_plan_eq_error hplan, hpaint]
    exact .nothing s
  | ok planned =>
    obtain ⟨test', walk⟩ := planned
    have hon : walk.region.On s := on_of_plan_eq_ok hplan
    have hpaint : t.paint mode policy test scissor s
        = ((Tested.start s).visits test' (walk.region.pixels.filterMap fun p =>
            (walk.fragmentAt? p.1 p.2).map (Fragment.visit s.layout))).painted
              (.count .trianglesSubmitted 1) := by
      simp only [paint, hplan]
      rw [Tested.fragments_eq_visits, walk.fragments_eq mode hon,
        List.map_filterMap]
    -- a fragment is tested against the cell of its own pixel
    have hcell (p : Nat × Nat) (v : Visit)
        (hv : (walk.fragmentAt? p.1 p.2).map (Fragment.visit s.layout)
          = some v) : v.cell = s.layout.index p.1 p.2 := by
      unfold Walk.fragmentAt? Walk.fragmentOf? at hv
      split at hv
      · cases hv
        rfl
      · cases hv
    have hreceives := Tested.receives_pixels test' hon _ hcell
    simp only [candidateIn?_of_plan_eq_ok hplan] at hreceives
    rw [hpaint, Tested.surface_painted, Tested.written_painted]
    exact hreceives

end Triangle

/-! ## Strokes -/

/-- What a stroke paints. -/
inductive Shape where
  | rectangle (r : Rectangle)
  | triangle (t : Triangle)

/-- What a pixel receives from a shape that is painted. -/
def Shape.candidate? (rasterizer : Rasterizer) (test : DepthTest)
    (shape : Shape) (p : Nat × Nat) : Option Candidate :=
  match shape with
  | .rectangle r => r.candidate? rasterizer.policy.rectangleTest test p
  | .triangle t => t.candidate? rasterizer.policy test p

/-- A rectangle or a triangle, and how and where it is painted. -/
structure Stroke where
  rasterizer : Rasterizer
  scissor : Region
  test : DepthTest
  shape : Shape

namespace Stroke

/-- What painting a stroke leaves. -/
def paint (stroke : Stroke) (s : Surface) : Painted :=
  match stroke.shape with
  | .rectangle r =>
    stroke.rasterizer.paintRectangle stroke.scissor r stroke.test s
  | .triangle t =>
    stroke.rasterizer.paintTriangle stroke.scissor t stroke.test s

/-- What painting each of a list of strokes leaves, each on what the one before
has left. -/
def paintEach : List Stroke → (s : Surface) → List Painted
  | [], _ => []
  | stroke :: strokes, s =>
    stroke.paint s :: paintEach strokes (stroke.paint s).surface

/-- The surface after a list of strokes. -/
def paintAll (strokes : List Stroke) (s : Surface) : Surface :=
  strokes.foldl (fun s stroke => (stroke.paint s).surface) s

/-- What a cell receives from a stroke: what its pixel receives from the shape,
if the scissor lets it through. -/
def candidateAt? (layout : Surface.Layout) (stroke : Stroke) (j : Nat) :
    Option Candidate :=
  layout.candidateIn? stroke.scissor
    (stroke.shape.candidate? stroke.rasterizer stroke.test) j

theorem receives_paint (stroke : Stroke) (s : Surface) :
    s.Receives (fun j => (stroke.candidateAt? s.layout j).toList)
      (stroke.paint s).surface (stroke.paint s).written := by
  obtain ⟨rasterizer, scissor, test, shape⟩ := stroke
  cases shape with
  | rectangle r => exact r.receives_paint ..
  | triangle t => exact t.receives_paint ..

@[simp] theorem layout_paint (stroke : Stroke) (s : Surface) :
    (stroke.paint s).surface.layout = s.layout :=
  (stroke.receives_paint s).layout_eq

/-- **Strokes one after another**: a cell receives what each of them has for it,
in their order. -/
theorem receives_paintAll (strokes : List Stroke) (s : Surface) :
    s.Receives (fun j => strokes.filterMap (·.candidateAt? s.layout j))
      (paintAll strokes s)
      ((paintEach strokes s).map (·.written)).sum := by
  -- the first stroke paints on the surface, the others on what it leaves
  induction strokes generalizing s with
  | nil => exact .nothing s
  | cons stroke strokes ih =>
    have hrest := (stroke.receives_paint s).append
      (ih (stroke.paint s).surface)
    have hcandidates (j : Nat) :
        (stroke :: strokes).filterMap (·.candidateAt? s.layout j)
          = (stroke.candidateAt? s.layout j).toList
            ++ strokes.filterMap
              (·.candidateAt? (stroke.paint s).surface.layout j) := by
      rw [layout_paint, List.filterMap_cons]
      cases stroke.candidateAt? s.layout j with
      | none => rfl
      | some c => rfl
    simp only [hcandidates]
    exact hrest

end Stroke

end DepthPrepass
