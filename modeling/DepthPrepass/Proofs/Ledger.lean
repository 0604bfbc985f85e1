import Mathlib.Data.List.DropRight
import DepthPrepass.Proofs.DrawStrokes
import DepthPrepass.Session

/-!
# The counters as a ledger

Counters are incremented in many places, some of them behind tests that end a
painting early. But all that they say can be said from outside: from what was
painted since they were last reset, and from the answers that were given. Each
painting and each command has a work of its own, the counters are the sum of
these works, and every law of the counters is a law of a single work that sums
respect.

* `Stroke.counted_paint`: the five ways to paint a stroke, with their work.
* `Entry`, `Session.history`: the commands of a run, each with what it found.
* `Ledger`, `Ledger.ofWork`: what the counters say about entries, and why.
* `Session.counters_step`, `Session.counters_run`: the counters are the sum of
  the works since the last reset.
* `Session.ledger_run`: the counters after any commands.
-/

namespace DepthPrepass

/-! ## The work of a stroke -/

/-- Whether a rectangle is filled or tested in some pixel: something of it is in
the scissor and on the surface, and it is painted without a test or the policy
has it tested. -/
def Rectangle.IsFilled (policy : RectangleTest) (test : DepthTest)
    (scissor : Region) (r : Rectangle) (s : Surface) : Prop :=
  (r.area scissor s).isEmpty = false
    ∧ (test = .always ∨ (test ≠ .never ∧ policy = .perPixel))

instance (policy : RectangleTest) (test : DepthTest) (scissor : Region)
    (r : Rectangle) (s : Surface) :
    Decidable (r.IsFilled policy test scissor s) :=
  inferInstanceAs (Decidable (_ ∧ _))

theorem Tested.Balanced.sum_eq {t : Tested} (h : t.Balanced) :
    t.passed + t.failed = t.tested := h

namespace Stroke

/-- Whether a stroke fills or tests a rectangle. -/
def IsFill (stroke : Stroke) (s : Surface) : Prop :=
  match stroke.shape with
  | .rectangle r =>
    r.IsFilled stroke.rasterizer.policy.rectangleTest stroke.test
      stroke.scissor s
  | .triangle _ => False

instance (stroke : Stroke) (s : Surface) : Decidable (stroke.IsFill s) :=
  match stroke with
  | ⟨rasterizer, scissor, test, .rectangle r⟩ =>
    inferInstanceAs (Decidable
      (r.IsFilled rasterizer.policy.rectangleTest test scissor s))
  | ⟨_, _, _, .triangle _⟩ => instDecidableFalse

theorem isFill_rectangle {rasterizer : Rasterizer} {scissor : Region}
    {test : DepthTest} {r : Rectangle} {s : Surface} :
    IsFill ⟨rasterizer, scissor, test, .rectangle r⟩ s
      ↔ r.IsFilled rasterizer.policy.rectangleTest test scissor s := Iff.rfl

theorem not_isFill_of_isTriangle {stroke : Stroke} {s : Surface}
    (h : stroke.shape.isTriangle = true) : ¬ stroke.IsFill s := by
  obtain ⟨rasterizer, scissor, test, shape⟩ := stroke
  cases shape with
  | rectangle r => cases h
  | triangle t => exact id

/-- Whether the cells that a stroke writes count as having passed a test:
those of a rectangle do not if its test always passes. -/
def IsTested (stroke : Stroke) : Prop :=
  stroke.shape.isTriangle = true ∨ stroke.test ≠ .always

instance (stroke : Stroke) : Decidable stroke.IsTested :=
  inferInstanceAs (Decidable (_ ∨ _))

/-- What painting a stroke counts as, and how many cells it writes. -/
inductive Counted (stroke : Stroke) (s : Surface) :
    (work : Counters) → (written : Nat) → Prop
  /-- A rectangle that is not painted. -/
  | ignored (hshape : stroke.shape.isTriangle = false)
    (hfill : ¬ stroke.IsFill s) : Counted stroke s 0 0
  /-- A rectangle that is filled without a test. -/
  | filled (hshape : stroke.shape.isTriangle = false) (hfill : stroke.IsFill s)
    (htest : stroke.test = .always) (written : Nat) :
    Counted stroke s (.count .rectsFilled 1) written
  /-- A rectangle whose pixels are tested. -/
  | rectangle (hshape : stroke.shape.isTriangle = false)
    (hfill : stroke.IsFill s) (htest : stroke.test ≠ .always) (t : Tested)
    (h : t.Balanced) : Counted stroke s (.count .rectsFilled 1 + t.work) t.passed
  /-- A triangle that is not drawn. -/
  | rejected (hshape : stroke.shape.isTriangle = true)
    (rejection : Triangle.Rejection) :
    Counted stroke s (.count .trianglesSubmitted 1 + rejection.work) 0
  /-- A triangle whose pixels are tested. -/
  | triangle (hshape : stroke.shape.isTriangle = true) (t : Tested)
    (h : t.Balanced) :
    Counted stroke s (.count .trianglesSubmitted 1 + t.work) t.passed

/-- Tests of fragments balance. -/
theorem balanced_fragments (test : DepthTest) (fs : List Fragment)
    (s : Surface) : (Tested.fragments test fs s).Balanced := by
  rw [Tested.fragments_eq_visits]
  exact (Tested.balanced_start s).visits _

theorem balanced_testRows (test : DepthTest) (depth : UInt16)
    (spans : List RowSpan) (s : Surface) :
    (Rectangle.testRows test depth spans s).Balanced := by
  rw [Rectangle.testRows_eq_visits]
  exact (Tested.balanced_start s).visits _

/-- A rectangle whose pixels are tested is one whose pixels the policy has
tested. -/
theorem counted_testRows {rasterizer : Rasterizer} {scissor : Region}
    {test : DepthTest} {r : Rectangle} {s : Surface}
    (hnonempty : (r.area scissor s).isEmpty = false)
    (hpolicy : rasterizer.policy.rectangleTest = .perPixel)
    (hnever : test ≠ .never) (halways : test ≠ .always)
    (spans : List RowSpan) :
    let painted := (Rectangle.testRows test r.depth spans s).painted
      (.count .rectsFilled 1)
    Counted ⟨rasterizer, scissor, test, .rectangle r⟩ s painted.work
      painted.written := by
  intro painted
  have hwork := Tested.work_painted (Rectangle.testRows test r.depth spans s)
    (.count .rectsFilled 1)
  have hwritten := Tested.written_painted
    (Rectangle.testRows test r.depth spans s) (.count .rectsFilled 1)
  rw [hwork, hwritten]
  exact .rectangle rfl
    (isFill_rectangle.2 ⟨hnonempty, .inr ⟨hnever, hpolicy⟩⟩) halways _
    (balanced_testRows ..)

theorem counted_paintTriangle (rasterizer : Rasterizer) (scissor : Region)
    (test : DepthTest) (t : Triangle) (s : Surface) :
    let painted := t.paint rasterizer.mode rasterizer.policy test scissor s
    Counted ⟨rasterizer, scissor, test, .triangle t⟩ s painted.work
      painted.written := by
  intro painted
  unfold painted Triangle.paint
  dsimp only
  split
  · next rejection _ => exact .rejected rfl rejection
  · exact .triangle rfl _ (balanced_fragments ..)

theorem counted_paintRectangle (rasterizer : Rasterizer) (scissor : Region)
    (test : DepthTest) (r : Rectangle) (s : Surface) :
    let painted := r.paint rasterizer.mode rasterizer.policy.rectangleTest test
      scissor s
    Counted ⟨rasterizer, scissor, test, .rectangle r⟩ s painted.work
      painted.written := by
  intro painted
  unfold painted Rectangle.paint
  dsimp only
  split
  · next hempty =>
    -- an empty area, a test that never passes and a skipped one are no fill
    refine .ignored rfl fun hfill => ?_
    have hnonempty : (r.area scissor s).isEmpty = false := hfill.1
    rw [hempty] at hnonempty
    cases hnonempty
  · next hnonempty =>
    have hnonempty := Bool.eq_false_iff.2 hnonempty
    cases test with
    | never =>
      refine .ignored rfl fun hfill => ?_
      rcases hfill.2 with ⟨⟨⟩⟩ | ⟨hnever, -⟩
      exact hnever rfl
    | always =>
      exact .filled rfl (isFill_rectangle.2 ⟨hnonempty, .inl rfl⟩) rfl _
    | _ =>
      cases hpolicy : rasterizer.policy.rectangleTest with
      | skip =>
        refine .ignored rfl fun hfill => ?_
        rcases hfill.2 with ⟨⟨⟩⟩ | ⟨-, hperPixel⟩
        rw [hpolicy] at hperPixel
        cases hperPixel
      | perPixel =>
        exact counted_testRows hnonempty hpolicy (by nofun) (by nofun) _

/-- **The ways to paint a stroke.** -/
theorem counted_paint (stroke : Stroke) (s : Surface) :
    stroke.Counted s (stroke.paint s).work (stroke.paint s).written := by
  obtain ⟨rasterizer, scissor, test, shape⟩ := stroke
  cases shape with
  | rectangle r => exact counted_paintRectangle ..
  | triangle t => exact counted_paintTriangle ..

/-! ### The counters of a stroke -/

namespace Counted

variable {stroke : Stroke} {s : Surface} {work : Counters} {written : Nat}

/-- Each test passes or fails. -/
theorem pixelsTested_eq (h : stroke.Counted s work written) :
    work.get .pixelsTested
      = work.get .depthPassed + work.get .depthFailed := by
  cases h with
  | ignored | filled => rfl
  | rectangle _ _ _ t ht | triangle _ t ht =>
    show 0 + t.tested.toUInt64
      = 0 + t.passed.toUInt64 + (0 + t.failed.toUInt64)
    rw [UInt64.zero_add, UInt64.zero_add, UInt64.zero_add, ← ht.sum_eq]
    exact UInt64.ofNat_add ..
  | rejected _ rejection => cases rejection <;> rfl

/-- Tests that pass write. -/
theorem depthPassed_eq (h : stroke.Counted s work written) :
    work.get .depthPassed = if stroke.IsTested then written.toUInt64 else 0 := by
  -- fills write without a test, and a rejected triangle tests nothing
  cases h with
  | ignored => split <;> rfl
  | filled hshape _ htest =>
    refine (if_neg ?_).symm
    rintro (htriangle | hnot)
    · rw [hshape] at htriangle
      cases htriangle
    · exact hnot htest
  | rectangle _ _ htest t =>
    have htested : stroke.IsTested := .inr htest
    rw [if_pos htested]
    exact UInt64.zero_add _
  | rejected hshape rejection =>
    have htested : stroke.IsTested := .inl hshape
    rw [if_pos htested]
    cases rejection <;> rfl
  | triangle hshape t =>
    have htested : stroke.IsTested := .inl hshape
    rw [if_pos htested]
    exact UInt64.zero_add _

theorem rectsFilled_eq (h : stroke.Counted s work written) :
    work.get .rectsFilled = if stroke.IsFill s then 1 else 0 := by
  cases h with
  | ignored _ hfill => exact (if_neg hfill).symm
  | filled _ hfill => exact (if_pos hfill).symm
  | rectangle _ hfill => exact (if_pos hfill).symm
  | rejected hshape rejection =>
    rw [if_neg (not_isFill_of_isTriangle hshape)]
    cases rejection <;> rfl
  | triangle hshape =>
    rw [if_neg (not_isFill_of_isTriangle hshape)]
    rfl

theorem trianglesSubmitted_eq (h : stroke.Counted s work written) :
    work.get .trianglesSubmitted
      = stroke.shape.isTriangle.toNat.toUInt64 := by
  cases h with
  | ignored hshape | filled hshape | rectangle hshape =>
    rw [hshape]
    rfl
  | rejected hshape rejection =>
    rw [hshape]
    cases rejection <;> rfl
  | triangle hshape =>
    rw [hshape]
    rfl

/-- **Rejections**: what is counted as culled or off the scissor is a triangle,
it is counted once, and none of its pixels is tested. -/
theorem rejections (h : stroke.Counted s work written) :
    (work.trianglesCulled = 0 ∧ work.trianglesOffScissor = 0)
      ∨ (stroke.shape.isTriangle = true
        ∧ work.trianglesCulled + work.trianglesOffScissor = 1
        ∧ (work.trianglesCulled = 0 ∨ work.trianglesOffScissor = 0)
        ∧ work.pixelsTested = 0 ∧ written = 0) := by
  cases h with
  | ignored | filled | rectangle | triangle => exact .inl ⟨rfl, rfl⟩
  | rejected hshape rejection =>
    cases rejection with
    | never => exact .inl ⟨rfl, rfl⟩
    | offScissor => exact .inr ⟨hshape, rfl, .inl rfl, rfl, rfl⟩
    | culled => exact .inr ⟨hshape, rfl, .inr rfl, rfl, rfl⟩

/-- Painting is no draw, skips none and leaves none out, and it is no
clearing. -/
theorem others_eq_zero (h : stroke.Counted s work written) :
    work.get .drawCalls = 0 ∧ work.get .drawsSkipped = 0
      ∧ work.get .trianglesBehind = 0 ∧ work.get .bufferClears = 0 := by
  cases h with
  | rejected _ rejection => cases rejection <;> exact ⟨rfl, rfl, rfl, rfl⟩
  | _ => exact ⟨rfl, rfl, rfl, rfl⟩

end Counted

end Stroke

/-- The painting of a stroke on a surface. -/
structure Painting where
  stroke : Stroke
  before : Surface

namespace Painting

/-- What a painting leaves. -/
def result (p : Painting) : Painted :=
  p.stroke.paint p.before

/-- Whether a painting counts as something. -/
def Counts (p : Painting) (k : Counter) : Prop :=
  p.result.work.get k ≠ 0

instance (p : Painting) (k : Counter) : Decidable (p.Counts k) :=
  inferInstanceAs (Decidable (_ ≠ _))

theorem counted (p : Painting) :
    p.stroke.Counted p.before p.result.work p.result.written :=
  p.stroke.counted_paint p.before

/-- A rejected triangle is counted once, as a triangle that was submitted and
as culled or off the scissor, but not both, and nothing of it is tested. -/
theorem rejected (p : Painting) {k : Counter} (h : p.Counts k)
    (hk : k = .trianglesCulled ∨ k = .trianglesOffScissor) :
    p.stroke.shape.isTriangle = true
      ∧ ¬ (p.Counts .trianglesCulled ∧ p.Counts .trianglesOffScissor)
      ∧ p.result.work.pixelsTested = 0 ∧ p.result.written = 0 := by
  rcases p.counted.rejections with
    ⟨hculled, hoff⟩ | ⟨htriangle, -, hone, htested, hwritten⟩
  · rcases hk with rfl | rfl
    · exact absurd hculled h
    · exact absurd hoff h
  · refine ⟨htriangle, ?_, htested, hwritten⟩
    rintro ⟨hculled, hoff⟩
    rcases hone with hone | hone
    · exact hculled hone
    · exact hoff hone

/-- What is counted as culled or off the scissor is counted as one. -/
theorem get_rejected (p : Painting) {k : Counter}
    (hk : k = .trianglesCulled ∨ k = .trianglesOffScissor) :
    p.result.work.get k = if p.Counts k then 1 else 0 := by
  -- the two rejections exclude each other
  by_cases h : p.Counts k
  · rw [if_pos h]
    rcases p.counted.rejections with
      ⟨hculled, hoff⟩ | ⟨-, hsum, hone, -⟩
    · rcases hk with rfl | rfl
      · exact absurd hculled h
      · exact absurd hoff h
    · rcases hk with rfl | rfl
      · rw [hone.resolve_left h, UInt64.add_zero] at hsum
        exact hsum
      · rw [hone.resolve_right h, UInt64.zero_add] at hsum
        exact hsum
  · rw [if_neg h]
    exact not_not.1 h

end Painting

/-- The paintings of strokes one after another. -/
def Stroke.paintings : List Stroke → (s : Surface) → List Painting
  | [], _ => []
  | stroke :: strokes, s =>
    ⟨stroke, s⟩ :: paintings strokes (stroke.paint s).surface

theorem Stroke.map_result_paintings (strokes : List Stroke) (s : Surface) :
    (paintings strokes s).map (·.result) = paintEach strokes s := by
  induction strokes generalizing s with
  | nil => rfl
  | cons stroke strokes ih => exact congrArg (_ :: ·) (ih _)

theorem Stroke.countP_paintings (p : Stroke → Bool) (strokes : List Stroke)
    (s : Surface) :
    (paintings strokes s).countP (fun q => p q.stroke) = strokes.countP p := by
  induction strokes generalizing s with
  | nil => rfl
  | cons stroke strokes ih => rw [paintings, List.countP_cons, List.countP_cons, ih]

/-! ## The work of a command -/

/-- The kinds of command. -/
inductive Command.Kind where
  | fill
  | triangle
  | draw
  | clear
  | choose
  | resetCounters
deriving DecidableEq

/-- The kind of a command. -/
def Command.kind : Command → Kind
  | fill .. => .fill
  | triangle .. => .triangle
  | draw .. => .draw
  | clear .. => .clear
  | choose .. => .choose
  | resetCounters => .resetCounters

/-- A command of a run, and the session as the command finds it. -/
structure Entry where
  before : Session
  command : Command

namespace Entry

variable (e : Entry)

/-- How the command goes. -/
def reply : Reply :=
  (e.before.step e.command).2

/-- Whether the command is of a kind. -/
def is (kind : Command.Kind) : Bool :=
  e.command.kind == kind

/-- Whether the answer is that a draw was skipped. -/
def isSkipped : Bool :=
  match e.reply.answer with
  | .drawn outcome => Draw.isSkipped outcome
  | .written _ | .done => false

/-- The statistics in the answer to a draw. -/
def stats : DrawStats :=
  match e.reply.answer with
  | .drawn outcome => Draw.stats outcome
  | .written _ | .done => {}

/-- The number of cells that the answer says were written. -/
def reported : Nat :=
  match e.reply.answer with
  | .written cells => cells
  | .drawn outcome => (Draw.stats outcome).pixelsWritten
  | .done => 0

/-- What the command paints. -/
def strokes : List Stroke :=
  let r := e.before.rasterizer
  let within (scissor : Option Region) := scissor.getD e.before.surface.bounds
  match e.command with
  | .fill rectangle test scissor =>
    [⟨r, within scissor, test, .rectangle rectangle⟩]
  | .triangle triangle test scissor =>
    [⟨r, within scissor, test, .triangle triangle⟩]
  | .draw draw layout state data scissor =>
    draw.strokes r (within scissor) layout state data e.before.scratch.capacity
  | .clear .. | .choose _ | .resetCounters => []

/-- The paintings of the command. -/
def paintings : List Painting :=
  Stroke.paintings e.strokes e.before.surface

/-- What the command counts as apart from what it paints. -/
def ownWork : Counters :=
  { drawCalls := (e.is .draw).toNat.toUInt64
    drawsSkipped := e.isSkipped.toNat.toUInt64
    trianglesBehind := e.stats.trianglesBehind.toUInt64
    bufferClears := (e.is .clear).toNat.toUInt64 }

/-- What the command counts as. -/
def work : Counters :=
  (e.paintings.map (·.result.work)).sum + e.ownWork

/-- A command's account: what it leaves and what it adds to the counters, and
that its answer is the truth about its paintings. -/
structure Accounted : Prop where
  surface_eq : e.is .clear = false → (e.before.step e.command).1.surface
    = Stroke.paintAll e.strokes e.before.surface
  counters_eq : (e.before.step e.command).1.counters
    = if e.is .resetCounters then 0 else e.before.counters + e.work
  reported_eq : e.reported = (e.paintings.map (·.result.written)).sum
  triangles_eq : e.paintings.countP (·.stroke.shape.isTriangle)
    = (e.is .triangle).toNat + e.stats.triangles

/-- The account of a command that paints one stroke itself. -/
theorem accounted_paint {stroke : Stroke} (hstrokes : e.strokes = [stroke])
    (hstep : e.before.step e.command
      = e.before.paint (stroke.paint e.before.surface))
    (hreset : e.is .resetCounters = false) (hdraw : e.is .draw = false)
    (hclear : e.is .clear = false)
    (htriangle : e.is .triangle = stroke.shape.isTriangle) : e.Accounted := by
  have hreply : e.reply = ⟨.written (stroke.paint e.before.surface).written, []⟩ :=
    congrArg Prod.snd hstep
  have hpaintings : e.paintings = [⟨stroke, e.before.surface⟩] := by
    unfold paintings
    rw [hstrokes]
    rfl
  have hown : e.ownWork = 0 := by
    unfold ownWork isSkipped stats
    rw [hdraw, hclear, hreply]
    rfl
  constructor
  · intro _
    rw [hstep, hstrokes]
    rfl
  · rw [hstep, hreset, work, hpaintings, hown, add_zero]
    exact congrArg (_ + ·) (add_zero _).symm
  · unfold reported
    rw [hreply, hpaintings]
    rfl
  · unfold stats
    rw [hreply, hpaintings, htriangle]
    cases h : stroke.shape.isTriangle <;> simp [h]

/-- The account of a command that paints nothing. -/
theorem accounted_other (hanswer : e.reply.answer = .done)
    (hstrokes : e.strokes = []) (htriangle : e.is .triangle = false)
    (hsurface : e.is .clear = false →
      (e.before.step e.command).1.surface = e.before.surface)
    (hcounters : (e.before.step e.command).1.counters
      = if e.is .resetCounters then 0 else e.before.counters
          + { drawCalls := (e.is .draw).toNat.toUInt64
              bufferClears := (e.is .clear).toNat.toUInt64 }) : e.Accounted := by
  have hpaintings : e.paintings = [] := by
    unfold paintings
    rw [hstrokes]
    rfl
  have hown : e.ownWork
      = { drawCalls := (e.is .draw).toNat.toUInt64
          bufferClears := (e.is .clear).toNat.toUInt64 } := by
    unfold ownWork isSkipped stats
    rw [hanswer]
    rfl
  constructor
  · intro hclear
    rw [hsurface hclear, hstrokes]
    rfl
  · rw [hcounters, work, hpaintings, hown, List.map_nil, List.sum_nil, zero_add]
  · unfold reported
    rw [hanswer, hpaintings]
    rfl
  · unfold stats
    rw [hanswer, hpaintings, htriangle]
    rfl

theorem map_paintings {α : Type} (f : Painted → α) :
    e.paintings.map (fun p => f p.result)
      = (Stroke.paintEach e.strokes e.before.surface).map f := by
  rw [← Stroke.map_result_paintings, List.map_map]
  rfl

/-- The account of a draw. -/
theorem accounted_draw (session : Session) (draw : Draw)
    (layout : VertexLayout) (state : RenderState) (data : Array UInt8)
    (scissor : Option Region) :
    Accounted ⟨session, .draw draw layout state data scissor⟩ := by
  -- the strokes of the draw are its paintings, on the surfaces that they find
  have h := Draw.follows_run session.rasterizer
    (scissor.getD session.surface.bounds) draw layout state data
    session.scratch session.surface
  constructor
  · intro _
    exact h.surface_eq
  · show session.counters + _ = session.counters + work _
    rw [h.work_eq, work, map_paintings _ (·.work)]
    rfl
  · rw [map_paintings _ (·.written)]
    exact h.written_eq
  · refine (Stroke.countP_paintings (·.shape.isTriangle) _ _).trans ?_
    show _ = 0 + (Draw.stats _).triangles
    rw [Nat.zero_add]
    exact h.triangles_eq.symm

/-- **Every command has its account.** -/
theorem accounted : e.Accounted := by
  obtain ⟨session, command⟩ := e
  cases command with
  | fill => exact accounted_paint _ rfl rfl rfl rfl rfl rfl
  | triangle => exact accounted_paint _ rfl rfl rfl rfl rfl rfl
  | draw => exact accounted_draw ..
  | clear => exact accounted_other _ rfl rfl rfl nofun rfl
  | choose =>
    exact accounted_other _ rfl rfl rfl (fun _ => rfl) (add_zero _).symm
  | resetCounters => exact accounted_other _ rfl rfl rfl (fun _ => rfl) rfl

end Entry

/-! ## The ledger -/

section Sums

variable {α : Type} {work : α → Counters} {k : Counter}

/-- A counter of summed work is the sum of what the items count for it, modulo
the counter's range. -/
theorem Counters.get_sum_filter {p : α → Prop} [DecidablePred p]
    {n : α → Nat} (h : ∀ a, (work a).get k = if p a then (n a).toUInt64 else 0)
    (l : List α) :
    ((l.map work).sum).get k = (((l.filter p).map n).sum).toUInt64 := by
  induction l with
  | nil => exact get_zero k
  | cons a l ih =>
    rw [List.map_cons, List.sum_cons, get_add, ih, h, List.filter_cons]
    by_cases hp : p a
    · rw [if_pos hp, if_pos (decide_eq_true hp), List.map_cons, List.sum_cons]
      exact (UInt64.ofNat_add ..).symm
    · rw [if_neg hp, if_neg (by simpa using hp), UInt64.zero_add]

theorem Counters.get_sum_map {n : α → Nat}
    (h : ∀ a, (work a).get k = (n a).toUInt64) (l : List α) :
    ((l.map work).sum).get k = ((l.map n).sum).toUInt64 := by
  have hsum := get_sum_filter (p := fun _ => True)
    (fun a => (h a).trans (if_pos trivial).symm) l
  rw [hsum]
  simp

theorem Counters.get_sum_countP {p : α → Bool}
    (h : ∀ a, (work a).get k = (p a).toNat.toUInt64) (l : List α) :
    ((l.map work).sum).get k = (l.countP p).toUInt64 := by
  have hif (a : α) :
      (work a).get k = if p a = true then Nat.toUInt64 1 else 0 := by
    rw [h]
    cases p a <;> rfl
  rw [get_sum_filter hif, List.countP_eq_length_filter]
  simp

theorem Counters.get_sum_countP_decide {p : α → Prop} [DecidablePred p]
    (h : ∀ a, (work a).get k = if p a then 1 else 0) (l : List α) :
    ((l.map work).sum).get k = (l.countP p).toUInt64 := by
  refine get_sum_countP (fun a => ?_) l
  rw [h]
  by_cases hp : p a
  · rw [if_pos hp, decide_eq_true hp]
    rfl
  · rw [if_neg hp, decide_eq_false hp]
    rfl

theorem Counters.get_sum_zero (h : ∀ a, (work a).get k = 0) (l : List α) :
    ((l.map work).sum).get k = 0 :=
  get_sum_map (n := fun _ => 0) h l |>.trans (by simp)

end Sums

namespace Entry

/-- All paintings of a list of entries, in their order. -/
def allPaintings (entries : List Entry) : List Painting :=
  entries.flatMap (·.paintings)

/-- The cells that were written by paintings that had tests. -/
def writtenUnderTest (entries : List Entry) : Nat :=
  (((allPaintings entries).filter fun p => p.stroke.IsTested).map
    fun p => p.result.written).sum

/-- The triangles of commands of their own and those of draws. -/
def triangles (entries : List Entry) : Nat :=
  entries.countP (·.is .triangle) + (entries.map fun e => e.stats.triangles).sum

theorem allPaintings_cons (e : Entry) (entries : List Entry) :
    allPaintings (e :: entries) = e.paintings ++ allPaintings entries := rfl

theorem sum_work (entries : List Entry) :
    (entries.map (·.work)).sum
      = ((allPaintings entries).map fun p => p.result.work).sum
        + (entries.map (·.ownWork)).sum := by
  induction entries with
  | nil => exact (add_zero _).symm
  | cons e entries ih =>
    rw [List.map_cons, List.sum_cons, ih, allPaintings_cons, List.map_append,
      List.sum_append, List.map_cons, List.sum_cons, work, add_add_add_comm]

theorem countP_allPaintings (entries : List Entry) :
    (allPaintings entries).countP (·.stroke.shape.isTriangle)
      = triangles entries := by
  unfold triangles
  induction entries with
  | nil => rfl
  | cons e entries ih =>
    have hcount : (e :: entries).countP (·.is .triangle)
        = (e.is .triangle).toNat + entries.countP (·.is .triangle) := by
      rw [List.countP_cons, Nat.add_comm]
      cases e.is .triangle <;> rfl
    rw [allPaintings_cons, List.countP_append, ih, e.accounted.triangles_eq,
      hcount, List.map_cons, List.sum_cons]
    exact Nat.add_add_add_comm ..

end Entry

/-- What the counters say about a list of entries. They say it modulo their
range. -/
structure Ledger (entries : List Entry) (c : Counters) : Prop where
  /-- Each test passes or fails. -/
  pixelsTested_eq : c.pixelsTested = c.depthPassed + c.depthFailed
  /-- What is written under a test has passed it. -/
  depthPassed_eq : c.depthPassed = (Entry.writtenUnderTest entries).toUInt64
  drawCalls_eq : c.drawCalls = (entries.countP (·.is .draw)).toUInt64
  drawsSkipped_eq : c.drawsSkipped = (entries.countP (·.isSkipped)).toUInt64
  trianglesSubmitted_eq :
    c.trianglesSubmitted = (Entry.triangles entries).toUInt64
  trianglesBehind_eq : c.trianglesBehind
    = ((entries.map fun e : Entry => e.stats.trianglesBehind).sum).toUInt64
  trianglesCulled_eq : c.trianglesCulled
    = ((Entry.allPaintings entries).countP
        (·.Counts .trianglesCulled)).toUInt64
  trianglesOffScissor_eq : c.trianglesOffScissor
    = ((Entry.allPaintings entries).countP
        (·.Counts .trianglesOffScissor)).toUInt64
  /-- A triangle is culled or off the scissor, but not both, and then none of its
  pixels is tested. -/
  rejected : ∀ p ∈ Entry.allPaintings entries,
    p.Counts .trianglesCulled ∨ p.Counts .trianglesOffScissor →
      p.stroke.shape.isTriangle = true
        ∧ ¬ (p.Counts .trianglesCulled ∧ p.Counts .trianglesOffScissor)
        ∧ p.result.work.pixelsTested = 0 ∧ p.result.written = 0
  /-- Until the counter of triangles wraps, no more of them are rejected than
  were submitted. -/
  rejected_le : Entry.triangles entries < UInt64.size →
    c.trianglesCulled.toNat + c.trianglesOffScissor.toNat
      ≤ c.trianglesSubmitted.toNat
  rectsFilled_eq : c.rectsFilled
    = ((Entry.allPaintings entries).countP
        fun p => p.stroke.IsFill p.before).toUInt64
  bufferClears_eq : c.bufferClears = (entries.countP (·.is .clear)).toUInt64
  /-- The triangles of commands and of draws are those that were painted. -/
  triangles_eq : Entry.triangles entries
    = (Entry.allPaintings entries).countP (·.stroke.shape.isTriangle)
  /-- The answers tell what was written. -/
  reported_eq : ∀ e ∈ entries,
    e.reported = (e.paintings.map fun p => p.result.written).sum
  /-- The paintings are all that happens to the surface, unless it is cleared. -/
  surface_eq : ∀ e ∈ entries, e.is .clear = false →
    (e.before.step e.command).1.surface
      = Stroke.paintAll e.strokes e.before.surface

namespace Ledger

/-- Rejected triangles are triangles, and rejected for one reason. -/
theorem countP_rejected_le (l : List Painting) :
    l.countP (·.Counts .trianglesCulled)
        + l.countP (·.Counts .trianglesOffScissor)
      ≤ l.countP (·.stroke.shape.isTriangle) := by
  -- painting by painting: a rejected one is a triangle, rejected once
  induction l with
  | nil => exact Nat.le_refl 0
  | cons p l ih =>
    rw [List.countP_cons, List.countP_cons, List.countP_cons]
    have hone : (if p.Counts .trianglesCulled then 1 else 0)
        + (if p.Counts .trianglesOffScissor then 1 else 0)
          ≤ if p.stroke.shape.isTriangle then 1 else 0 := by
      by_cases hculled : p.Counts .trianglesCulled
      · obtain ⟨htriangle, hone, -⟩ := p.rejected hculled (.inl rfl)
        rw [if_pos hculled, if_neg fun hoff => hone ⟨hculled, hoff⟩,
          if_pos htriangle]
      · rw [if_neg hculled, Nat.zero_add]
        by_cases hoff : p.Counts .trianglesOffScissor
        · obtain ⟨htriangle, -⟩ := p.rejected hoff (.inr rfl)
          rw [if_pos hoff, if_pos htriangle]
        · rw [if_neg hoff]
          exact Nat.zero_le _
    simp only [decide_eq_true_eq]
    omega

variable (entries : List Entry)

/-- A counter is the sum of what paintings count and of what commands count
themselves. -/
theorem get_work {k : Counter} {m n : UInt64}
    (hpaintings : (((Entry.allPaintings entries).map
      fun p : Painting => p.result.work).sum).get k = m)
    (hown : ((entries.map Entry.ownWork).sum).get k = n) :
    ((entries.map Entry.work).sum).get k = m + n := by
  rw [Entry.sum_work, Counters.get_add, hpaintings, hown]

/-- A counter that commands count themselves. -/
theorem get_work_own {k : Counter} {n : UInt64}
    (hpaintings : ∀ p : Painting, p.result.work.get k = 0)
    (hown : ((entries.map Entry.ownWork).sum).get k = n) :
    ((entries.map Entry.work).sum).get k = n := by
  rw [get_work entries (Counters.get_sum_zero hpaintings _) hown,
    UInt64.zero_add]

/-- A counter that paintings count. -/
theorem get_work_paintings {k : Counter} {n : UInt64}
    (hpaintings : (((Entry.allPaintings entries).map
      fun p : Painting => p.result.work).sum).get k = n)
    (hown : ∀ e : Entry, e.ownWork.get k = 0) :
    ((entries.map Entry.work).sum).get k = n := by
  rw [get_work entries hpaintings (Counters.get_sum_zero hown _),
    UInt64.add_zero]

/-- The tests of summed work balance. -/
theorem pixelsTested_sum :
    ((entries.map Entry.work).sum).get .pixelsTested
      = ((entries.map Entry.work).sum).get .depthPassed
        + ((entries.map Entry.work).sum).get .depthFailed := by
  rw [get_work_paintings entries rfl fun _ => rfl,
    get_work_paintings entries rfl fun _ => rfl,
    get_work_paintings entries rfl fun _ => rfl]
  induction Entry.allPaintings entries with
  | nil => rfl
  | cons p paintings ih =>
    rw [List.map_cons, List.sum_cons, Counters.get_add, Counters.get_add,
      Counters.get_add, ih, p.counted.pixelsTested_eq]
    ac_rfl

/-- The triangles that are submitted are those of commands and of draws. -/
theorem get_trianglesSubmitted :
    ((entries.map Entry.work).sum).get .trianglesSubmitted
      = (Entry.triangles entries).toUInt64 := by
  rw [← Entry.countP_allPaintings]
  exact get_work_paintings entries (Counters.get_sum_countP
    (fun p : Painting => p.counted.trianglesSubmitted_eq) _) fun _ => rfl

/-- The triangles that are rejected for a reason are those that count as it. -/
theorem get_rejected {k : Counter}
    (hk : k = .trianglesCulled ∨ k = .trianglesOffScissor) :
    ((entries.map Entry.work).sum).get k
      = ((Entry.allPaintings entries).countP (·.Counts k)).toUInt64 := by
  refine get_work_paintings entries (Counters.get_sum_countP_decide
    (fun p : Painting => p.get_rejected hk) _) fun e => ?_
  rcases hk with rfl | rfl
  · rfl
  · rfl

/-- Counters of rejected triangles may have wrapped, but that only makes them
smaller. -/
theorem rejected_toNat_le (hlt : Entry.triangles entries < UInt64.size) :
    let c := (entries.map Entry.work).sum
    (c.get .trianglesCulled).toNat + (c.get .trianglesOffScissor).toNat
      ≤ (c.get .trianglesSubmitted).toNat := by
  intro c
  have hle := countP_rejected_le (Entry.allPaintings entries)
  rw [Entry.countP_allPaintings] at hle
  rw [get_trianglesSubmitted, get_rejected entries (.inl rfl),
    get_rejected entries (.inr rfl)]
  -- by assumption the number of triangles does not wrap
  calc
    _ ≤ (Entry.allPaintings entries).countP (·.Counts .trianglesCulled)
          + (Entry.allPaintings entries).countP
            (·.Counts .trianglesOffScissor) :=
      Nat.add_le_add (Nat.mod_le ..) (Nat.mod_le ..)
    _ ≤ Entry.triangles entries := hle
    _ = (Entry.triangles entries).toUInt64.toNat := (Nat.mod_eq_of_lt hlt).symm

/-- **Sums of works are ledgers.** -/
theorem ofWork : Ledger entries (entries.map Entry.work).sum := by
  -- each counter is a sum over paintings or over commands
  constructor
  case pixelsTested_eq => exact pixelsTested_sum entries
  case depthPassed_eq =>
    exact get_work_paintings entries (k := .depthPassed)
      (Counters.get_sum_filter (fun p : Painting => p.counted.depthPassed_eq) _)
      fun _ => rfl
  case drawCalls_eq =>
    exact get_work_own entries (k := .drawCalls)
      (fun p : Painting => p.counted.others_eq_zero.1)
      (Counters.get_sum_countP (fun _ => rfl) _)
  case drawsSkipped_eq =>
    exact get_work_own entries (k := .drawsSkipped)
      (fun p : Painting => p.counted.others_eq_zero.2.1)
      (Counters.get_sum_countP (fun _ => rfl) _)
  case trianglesSubmitted_eq => exact get_trianglesSubmitted entries
  case trianglesBehind_eq =>
    exact get_work_own entries (k := .trianglesBehind)
      (fun p : Painting => p.counted.others_eq_zero.2.2.1)
      (Counters.get_sum_map (fun _ => rfl) _)
  case trianglesCulled_eq => exact get_rejected entries (.inl rfl)
  case trianglesOffScissor_eq => exact get_rejected entries (.inr rfl)
  case rejected =>
    rintro p - (hp | hp)
    · exact p.rejected hp (.inl rfl)
    · exact p.rejected hp (.inr rfl)
  case rejected_le => exact rejected_toNat_le entries
  case rectsFilled_eq =>
    exact get_work_paintings entries (k := .rectsFilled)
      (Counters.get_sum_countP_decide
        (fun p : Painting => p.counted.rectsFilled_eq) _)
      fun _ => rfl
  case bufferClears_eq =>
    exact get_work_own entries (k := .bufferClears)
      (fun p : Painting => p.counted.others_eq_zero.2.2.2)
      (Counters.get_sum_countP (fun _ => rfl) _)
  case triangles_eq => exact (Entry.countP_allPaintings entries).symm
  case reported_eq => exact fun e _ => e.accounted.reported_eq
  case surface_eq => exact fun e _ => e.accounted.surface_eq

end Ledger

/-! ## Sessions -/

/-- The entries since the last reset. -/
def Entry.sinceReset (entries : List Entry) : List Entry :=
  entries.rtakeWhile fun e => !e.is .resetCounters

namespace Session

/-- The commands of a run, each with the session as it finds it. -/
def history (session : Session) : List Command → List Entry
  | [] => []
  | command :: commands =>
    ⟨session, command⟩ :: (session.step command).1.history commands

variable (session : Session) (commands : List Command)

theorem map_command_history :
    (session.history commands).map (·.command) = commands := by
  induction commands generalizing session with
  | nil => rfl
  | cons command commands ih => exact congrArg (command :: ·) (ih _)

/-- The replies of a run are those of its entries. -/
theorem map_reply_history :
    (session.history commands).map (·.reply) = (session.run commands).2 := by
  induction commands generalizing session with
  | nil => rfl
  | cons command commands ih =>
    exact congrArg ((session.step command).2 :: ·) (ih _)

theorem run_concat (command : Command) :
    (session.run (commands ++ [command])).1
      = ((session.run commands).1.step command).1 := by
  induction commands generalizing session with
  | nil => rfl
  | cons first commands ih => exact ih _

theorem history_concat (command : Command) :
    session.history (commands ++ [command])
      = session.history commands ++ [⟨(session.run commands).1, command⟩] := by
  induction commands generalizing session with
  | nil => rfl
  | cons first commands ih => exact congrArg (_ :: ·) (ih _)

/-- **One command** adds its work to the counters, or resets them. -/
theorem counters_step (command : Command) :
    (session.step command).1.counters
      = if Entry.is ⟨session, command⟩ .resetCounters then 0
        else session.counters + Entry.work ⟨session, command⟩ :=
  (Entry.accounted ⟨session, command⟩).counters_eq

/-- **A run** leaves the work since the last reset, if the counters were zero
before it. -/
theorem counters_run (h : session.counters = 0) :
    (session.run commands).1.counters
      = ((Entry.sinceReset (session.history commands)).map Entry.work).sum := by
  -- induction from the last command on, which is where resets are counted from
  induction commands using List.reverseRecOn with
  | nil => exact h
  | append_singleton commands command ih =>
    rw [run_concat, counters_step, history_concat, Entry.sinceReset,
      List.rtakeWhile_concat]
    cases Entry.is ⟨(session.run commands).1, command⟩ .resetCounters with
    | true => rfl
    | false =>
      show _ + _ = ((Entry.sinceReset _ ++ [_]).map Entry.work).sum
      rw [List.map_append, List.sum_append, ih, List.map_singleton,
        List.sum_singleton]

/-- **The counters after any commands** are the ledger of those since the last
reset, whatever the session is like in which they start from zero. Each entry
has the command's place, command and reply, and a reset sets all counters to
zero. -/
theorem ledger_run :
    let start : Session := { session with counters := 0 }
    let entries := start.history commands
    entries.map (·.command) = commands
      ∧ entries.map (·.reply) = (start.run commands).2
      ∧ Ledger (Entry.sinceReset entries) (start.run commands).1.counters
      ∧ ∀ k, ((start.run commands).1.step .resetCounters).1.counters.get k
        = 0 := by
  intro start entries
  refine ⟨start.map_command_history commands, start.map_reply_history commands,
    ?_, Counters.get_zero⟩
  rw [start.counters_run commands rfl]
  exact .ofWork _

end Session

end DepthPrepass
