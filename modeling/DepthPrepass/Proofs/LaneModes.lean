import DepthPrepass.Proofs.Walks
import DepthPrepass.Session

/-!
# Lane modes do not show

The mode decides how rows are filled and how triangles are walked. Both come to
the same for a single operation, so whatever is built from such operations does
not depend on the mode either: neither a draw nor a session of any length can
tell in which mode it runs, except by looking at the rasterizer itself.

* `Rectangle.paint_mode`, `Triangle.paint_mode`: one primitive.
* `Draw.run_inMode`: one draw.
* `Session.step_inMode`, `Session.run_inMode`: one command, and a whole run.
-/

namespace DepthPrepass

/-! ## Primitives -/

theorem Surface.fillSpan_mode (mode : LaneMode) (value : UInt16)
    (span : RowSpan) (s : Surface) :
    s.fillSpan mode value span = s.fillSpan .scalar value span :=
  Surface.ext_cells rfl (RowFill.fill_eq_plain mode ..)

theorem Surface.fillAll_mode (mode : LaneMode) (value : UInt16) (s : Surface) :
    s.fillAll mode value = s.fillAll .scalar value :=
  Surface.ext_cells rfl (RowFill.fill_eq_plain mode ..)

theorem Rectangle.fillRows_mode (mode : LaneMode) (depth : UInt16)
    (spans : List RowSpan) (s : Surface) :
    fillRows mode depth spans s = fillRows .scalar depth spans s := by
  have hstep : (fun s (span : RowSpan) => s.fillSpan mode depth span)
      = fun s span => Surface.fillSpan s .scalar depth span :=
    funext fun s => funext fun span => s.fillSpan_mode mode depth span
  rw [fillRows, fillRows, hstep]

/-- A rectangle is painted alike in all modes. -/
theorem Rectangle.paint_mode (mode : LaneMode) (policy : RectangleTest)
    (test : DepthTest) (scissor : Region) (r : Rectangle) (s : Surface) :
    r.paint mode policy test scissor s
      = r.paint .scalar policy test scissor s := by
  simp only [paint, fillRows_mode mode]

/-- A triangle is painted alike in all modes. -/
theorem Triangle.paint_mode (mode : LaneMode) (policy : Policy)
    (test : DepthTest) (scissor : Region) (t : Triangle) (s : Surface) :
    t.paint mode policy test scissor s
      = t.paint .scalar policy test scissor s := by
  unfold paint
  dsimp only
  split
  · rfl
  · rw [Walk.fragments_mode]

/-! ## Rasterizers -/

namespace Rasterizer

/-- The rasterizer in another mode. -/
def inMode (mode : LaneMode) (r : Rasterizer) : Rasterizer :=
  { r with mode }

variable (mode : LaneMode) (r : Rasterizer) (scissor : Region)

theorem paintRectangle_inMode (rectangle : Rectangle) (test : DepthTest)
    (s : Surface) :
    (r.inMode mode).paintRectangle scissor rectangle test s
      = r.paintRectangle scissor rectangle test s :=
  -- in both modes it is what it is one pixel at a time
  (rectangle.paint_mode mode ..).trans (rectangle.paint_mode r.mode ..).symm

theorem paintTriangle_inMode (triangle : Triangle) (test : DepthTest)
    (s : Surface) :
    (r.inMode mode).paintTriangle scissor triangle test s
      = r.paintTriangle scissor triangle test s :=
  (triangle.paint_mode mode ..).trans (triangle.paint_mode r.mode ..).symm

end Rasterizer

/-! ## Draws -/

namespace Draw

variable (mode : LaneMode) (r : Rasterizer) (scissor : Region)

theorem paintRectangle_inMode (test : DepthTest)
    (vertex : Nat → ScreenVertex) :
    paintRectangle (r.inMode mode) scissor test vertex
      = paintRectangle r scissor test vertex := by
  funext progress pair
  simp only [paintRectangle, Rasterizer.paintRectangle_inMode]

theorem paintTriangle_inMode (test : DepthTest) (vertex : Nat → ScreenVertex) :
    paintTriangle (r.inMode mode) scissor test vertex
      = paintTriangle r scissor test vertex := by
  funext progress corners
  simp only [paintTriangle, Rasterizer.paintTriangle_inMode]

theorem paint_inMode (test : DepthTest) (assembly : Assembly)
    (vertex : Nat → ScreenVertex) (count : Nat) (s : Surface) :
    paint (r.inMode mode) scissor test assembly vertex count s
      = paint r scissor test assembly vertex count s := by
  cases assembly with
  | rectangles => simp only [paint, paintRectangle_inMode]
  | triangles topology => simp only [paint, paintTriangle_inMode]

/-- A draw goes alike in all modes. The checks and the vertices have nothing to
do with the mode. -/
theorem run_inMode (draw : Draw) (layout : VertexLayout) (state : RenderState)
    (data : Array UInt8) (scratch : Scratch) (s : Surface) :
    draw.run (r.inMode mode) scissor layout state data scratch s
      = draw.run r scissor layout state data scratch s := by
  simp only [run, paint_inMode]

end Draw

/-! ## Sessions -/

/-- The session in another mode. -/
def Session.inMode (mode : LaneMode) (session : Session) : Session :=
  { session with rasterizer := session.rasterizer.inMode mode }

/-- The command in another mode: a clear is told its mode, and the others take
the session's. -/
def Command.inMode (mode : LaneMode) : Command → Command
  | .clear _ value => .clear mode value
  | command => command

namespace Session

variable (mode : LaneMode)

/-- **One command**: in another mode it leaves the same session, but for the
mode, and gets the same reply. -/
theorem step_inMode (session : Session) (command : Command) :
    (session.inMode mode).step (command.inMode mode)
      = ((session.step command).1.inMode mode, (session.step command).2) := by
  cases command with
  | fill rectangle test scissor =>
    have h := session.rasterizer.paintRectangle_inMode mode
      (scissor.getD session.surface.bounds) rectangle test session.surface
    exact congrArg (Session.paint (session.inMode mode)) h
  | triangle triangle test scissor =>
    have h := session.rasterizer.paintTriangle_inMode mode
      (scissor.getD session.surface.bounds) triangle test session.surface
    exact congrArg (Session.paint (session.inMode mode)) h
  | draw draw layout state data scissor =>
    have h := Draw.run_inMode mode session.rasterizer
      (scissor.getD session.surface.bounds) draw layout state data
      session.scratch session.surface
    simp only [step, stepWith, inMode, Command.inMode]
    rw [h]
  | clear own value =>
    -- a clear has a mode of its own, which is exchanged with the session's
    have h := (session.surface.fillAll_mode mode value).trans
      (session.surface.fillAll_mode own value).symm
    simp only [step, stepWith, inMode, Command.inMode]
    rw [h]
  | choose change => rfl
  | resetCounters => rfl

/-- **A whole run**: in another mode it leaves the same session, but for the
mode, and gets the same replies. -/
theorem run_inMode (session : Session) (commands : List Command) :
    (session.inMode mode).run (commands.map (Command.inMode mode))
      = ((session.run commands).1.inMode mode,
          (session.run commands).2) := by
  -- after a step it is again a session in the other mode
  induction commands generalizing session with
  | nil => rfl
  | cons command commands ih =>
    rw [List.map_cons, run, step_inMode, run]
    dsimp only
    rw [ih]

/-- **Scalar and wide runs are indistinguishable.** Whatever the surface, the
policy and the scratch storage to begin with, and whatever the commands, running
them one pixel at a time and several at a time gets the same replies, and after
each of the commands there are the same cells and the same counters. -/
theorem run_scalar_wide (session : Session) (commands : List Command) :
    let scalar (commands : List Command) :=
      (session.inMode .scalar).run (commands.map (Command.inMode .scalar))
    let wide (commands : List Command) :=
      (session.inMode .wide).run (commands.map (Command.inMode .wide))
    (wide commands).2 = (scalar commands).2
      ∧ ∀ n, (wide (commands.take n)).1.surface
            = (scalar (commands.take n)).1.surface
          ∧ (wide (commands.take n)).1.counters
            = (scalar (commands.take n)).1.counters := by
  intro scalar wide
  -- both are the run of the session as it is, put in a mode at the end
  have hscalar (commands : List Command) :
      scalar commands = ((session.run commands).1.inMode .scalar,
        (session.run commands).2) :=
    run_inMode .scalar session commands
  have hwide (commands : List Command) :
      wide commands = ((session.run commands).1.inMode .wide,
        (session.run commands).2) :=
    run_inMode .wide session commands
  refine ⟨?_, fun n => ⟨?_, ?_⟩⟩
  · rw [hwide, hscalar]
  · rw [hwide, hscalar]
    rfl
  · rw [hwide, hscalar]
    rfl

end Session

end DepthPrepass
