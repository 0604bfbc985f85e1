import DepthPrepass.Draw.Basic
import DepthPrepass.Surface.RowFill

/-!
# Sessions

A session keeps a rasterizer, a surface, scratch storage and counters through
a sequence of commands. Each command paints, draws, clears, changes the policy
or resets the counters; its work is added to the counters, and it answers how
it went. A command for which no scissor is given has the whole surface.

* `Session.step`: one command.
* `Session.run`: commands one after another.
-/

namespace DepthPrepass

/-- All that lasts from one command to the next. -/
structure Session where
  rasterizer : Rasterizer
  surface : Surface
  scratch : Scratch
  counters : Counters

/-- Something to do in a session. -/
inductive Command where
  | fill (rectangle : Rectangle) (test : DepthTest) (scissor : Option Region)
  | triangle (triangle : Triangle) (test : DepthTest)
    (scissor : Option Region)
  | draw (draw : Draw) (layout : VertexLayout) (state : RenderState)
    (data : Array UInt8) (scissor : Option Region)
  /-- Set every cell of the surface. -/
  | clear (mode : LaneMode) (value : UInt16)
  | choose (change : PolicyChange)
  | resetCounters

/-- How a command went. -/
inductive Answer where
  | written (cells : Nat)
  | drawn (outcome : Except DrawError DrawOutcome)
  | done

/-- The answer to a command, and what was said in the course of it. -/
structure Reply where
  answer : Answer
  events : List Event

namespace Session

/-- A new session. -/
def start (settings : Settings) (surface : Surface) (capacity : Nat) :
    Session :=
  { rasterizer := .ofSettings settings
    surface
    scratch := .ofCapacity capacity
    counters := 0 }

/-- Take over what painting left. -/
def paint (session : Session) (painted : Painted) : Session × Reply :=
  ({ session with
     surface := painted.surface
     counters := session.counters + painted.work },
    ⟨.written painted.written, []⟩)

/-- Carry out a command with a given rasterizer, which a change of policy
leaves alone: that is always made to the session's own. -/
def stepWith (r : Rasterizer) (session : Session) :
    Command → Session × Reply
  | .fill rectangle test scissor =>
    session.paint <|
      r.paintRectangle (scissor.getD session.surface.bounds) rectangle test
        session.surface
  | .triangle triangle test scissor =>
    session.paint <|
      r.paintTriangle (scissor.getD session.surface.bounds) triangle test
        session.surface
  | .draw draw layout state data scissor =>
    let result :=
      draw.run r (scissor.getD session.surface.bounds) layout state data
        session.scratch session.surface
    ({ session with
       surface := result.surface
       scratch := result.scratch
       counters := session.counters + result.work },
      ⟨.drawn result.outcome, result.events⟩)
  | .clear mode value =>
    ({ session with
       surface := session.surface.fillAll mode value
       counters := session.counters + .count .bufferClears 1 },
      ⟨.done, []⟩)
  | .choose change =>
    ({ session with
       rasterizer :=
         { session.rasterizer with
           policy := session.rasterizer.policy.change change } },
      ⟨.done, []⟩)
  | .resetCounters => ({ session with counters := 0 }, ⟨.done, []⟩)

/-- Carry out a command. -/
def step (session : Session) (command : Command) : Session × Reply :=
  session.stepWith session.rasterizer command

/-- Carry out commands one after another. The result has the reply to each of
them. -/
def run (session : Session) : List Command → Session × List Reply
  | [] => (session, [])
  | command :: commands =>
    let (session, reply) := session.step command
    let (session, replies) := session.run commands
    (session, reply :: replies)

end Session

end DepthPrepass
