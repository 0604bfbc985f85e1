import DepthPrepass.Proofs.Expansion
import DepthPrepass.Session

/-!
# What draws do not depend on

Scratch storage is used again and again without being cleared. A draw overwrites
as much of it as it reads afterwards, so that nothing of what earlier draws have
left there can be seen in what later ones do: not on the surface, not in the
counters, and not in what is answered and said. Nor does the winding of a draw
matter, except that it is said.

* `Draw.Result.Agrees`: results that are told apart by their scratch storage
  only.
* `Draw.agrees_run`: draws agree if they become the same and have the same
  vertices.
* `Draw.agrees_run_of_scratch`, `Draw.run_wind`: other scratch storage, another
  winding.
* `Session.independent_run`: all commands of a session.
-/

namespace DepthPrepass

/-! ## Draws that agree -/

namespace Draw

/-- Two results that differ in what is left in the scratch storage at most. -/
structure Result.Agrees (result other : Result) : Prop where
  surface_eq : result.surface = other.surface
  work_eq : result.work = other.work
  outcome_eq : result.outcome = other.outcome
  events_eq : result.events = other.events

variable {draw draw' : Draw} {layout layout' : VertexLayout}
  {state : RenderState} {data data' : Array UInt8} {scratch scratch' : Scratch}
  (r : Rasterizer) (scissor : Region) (s : Surface)

/-- A draw that is refused leaves the surface and the scratch storage as they
are, and says nothing. -/
theorem run_of_fate_refused {error : DrawError}
    (h : draw.fate layout state data scratch.capacity = .refused error) :
    draw.run r scissor layout state data scratch s = refuse error s scratch := by
  rcases run_cases r scissor draw layout state data scratch s with
    ⟨reason, own, hfate, -⟩ | ⟨found, hfate, hrun⟩ | ⟨hfate, -⟩
  · rw [h] at hfate
    cases hfate
  · rw [h] at hfate
    cases hfate
    exact hrun
  · rw [h] at hfate
    cases hfate

/-- What is said about a draw that is drawn has the test it is drawn with. -/
theorem events_of_fate_drawn {test : DepthTest} {assembly : Assembly}
    (h : draw.fate layout state data scratch.capacity = .drawn)
    (hcheck : draw.check state.registers = .ok (test, assembly)) :
    (draw.run r scissor layout state data scratch s).events
      = [.drawing draw.primitive draw.vertices test draw.winding] := by
  obtain ⟨stats, houtcome⟩ :=
    outcome_of_fate_drawn r scissor draw layout state data s h
  unfold run at houtcome ⊢
  rw [hcheck] at houtcome ⊢
  dsimp only at houtcome ⊢
  -- the other ways that a draw can go from here have other outcomes
  split at houtcome
  · cases houtcome
  · split at houtcome
    · cases houtcome
    · rfl

/-- **Draws agree** if the same becomes of them and they have the same vertices
on the screen, wherever these come from. -/
theorem agrees_run (hprimitive : draw'.primitive = draw.primitive)
    (hvertices : draw'.vertices = draw.vertices)
    (hwinding : draw'.winding = draw.winding)
    (hcheck : draw'.check state.registers = draw.check state.registers)
    (hfate : draw'.fate layout' state data' scratch'.capacity
      = draw.fate layout state data scratch.capacity)
    (hvertex : ∀ i < draw.vertices, draw'.vertexAt layout' state data' i
      = draw.vertexAt layout state data i) :
    (draw'.run r scissor layout' state data' scratch' s).Agrees
      (draw.run r scissor layout state data scratch s) := by
  cases hown : draw.fate layout state data scratch.capacity with
  | skipped reason =>
    obtain ⟨left, hrun⟩ := run_of_fate_skipped r scissor scratch s hown
    obtain ⟨left', hrun'⟩ := run_of_fate_skipped r scissor scratch' s
      (hfate.trans hown)
    rw [hrun, hrun']
    refine ⟨rfl, rfl, rfl, ?_⟩
    rw [skip, skip, hprimitive, hvertices]
  | refused error =>
    rw [run_of_fate_refused r scissor s hown,
      run_of_fate_refused r scissor s (hfate.trans hown)]
    exact ⟨rfl, rfl, rfl, rfl⟩
  | drawn =>
    obtain ⟨test, assembly, hok, hsurface, hwork, houtcome⟩ :=
      run_of_fate_drawn r scissor draw layout state data s hown
    obtain ⟨test', assembly', hok', hsurface', hwork', houtcome'⟩ :=
      run_of_fate_drawn r scissor draw' layout' state data' s
        (hfate.trans hown)
    have hevents := events_of_fate_drawn r scissor s hown hok
    have hevents' :=
      events_of_fate_drawn r scissor s (hfate.trans hown) hok'
    rw [hcheck, hok] at hok'
    cases hok'
    rw [hvertices, paint_congr r scissor test hvertex]
      at hsurface' hwork' houtcome'
    refine ⟨hsurface'.trans hsurface.symm, hwork'.trans hwork.symm,
      houtcome'.trans houtcome.symm, ?_⟩
    rw [hevents, hevents', hprimitive, hvertices, hwinding]

/-! ## Other scratch storage -/

/-- Of the capacity it only matters whether the draw has room. -/
theorem fate_of_capacity {capacity capacity' : Nat}
    (h : capacity' = capacity
      ∨ draw.vertices ≤ capacity ∧ draw.vertices ≤ capacity') :
    draw.fate layout state data capacity'
      = draw.fate layout state data capacity := by
  rcases h with rfl | ⟨hroom, hroom'⟩
  · rfl
  · unfold fate
    rw [if_neg (Nat.not_lt.2 hroom), if_neg (Nat.not_lt.2 hroom')]

/-- **What is in the scratch storage** before a draw does not matter. -/
theorem agrees_run_of_scratch
    (h : scratch'.capacity = scratch.capacity
      ∨ draw.vertices ≤ scratch.capacity
        ∧ draw.vertices ≤ scratch'.capacity) :
    (draw.run r scissor layout state data scratch' s).Agrees
      (draw.run r scissor layout state data scratch s) :=
  agrees_run r scissor s rfl rfl rfl rfl (fate_of_capacity h) fun _ _ => rfl

end Draw

/-! ## Another winding -/

/-- What is said, with another winding. -/
def Event.wind (winding : Winding) : Event → Event
  | drawing primitive vertices test _ =>
    drawing primitive vertices test winding
  | event => event

/-- The draw with another winding. -/
def Draw.wind (winding : Winding) (draw : Draw) : Draw :=
  { draw with winding }

/-- **The winding of a draw** is said and otherwise ignored. -/
theorem Draw.run_wind (winding : Winding) (r : Rasterizer) (scissor : Region)
    (draw : Draw) (layout : VertexLayout) (state : RenderState)
    (data : Array UInt8) (scratch : Scratch) (s : Surface) :
    let result := draw.run r scissor layout state data scratch s
    (draw.wind winding).run r scissor layout state data scratch s
      = { result with events := result.events.map (·.wind winding) } := by
  intro result
  have hresult : draw.run r scissor layout state data scratch s = result := rfl
  have hcheck :
      (draw.wind winding).check state.registers = draw.check state.registers :=
    rfl
  -- no branch looks at the winding, except for the line that is said
  unfold run at hresult ⊢
  rw [hcheck]
  cases hfound : draw.check state.registers with
  | error reason =>
    rw [hfound] at hresult
    rw [← hresult]
    rfl
  | ok checked =>
    rw [hfound] at hresult
    dsimp only [wind] at hresult ⊢
    cases hread : scratch.readPositions draw.type layout data draw.vertices with
    | error error =>
      rw [hread] at hresult
      rw [← hresult]
      rfl
    | ok own =>
      rw [hread] at hresult
      dsimp only at hresult ⊢
      generalize own.placeOnScreen state.camera draw.type.through
        draw.vertices = placed at hresult ⊢
      obtain ⟨placed, seen⟩ := placed
      rw [← hresult]
      cases seen <;> rfl

/-! ## Sessions -/

namespace Command

/-- The number of vertices for which a command needs room. -/
def vertices : Command → Nat
  | draw d _ _ _ _ => d.vertices
  | _ => 0

/-- The command, with another winding if it is a draw. -/
def wind (winding : Winding) : Command → Command
  | draw d layout state data scissor =>
    draw (d.wind winding) layout state data scissor
  | command => command

end Command

/-- The reply with another winding in what is said. -/
def Reply.wind (winding : Winding) (reply : Reply) : Reply :=
  { reply with events := reply.events.map (·.wind winding) }

namespace Session

/-- No command changes the capacity of the scratch storage. -/
theorem capacity_step (session : Session) (command : Command) :
    (session.step command).1.scratch.capacity = session.scratch.capacity := by
  cases command with
  | draw draw layout state data scissor => exact Draw.capacity_run ..
  | fill | triangle | clear | choose | resetCounters => rfl

theorem capacity_run (session : Session) (commands : List Command) :
    (session.run commands).1.scratch.capacity = session.scratch.capacity := by
  induction commands generalizing session with
  | nil => rfl
  | cons command commands ih => exact (ih _).trans (session.capacity_step _)

/-- A command with other scratch storage, if there is room in both. -/
theorem step_of_scratch (session : Session) (scratch : Scratch)
    (command : Command)
    (h : scratch.capacity = session.scratch.capacity
      ∨ command.vertices ≤ session.scratch.capacity
        ∧ command.vertices ≤ scratch.capacity) :
    let other := ({ session with scratch } : Session).step command
    other.2 = (session.step command).2
      ∧ other.1
        = { (session.step command).1 with scratch := other.1.scratch } := by
  intro other
  -- only draws look at the scratch storage
  cases command with
  | draw draw layout state data scissor =>
    have hagrees : Draw.Result.Agrees
        (draw.run session.rasterizer (scissor.getD session.surface.bounds)
          layout state data scratch session.surface)
        (draw.run session.rasterizer (scissor.getD session.surface.bounds)
          layout state data session.scratch session.surface) :=
      Draw.agrees_run_of_scratch _ _ _ h
    obtain ⟨hsurface, hwork, houtcome, hevents⟩ := hagrees
    refine ⟨?_, ?_⟩
    · exact congrArg₂ (fun outcome events => Reply.mk (.drawn outcome) events)
        houtcome hevents
    · exact congrArg₂ (fun surface work => Session.mk session.rasterizer surface
        other.1.scratch (session.counters + work)) hsurface hwork
  | fill | triangle | clear | choose | resetCounters => exact ⟨rfl, rfl⟩

/-- Commands with other scratch storage, if there is room in both. -/
theorem run_of_scratch (session : Session) (scratch : Scratch)
    (commands : List Command)
    (h : scratch.capacity = session.scratch.capacity
      ∨ ∀ command ∈ commands, command.vertices ≤ session.scratch.capacity
        ∧ command.vertices ≤ scratch.capacity) :
    let other := ({ session with scratch } : Session).run commands
    other.2 = (session.run commands).2
      ∧ other.1
        = { (session.run commands).1 with scratch := other.1.scratch } := by
  induction commands generalizing session scratch with
  | nil => exact ⟨rfl, rfl⟩
  | cons command commands ih =>
    intro other
    let first := session.step command
    let first' := ({ session with scratch } : Session).step command
    obtain ⟨hreply, hnext⟩ := session.step_of_scratch scratch command
      (h.imp_right fun h => h command List.mem_cons_self)
    have hnext : first'.1 = { first.1 with scratch := first'.1.scratch } :=
      hnext
    -- the rest goes on with storage of the same two capacities
    have hroom : first'.1.scratch.capacity = first.1.scratch.capacity
        ∨ ∀ c ∈ commands, c.vertices ≤ first.1.scratch.capacity
          ∧ c.vertices ≤ first'.1.scratch.capacity := by
      rw [capacity_step, capacity_step]
      exact h.imp_right fun h c hc => h c (List.mem_cons_of_mem command hc)
    obtain ⟨hreplies, hlast⟩ := ih first.1 first'.1.scratch hroom
    have hother : ({ first.1 with scratch := first'.1.scratch } : Session).run
        commands = first'.1.run commands := congrArg (run · commands) hnext.symm
    rw [hother] at hreplies hlast
    exact ⟨congrArg₂ List.cons hreply hreplies, hlast⟩

theorem step_wind (winding : Winding) (session : Session) (command : Command) :
    session.step (command.wind winding)
      = ((session.step command).1, (session.step command).2.wind winding) := by
  cases command with
  | draw draw layout state data scissor =>
    have hrun := draw.run_wind winding session.rasterizer
      (scissor.getD session.surface.bounds) layout state data session.scratch
      session.surface
    show (Session.mk _ (Draw.Result.surface _) _ _, _) = _
    rw [hrun]
    rfl
  | fill | triangle | clear | choose | resetCounters => rfl

theorem run_wind (winding : Winding) (session : Session)
    (commands : List Command) :
    session.run (commands.map (·.wind winding))
      = ((session.run commands).1,
        (session.run commands).2.map (·.wind winding)) := by
  induction commands generalizing session with
  | nil => rfl
  | cons command commands ih =>
    rw [List.map_cons, run, step_wind]
    dsimp only
    rw [ih]
    rfl

/-- **What commands do not depend on.** Sessions that only differ in their scratch
storage, in its capacity or in what earlier draws have left there, answer and say
the same and differ in nothing else afterwards, as long as both have room for the
draws, or the same room. Both parts of the storage keep their length. The
windings of draws are said, and that is all that comes of them. -/
theorem independent_run (session : Session) (commands : List Command) :
    (∀ scratch : Scratch,
        (scratch.capacity = session.scratch.capacity
          ∨ ∀ command ∈ commands, command.vertices ≤ session.scratch.capacity
            ∧ command.vertices ≤ scratch.capacity) →
        let other := ({ session with scratch } : Session).run commands
        other.2 = (session.run commands).2
          ∧ other.1
            = { (session.run commands).1 with scratch := other.1.scratch })
      ∧ (session.run commands).1.scratch.positions.size
        = session.scratch.capacity
      ∧ (session.run commands).1.scratch.screen.size
        = session.scratch.capacity
      ∧ ∀ winding, session.run (commands.map (·.wind winding))
        = ((session.run commands).1,
          (session.run commands).2.map (·.wind winding)) := by
  have hcapacity := session.capacity_run commands
  refine ⟨?_, hcapacity, ?_, ?_⟩
  · intro scratch h
    exact session.run_of_scratch scratch commands h
  · rw [Scratch.size_eq]
    exact hcapacity
  · intro winding
    exact session.run_wind winding commands

/-- A triangle drawn with new scratch storage, and with storage that has more
room and in which other draws have left vertices, one that was skipped for being
behind the camera among them. -/
theorem independent_run_reused :
    let session : Session :=
      { rasterizer := .standard
        surface := .blank 4 4
        scratch := .ofCapacity 3
        counters := 0 }
    let through : VertexType := { position := .int8, through := true }
    let state : RenderState := { registers := { test := .less } }
    let behind : Camera :=
      { projection := { Projection.identity with wAxis := ⟨0, 0, 0, -1⟩ } }
    let data : Array UInt8 := #[0, 0, 5, 0, 4, 5, 4, 0, 5]
    let used : Scratch :=
      (({ session with scratch := .ofCapacity 5 } : Session).run
        [.draw ⟨.rectangles, 4, through, .clockwise⟩ ⟨2, 0⟩ state
          #[1, 2, 3, 4, 3, 2, 1, 2, 3] none,
        .draw ⟨.triangles, 3, { position := .int8 }, .clockwise⟩ ⟨3, 0⟩
          { state with camera := behind } data none,
        .draw ⟨.triangles, 6, through, .clockwise⟩ ⟨3, 0⟩ state data
          none]).1.scratch
    let commands : List Command :=
      [.draw ⟨.triangles, 3, through, .clockwise⟩ ⟨3, 0⟩ state data none]
    let other := ({ session with scratch := used } : Session).run commands
    used.screen.toList.map (·.behind) = [true, true, true, false, false]
      ∧ (∀ command ∈ commands, command.vertices ≤ session.scratch.capacity
        ∧ command.vertices ≤ used.capacity)
      ∧ (session.run commands).2 = [⟨.drawn (.ok (.drawn
          { triangles := 1, pixelsWritten := 13 })),
        [.drawing .triangles 3 .less .clockwise]⟩]
      ∧ other.2 = (session.run commands).2
      ∧ other.1
        = { (session.run commands).1 with scratch := other.1.scratch } := by
  intro session through state behind data used commands other
  have hused : used.screen.toList.map (·.behind)
      = [true, true, true, false, false] := by decide +kernel
  have hroom : ∀ command ∈ commands,
      command.vertices ≤ session.scratch.capacity
        ∧ command.vertices ≤ used.capacity := by decide +kernel
  let result := Draw.run session.rasterizer session.surface.bounds
    ⟨.triangles, 3, through, .clockwise⟩ ⟨3, 0⟩ state data session.scratch
    session.surface
  have houtcome : result.outcome
      = .ok (.drawn { triangles := 1, pixelsWritten := 13 }) := by
    decide +kernel
  have hevents : result.events = [.drawing .triangles 3 .less .clockwise] := by
    decide +kernel
  have hreplies : (session.run commands).2
      = [⟨.drawn result.outcome, result.events⟩] := rfl
  rw [houtcome, hevents] at hreplies
  exact ⟨hused, hroom, hreplies,
    (session.independent_run commands).1 used (.inr hroom)⟩

end Session

end DepthPrepass
