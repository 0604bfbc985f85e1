import DepthPrepass.Proofs.Assembly
import DepthPrepass.Proofs.DrawOutcome
import DepthPrepass.Proofs.Strokes

/-!
# Draws as strokes

A draw that is not skipped or refused paints strokes, all of them by one
rasterizer, in one scissor, under one test. Which shapes these have is decided
by the vertices alone, and where a vertex comes to be is decided by the data:
the scratch storage only has to be large enough, whatever earlier draws have
left in it.

* `Draw.vertexAt`: a vertex, directly from the data.
* `Draw.shapes`, `Draw.strokes`: what a draw paints.
* `Draw.Progress.Follows`, `Draw.follows_paint`: painting as strokes, with the
  statistics and the work.
* `Draw.run_of_fate_drawn`, `Draw.follows_run`, `Draw.receives_run`: the whole
  draw.
-/

namespace DepthPrepass

/-! ## Work -/

/-- Work can be summed in any order. -/
instance : AddCommMonoid Counters where
  add_assoc a b c := Counters.ext_get fun k => by
    simp only [Counters.get_add, UInt64.add_assoc]
  zero_add a := Counters.ext_get fun k => by
    rw [Counters.get_add, Counters.get_zero, UInt64.zero_add]
  add_zero a := Counters.ext_get fun k => by
    rw [Counters.get_add, Counters.get_zero, UInt64.add_zero]
  add_comm a b := Counters.ext_get fun k => by
    rw [Counters.get_add, Counters.get_add, UInt64.add_comm]
  nsmul := nsmulRec

theorem Counters.count_add (k : Counter) (m n : UInt64) :
    count k m + count k n = count k (m + n) :=
  ext_get fun j => by
    rw [get_add, get_count, get_count, get_count]
    split
    · rfl
    · exact UInt64.add_zero 0

/-! ## Vertices -/

/-- A vertex on the screen, directly from the data. -/
def Draw.vertexAt (draw : Draw) (layout : VertexLayout) (state : RenderState)
    (data : Array UInt8) (i : Nat) : ScreenVertex :=
  let position :=
    layout.positionAt draw.type.position draw.type.through data i
  if draw.type.through then .ofPosition position
  else state.camera.project position

/-- The vertices of a draw after they have been brought to the screen. -/
theorem Scratch.vertex_placeOnScreen (scratch : Scratch) (camera : Camera)
    (through : Bool) {count i : Nat} (hroom : count ≤ scratch.capacity)
    (hi : i < count) :
    (scratch.placeOnScreen camera through count).1.vertex i
      = if through then .ofPosition (scratch.positions.getD i .zero)
        else camera.project (scratch.positions.getD i .zero) := by
  have hsize : i < scratch.screen.size := by
    rw [scratch.size_eq]
    exact Nat.lt_of_lt_of_le hi hroom
  show (scratch.screenOf camera through count).1.getD i default = _
  rw [Array.getD_eq_getD_getElem?]
  -- both ways overwrite the first `count` places of the screen, which are there
  cases through with
  | true =>
    show ((Buffer.overwrite scratch.screen count _)[i]?).getD default = _
    rw [Buffer.getElem?_overwrite, if_pos ⟨hi, hsize⟩]
    rfl
  | false =>
    show ((Buffer.overwrite scratch.screen count _)[i]?).getD default = _
    rw [Buffer.getElem?_overwrite, if_pos ⟨hi, hsize⟩]
    rfl

/-! ## Shapes -/

namespace Draw

/-- The rectangle between two vertices, at the depth of the second. -/
def rectangleBetween (a b : ScreenVertex) : Rectangle :=
  ⟨a.x, a.y, b.x, b.y, b.z⟩

/-- The triangles that a number of vertices is assembled into. -/
def assembled (topology : Topology) (vertex : Nat → ScreenVertex)
    (count : Nat) : List Triangle :=
  (topology.triangles (topology.triangleCount count)).map (·.map vertex)

/-- What is painted of a number of vertices: rectangles, or the triangles none
of whose corners is behind the camera. -/
def assembledShapes (assembly : Assembly) (vertex : Nat → ScreenVertex)
    (count : Nat) : List Shape :=
  match assembly with
  | .rectangles =>
    (Assembly.rectanglePairs (Assembly.rectangleCount count)).map fun pair =>
      .rectangle (rectangleBetween (vertex pair.1) (vertex pair.2))
  | .triangles topology =>
    ((assembled topology vertex count).filter
      fun t => !t.any (·.behind)).map .triangle

/-- How many triangles are left out because a corner is behind the camera. -/
def assembledBehind (assembly : Assembly) (vertex : Nat → ScreenVertex)
    (count : Nat) : Nat :=
  match assembly with
  | .rectangles => 0
  | .triangles topology =>
    (assembled topology vertex count).countP fun t => t.any (·.behind)

end Draw

/-- Whether a shape is a triangle. -/
def Shape.isTriangle : Shape → Bool
  | .rectangle _ => false
  | .triangle _ => true

/-! ## Painting -/

namespace Stroke

theorem paintAll_append (strokes others : List Stroke) (s : Surface) :
    paintAll (strokes ++ others) s = paintAll others (paintAll strokes s) :=
  List.foldl_append

theorem paintEach_append (strokes others : List Stroke) (s : Surface) :
    paintEach (strokes ++ others) s
      = paintEach strokes s ++ paintEach others (paintAll strokes s) := by
  induction strokes generalizing s with
  | nil => rfl
  | cons stroke strokes ih =>
    rw [List.cons_append, paintEach, ih]
    rfl

end Stroke

namespace Draw

/-- A draw in the course of painting that has painted some strokes and left out
some triangles. -/
structure Progress.Follows (progress : Progress) (strokes : List Stroke)
    (behind : Nat) (s : Surface) : Prop where
  surface_eq : progress.surface = Stroke.paintAll strokes s
  triangles_eq : progress.stats.triangles
    = strokes.countP (·.shape.isTriangle)
  behind_eq : progress.stats.trianglesBehind = behind
  written_eq : progress.stats.pixelsWritten
    = ((Stroke.paintEach strokes s).map (·.written)).sum
  work_eq : progress.work
    = ((Stroke.paintEach strokes s).map (·.work)).sum
      + .count .trianglesBehind behind.toUInt64

variable (r : Rasterizer) (scissor : Region) (test : DepthTest)
  (vertex : Nat → ScreenVertex)

namespace Progress.Follows

variable {progress next : Progress} {strokes : List Stroke} {behind : Nat}
  {s : Surface}

/-- Nothing has been painted before the first stroke. -/
theorem start (s : Surface) : Follows ⟨s, {}, 0⟩ [] 0 s :=
  ⟨rfl, rfl, rfl, rfl, rfl⟩

/-- What a step that paints a stroke must do. -/
theorem stroke (h : progress.Follows strokes behind s) (k : Stroke)
    (hsurface : next.surface = (k.paint progress.surface).surface)
    (htriangles : next.stats.triangles
      = progress.stats.triangles + k.shape.isTriangle.toNat)
    (hbehind : next.stats.trianglesBehind = progress.stats.trianglesBehind)
    (hwritten : next.stats.pixelsWritten
      = progress.stats.pixelsWritten + (k.paint progress.surface).written)
    (hwork : next.work = progress.work + (k.paint progress.surface).work) :
    next.Follows (strokes ++ [k]) behind s where
  surface_eq := by
    rw [hsurface, h.surface_eq, Stroke.paintAll_append]
    rfl
  triangles_eq := by
    rw [htriangles, h.triangles_eq, List.countP_append, List.countP_singleton]
    cases k.shape.isTriangle <;> rfl
  behind_eq := hbehind.trans h.behind_eq
  written_eq := by
    -- the stroke has found the surface that the ones before it have left
    rw [hwritten, h.written_eq, h.surface_eq, Stroke.paintEach_append,
      List.map_append, List.sum_append]
    rfl
  work_eq := by
    rw [hwork, h.work_eq, h.surface_eq, Stroke.paintEach_append,
      List.map_append, List.sum_append, add_right_comm]
    congr 2
    exact (add_zero _).symm

/-- Rectangles are strokes. -/
theorem paintRectangle (h : progress.Follows strokes behind s)
    (pair : Nat × Nat) :
    (Draw.paintRectangle r scissor test vertex progress pair).Follows
      (strokes ++ [⟨r, scissor, test,
        .rectangle (rectangleBetween (vertex pair.1) (vertex pair.2))⟩])
      behind s := by
  let k : Stroke := ⟨r, scissor, test,
    .rectangle (rectangleBetween (vertex pair.1) (vertex pair.2))⟩
  have hpaint (s : Surface) : r.paintRectangle scissor
      ⟨(vertex pair.1).x, (vertex pair.1).y, (vertex pair.2).x,
        (vertex pair.2).y, (vertex pair.2).z⟩ test s = k.paint s := rfl
  obtain ⟨surface, stats, work⟩ := progress
  unfold Draw.paintRectangle
  dsimp only
  rw [hpaint]
  exact h.stroke k (by dsimp only) rfl rfl (by dsimp only) (by dsimp only)

/-- A triangle in front of the camera is a stroke. -/
theorem paintTriangle (h : progress.Follows strokes behind s)
    {corners : Triple Nat}
    (hfront : (corners.map vertex).any (·.behind) = false) :
    (Draw.paintTriangle r scissor test vertex progress corners).Follows
      (strokes ++ [⟨r, scissor, test, .triangle (corners.map vertex)⟩])
      behind s := by
  -- no corner is behind, so the step is a stroke and its bookkeeping
  have hstep : Draw.paintTriangle r scissor test vertex progress corners
      = let painted := r.paintTriangle scissor (corners.map vertex) test
          progress.surface
        { surface := painted.surface
          stats :=
            { progress.stats with
              triangles := progress.stats.triangles + 1
              pixelsWritten :=
                progress.stats.pixelsWritten + painted.written }
          work := progress.work + painted.work } := by
    unfold Draw.paintTriangle
    dsimp only
    rw [hfront]
    exact if_neg Bool.false_ne_true
  rw [hstep]
  exact h.stroke _ rfl rfl rfl rfl rfl

/-- A triangle with a corner behind the camera is left out. -/
theorem leaveOut (h : progress.Follows strokes behind s)
    {corners : Triple Nat}
    (hbehind : (corners.map vertex).any (·.behind) = true) :
    (Draw.paintTriangle r scissor test vertex progress corners).Follows
      strokes (behind + 1) s := by
  have hstep : Draw.paintTriangle r scissor test vertex progress corners
      = { surface := progress.surface
          stats :=
            { progress.stats with
              trianglesBehind := progress.stats.trianglesBehind + 1 }
          work := progress.work + .count .trianglesBehind 1 } := by
    unfold Draw.paintTriangle
    dsimp only
    exact if_pos hbehind
  -- counting the triangles and adding ones modulo the counter is the same
  have hcount : Counters.count .trianglesBehind (behind + 1).toUInt64
      = .count .trianglesBehind behind.toUInt64 + .count .trianglesBehind 1 := by
    rw [Counters.count_add]
    congr 1
    exact UInt64.ofNat_add behind 1
  rw [hstep]
  refine ⟨h.surface_eq, h.triangles_eq, congrArg (· + 1) h.behind_eq,
    h.written_eq, ?_⟩
  rw [hcount, ← add_assoc, ← h.work_eq]

end Progress.Follows

theorem follows_paintRectangles (pairs : List (Nat × Nat))
    {progress : Progress} {strokes : List Stroke} {behind : Nat} {s : Surface}
    (h : progress.Follows strokes behind s) :
    (pairs.foldl (paintRectangle r scissor test vertex) progress).Follows
      (strokes ++ pairs.map fun pair => ⟨r, scissor, test,
        .rectangle (rectangleBetween (vertex pair.1) (vertex pair.2))⟩)
      behind s := by
  induction pairs generalizing progress strokes with
  | nil =>
    rw [List.map_nil, List.append_nil]
    exact h
  | cons pair pairs ih =>
    rw [List.foldl_cons, List.map_cons]
    have hrest := ih (h.paintRectangle r scissor test vertex pair)
    rw [List.append_assoc] at hrest
    exact hrest

theorem follows_paintTriangles (corners : List (Triple Nat))
    {progress : Progress} {strokes : List Stroke} {behind : Nat} {s : Surface}
    (h : progress.Follows strokes behind s) :
    (corners.foldl (paintTriangle r scissor test vertex) progress).Follows
      (strokes ++ (((corners.map (·.map vertex)).filter
          fun t => !t.any (·.behind)).map fun t =>
            ⟨r, scissor, test, .triangle t⟩))
      (behind + (corners.map (·.map vertex)).countP fun t =>
        t.any (·.behind)) s := by
  -- on the triangles that are left, with what has been painted so far
  induction corners generalizing progress strokes behind with
  | nil =>
    rw [List.map_nil, List.filter_nil, List.map_nil, List.append_nil]
    exact h
  | cons first corners ih =>
    rw [List.foldl_cons, List.map_cons, List.filter_cons, List.countP_cons]
    cases hbehind : (first.map vertex).any (·.behind) with
    | false =>
      -- in front: the stroke goes to the end of those painted so far
      have hrest := ih (h.paintTriangle r scissor test vertex hbehind)
      rw [List.append_assoc] at hrest
      exact hrest
    | true =>
      -- behind: no stroke, and one more that is left out
      have hrest := ih (h.leaveOut r scissor test vertex hbehind)
      rw [Nat.add_right_comm, Nat.add_assoc] at hrest
      exact hrest

/-- **Painting as strokes**: what a number of vertices is assembled into is
painted stroke by stroke, and what is left out is counted. -/
theorem follows_paint (assembly : Assembly) (count : Nat) (s : Surface) :
    (paint r scissor test assembly vertex count s).Follows
      ((assembledShapes assembly vertex count).map fun shape =>
        ⟨r, scissor, test, shape⟩)
      (assembledBehind assembly vertex count) s := by
  -- rectangles are never left out, triangles with a corner behind always are
  cases assembly with
  | rectangles =>
    have h := follows_paintRectangles r scissor test vertex
      (Assembly.rectanglePairs (Assembly.rectangleCount count)) (.start s)
    rw [assembledShapes, List.map_map]
    exact h
  | triangles topology =>
    have h := follows_paintTriangles r scissor test vertex
      (topology.triangles (topology.triangleCount count)) (.start s)
    rw [Nat.zero_add] at h
    rw [assembledShapes, List.map_map]
    exact h

/-- Painting looks at no vertex that the draw does not have. -/
theorem paint_congr {vertex vertex' : Nat → ScreenVertex} {count : Nat}
    (h : ∀ i < count, vertex i = vertex' i) (assembly : Assembly)
    (s : Surface) :
    paint r scissor test assembly vertex count s
      = paint r scissor test assembly vertex' count s := by
  -- the corners that are assembled are numbers of vertices of the draw
  cases assembly with
  | rectangles =>
    refine List.foldl_ext _ _ _ fun progress pair hpair => ?_
    obtain ⟨hfirst, hsecond⟩ := Assembly.pair_lt hpair
    unfold paintRectangle
    rw [h _ hfirst, h _ hsecond]
  | triangles topology =>
    refine List.foldl_ext _ _ _ fun progress corners hcorners => ?_
    have hmap : corners.map vertex = corners.map vertex' :=
      Triple.map_congr fun i hi => h i (Topology.mem_toList_lt hcorners hi)
    unfold paintTriangle
    rw [hmap]

/-! ## The draw -/

variable (draw : Draw) (layout : VertexLayout) (state : RenderState)
  (data : Array UInt8)

theorem outcome_of_fate_drawn {scratch : Scratch} (s : Surface)
    (h : draw.fate layout state data scratch.capacity = .drawn) :
    ∃ stats, (draw.run r scissor layout state data scratch s).outcome
      = .ok (.drawn stats) := by
  rcases run_cases r scissor draw layout state data scratch s with
    ⟨reason, scratch', hfate, -⟩ | ⟨error, hfate, -⟩
      | ⟨-, stats, test, houtcome, -⟩
  · rw [h] at hfate
    cases hfate
  · rw [h] at hfate
    cases hfate
  · exact ⟨stats, houtcome⟩

/-- **A draw that is drawn** paints what its vertices are assembled into, with
the vertices taken from the data as if there were no scratch storage. -/
theorem run_of_fate_drawn {scratch : Scratch} (s : Surface)
    (h : draw.fate layout state data scratch.capacity = .drawn) :
    ∃ test assembly, draw.check state.registers = .ok (test, assembly)
      ∧ let progress := paint r scissor test assembly
          (draw.vertexAt layout state data) draw.vertices s
        let result := draw.run r scissor layout state data scratch s
        result.surface = progress.surface
          ∧ result.work = .count .drawCalls 1 + progress.work
          ∧ result.outcome = .ok (.drawn progress.stats) := by
  obtain ⟨stats, houtcome⟩ :=
    outcome_of_fate_drawn r scissor draw layout state data s h
  unfold run at houtcome ⊢
  -- of the ways that a draw can go only the last one has this outcome
  cases hcheck : draw.check state.registers with
  | error reason =>
    rw [hcheck] at houtcome
    cases houtcome
  | ok checked =>
    obtain ⟨test, assembly⟩ := checked
    refine ⟨test, assembly, rfl, ?_⟩
    have hformat : draw.type.position ≠ .none := position_ne_none
      (eq_none_of_eq_ok (fun _ => check_eq_error_iff) hcheck)
    rw [hcheck] at houtcome
    dsimp only at houtcome ⊢
    rcases scratch.readPositions_cases draw layout data with
      ⟨-, hread⟩ | ⟨-, -, -, hread⟩ | ⟨hroom, -, own, hread, hpositions⟩
    · rw [hread] at houtcome
      cases houtcome
    · rw [hread] at houtcome
      cases houtcome
    · rw [hread] at houtcome ⊢
      dsimp only at houtcome ⊢
      have hcapacity : draw.vertices ≤ own.capacity := by
        rw [Scratch.capacity_of_readPositions hread]
        exact hroom
      have hvertex (i : Nat) (hi : i < draw.vertices) :
          (own.placeOnScreen state.camera draw.type.through
              draw.vertices).1.vertex i
            = draw.vertexAt layout state data i := by
        rw [own.vertex_placeOnScreen _ _ hcapacity hi, hpositions hformat i hi]
        rfl
      generalize own.placeOnScreen state.camera draw.type.through
        draw.vertices = placed at houtcome hvertex ⊢
      obtain ⟨placed, seen⟩ := placed
      cases seen with
      | false => cases houtcome
      | true =>
        dsimp only
        rw [paint_congr r scissor test hvertex]
        exact ⟨rfl, rfl, rfl⟩

/-- The scratch storage of a draw keeps its capacity. -/
theorem capacity_run (scratch : Scratch) (s : Surface) :
    (draw.run r scissor layout state data scratch s).scratch.capacity
      = scratch.capacity := by
  unfold run
  split
  · rfl
  · split
    · rfl
    · -- reading and placing are all that a run does to the storage
      next own hread =>
      have hcapacity := Scratch.capacity_of_readPositions hread
      have hplaced := own.capacity_placeOnScreen state.camera draw.type.through
        draw.vertices
      split
      · next placed heq =>
        rw [heq] at hplaced
        exact hplaced.trans hcapacity
      · next placed heq =>
        rw [heq] at hplaced
        exact hplaced.trans hcapacity

/-- What a draw paints, with the test. A draw that is skipped or refused paints
nothing. -/
def shapes (capacity : Nat) : List (DepthTest × Shape) :=
  match draw.fate layout state data capacity, draw.check state.registers with
  | .drawn, .ok (test, assembly) =>
    (assembledShapes assembly (draw.vertexAt layout state data)
      draw.vertices).map fun shape => (test, shape)
  | _, _ => []

/-- The strokes of a draw. -/
def strokes (capacity : Nat) : List Stroke :=
  (draw.shapes layout state data capacity).map fun (test, shape) =>
    ⟨r, scissor, test, shape⟩

/-- The statistics of an outcome. A draw that has not been drawn has done
nothing. -/
def stats : Except DrawError DrawOutcome → DrawStats
  | .ok (.drawn stats) => stats
  | .ok (.skipped _) | .error _ => {}

theorem pixelsWritten_stats (outcome : DrawOutcome) :
    (stats (.ok outcome)).pixelsWritten = outcome.pixelsWritten := by
  cases outcome <;> rfl

/-- Whether an outcome is that a draw was skipped. -/
def isSkipped : Except DrawError DrawOutcome → Bool
  | .ok outcome => outcome.isSkipped
  | .error _ => false

/-- What a draw that paints some strokes leaves, says and counts. -/
structure Result.Follows (result : Result) (strokes : List Stroke)
    (s : Surface) : Prop where
  surface_eq : result.surface = Stroke.paintAll strokes s
  triangles_eq : (stats result.outcome).triangles
    = strokes.countP (·.shape.isTriangle)
  written_eq : (stats result.outcome).pixelsWritten
    = ((Stroke.paintEach strokes s).map (·.written)).sum
  work_eq : result.work
    = ((Stroke.paintEach strokes s).map (·.work)).sum
      + { drawCalls := 1
          drawsSkipped := (isSkipped result.outcome).toNat.toUInt64
          trianglesBehind := (stats result.outcome).trianglesBehind.toUInt64 }

/-- **A draw paints its strokes**, whatever becomes of it. -/
theorem follows_run (scratch : Scratch) (s : Surface) :
    (draw.run r scissor layout state data scratch s).Follows
      (draw.strokes r scissor layout state data scratch.capacity) s := by
  -- only a draw that is drawn has strokes
  have hempty (h : draw.fate layout state data scratch.capacity ≠ .drawn) :
      draw.strokes r scissor layout state data scratch.capacity = [] := by
    unfold strokes shapes
    split
    · next hfate _ => exact absurd hfate h
    · rfl
  rcases run_cases r scissor draw layout state data scratch s with
    ⟨reason, scratch', hfate, hrun⟩ | ⟨error, hfate, hrun⟩ | ⟨hfate, -⟩
  · rw [hempty (by rw [hfate]; nofun), hrun]
    exact ⟨rfl, rfl, rfl, rfl⟩
  · rw [hempty (by rw [hfate]; nofun), hrun]
    exact ⟨rfl, rfl, rfl, rfl⟩
  · obtain ⟨test, assembly, hcheck, hsurface, hwork, houtcome⟩ :=
      run_of_fate_drawn r scissor draw layout state data s hfate
    have hstrokes : draw.strokes r scissor layout state data scratch.capacity
        = (assembledShapes assembly (draw.vertexAt layout state data)
            draw.vertices).map fun shape => ⟨r, scissor, test, shape⟩ := by
      unfold strokes shapes
      rw [hfate, hcheck]
      exact List.map_map ..
    have h := follows_paint r scissor test (draw.vertexAt layout state data)
      assembly draw.vertices s
    have hstats := congrArg stats houtcome
    rw [hstrokes]
    refine ⟨hsurface.trans h.surface_eq, ?_, ?_, ?_⟩
    · rw [hstats]
      exact h.triangles_eq
    · rw [hstats]
      exact h.written_eq
    · rw [hwork, hstats, congrArg isSkipped houtcome, h.work_eq, add_left_comm]
      congr 1
      rw [← h.behind_eq]
      -- only what is left out is counted apart from the strokes
      refine Counters.ext_get fun k => ?_
      cases k with
      | trianglesBehind => exact UInt64.zero_add _
      | _ => rfl

/-- **A draw, cell by cell**: each cell receives what the draw's strokes have for
it, and what is said to be written has been. -/
theorem receives_run (scratch : Scratch) (s : Surface) :
    let result := draw.run r scissor layout state data scratch s
    s.Receives
      (fun j => (draw.strokes r scissor layout state data
        scratch.capacity).filterMap (·.candidateAt? s.layout j))
      result.surface (stats result.outcome).pixelsWritten := by
  intro result
  have h := follows_run r scissor draw layout state data scratch s
  rw [h.surface_eq, h.written_eq]
  exact Stroke.receives_paintAll _ s

end Draw

end DepthPrepass
