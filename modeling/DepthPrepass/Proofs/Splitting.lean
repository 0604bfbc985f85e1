import DepthPrepass.Proofs.Expansion
import DepthPrepass.Proofs.Tiling

/-!
# Drawing a batch in two parts

A batch of vertices can be handed over in two draws: its first vertices, and then
the others from where the first ones end. Every vertex is read from the same bytes
and comes to be in the same place, and if the first draw ends with a whole
primitive, the two draws are assembled into the same primitives.

But a draw of which everything is behind the camera is skipped, and that looks at
all of its vertices. Triangles do not notice: those with a corner behind the camera
are left out in any case, so a draw that is skipped has nothing to paint. Rectangles
are painted wherever their vertices are. They show in a batch with something in
front of the camera, and they do not show in a draw of their own.

* `VertexLayout.advance`: the layout of the vertices after the first ones.
* `Draw.assembledShapes_add`: the primitives of both parts.
* `Draw.Seen`: what keeps a draw that is not refused from being skipped.
* `Draw.strokes_of_ne_refused`: its strokes, all or nothing.
* `Draw.run_parts`: parts that have the strokes of the whole.
* `Draw.run_triangles_split`, `Draw.run_rectangles_split`: a draw in two parts.
* `Draw.rectangle_behind_depends_on_batch`: a rectangle that shows in a batch
  only.
-/

namespace DepthPrepass

/-! ## Vertices after the first ones -/

namespace VertexLayout

/-- The layout of the vertices from the one with number `n` on. -/
def advance (layout : VertexLayout) (n : Nat) : VertexLayout :=
  { layout with positionOffset := layout.positionOffset + n * layout.stride }

theorem address_advance (layout : VertexLayout) (format : PositionFormat)
    (n i j : Nat) :
    (layout.advance n).address format i j = layout.address format (n + i) j := by
  simp only [address, advance, Nat.add_mul]
  omega

theorem positionAt_advance (layout : VertexLayout) (format : PositionFormat)
    (through : Bool) (data : Array UInt8) (n i : Nat) :
    (layout.advance n).positionAt format through data i
      = layout.positionAt format through data (n + i) := by
  simp only [positionAt, address_advance]

end VertexLayout

/-! ## Primitives of two parts -/

/-- Whether the first `n` vertices make whole primitives that share no vertex
with those after them. -/
def Primitive.EndsAt (p : Primitive) (n : Nat) : Prop :=
  (p = .triangles ∧ 3 ∣ n) ∨ (p = .rectangles ∧ 2 ∣ n)

namespace Draw

/-- Triangles of two parts, if the first one ends with a whole triangle. -/
theorem assembled_list_add {n : Nat} (hn : 3 ∣ n) (m : Nat)
    (vertex : Nat → ScreenVertex) :
    assembled .list vertex (n + m)
      = assembled .list vertex n
        ++ assembled .list (fun i => vertex (n + i)) m := by
  obtain ⟨k, rfl⟩ := hn
  have hcount : Topology.list.triangleCount (3 * k + m)
      = Topology.list.triangleCount (3 * k) + Topology.list.triangleCount m := by
    simp only [Topology.triangleCount]
    omega
  have hfirst : Topology.list.triangleCount (3 * k) = k :=
    Nat.mul_div_cancel_left k (Nat.succ_pos 2)
  simp only [assembled, Topology.triangles, hcount, hfirst, List.range_add,
    List.map_append, List.map_map]
  refine congrArg _ (List.map_congr_left fun i _ => ?_)
  simp only [Function.comp, Triple.map, Nat.mul_add, Nat.add_assoc]

/-- Rectangles of two parts, if the first one ends with a whole rectangle. -/
theorem assembledShapes_rectangles_add {n : Nat} (hn : 2 ∣ n) (m : Nat)
    (vertex : Nat → ScreenVertex) :
    assembledShapes .rectangles vertex (n + m)
      = assembledShapes .rectangles vertex n
        ++ assembledShapes .rectangles (fun i => vertex (n + i)) m := by
  obtain ⟨k, rfl⟩ := hn
  have hcount : Assembly.rectangleCount (2 * k + m)
      = Assembly.rectangleCount (2 * k) + Assembly.rectangleCount m := by
    unfold Assembly.rectangleCount
    omega
  have hfirst : Assembly.rectangleCount (2 * k) = k :=
    Nat.mul_div_cancel_left k Nat.two_pos
  simp only [assembledShapes, Assembly.rectanglePairs, hcount, hfirst,
    List.range_add, List.map_append, List.map_map]
  refine congrArg _ (List.map_congr_left fun i _ => ?_)
  simp only [Function.comp, Nat.mul_add, Nat.add_assoc]

/-- Vertices of two parts, if no primitive has some of either. -/
theorem assembledShapes_add {p : Primitive} {assembly : Assembly} {n : Nat}
    (hassembly : p.assembly? = some assembly) (hn : p.EndsAt n) (m : Nat)
    (vertex : Nat → ScreenVertex) :
    assembledShapes assembly vertex (n + m)
      = assembledShapes assembly vertex n
        ++ assembledShapes assembly (fun i => vertex (n + i)) m := by
  rcases hn with ⟨rfl, hn⟩ | ⟨rfl, hn⟩ <;> cases hassembly
  · simp only [assembledShapes, assembled_list_add hn, List.filter_append,
      List.map_append]
  · exact assembledShapes_rectangles_add hn m vertex

/-! ## Parts of a draw -/

variable (r : Rasterizer) (scissor : Region) (draw : Draw)
  (layout : VertexLayout) (state : RenderState) (data : Array UInt8)

/-- The draw with another number of vertices. -/
def withVertices (n : Nat) : Draw :=
  { draw with vertices := n }

theorem vertexAt_advance (n m i : Nat) :
    (draw.withVertices m).vertexAt (layout.advance n) state data i
      = draw.vertexAt layout state data (n + i) := by
  simp only [vertexAt, withVertices, VertexLayout.positionAt_advance]

theorem clipW_advance (camera : Camera) (n m i : Nat) :
    (draw.withVertices m).clipW (layout.advance n) camera data i
      = draw.clipW layout camera data (n + i) := by
  simp only [clipW, withVertices, VertexLayout.positionAt_advance]

/-- Whether there is anything to see of a draw: its positions are screen
coordinates already, or one of its vertices is in front of the camera. -/
def Seen : Prop :=
  draw.type.through = true
    ∨ ∃ i < draw.vertices, 0 < draw.clipW layout state.camera data i

instance : Decidable (draw.Seen layout state data) :=
  inferInstanceAs (Decidable (_ ∨ _))

/-- There is something to see of a draw if and only if there is of a part. -/
theorem seen_add (n m : Nat) :
    (draw.withVertices (n + m)).Seen layout state data
      ↔ (draw.withVertices n).Seen layout state data
        ∨ (draw.withVertices m).Seen (layout.advance n) state data := by
  unfold Seen
  simp only [clipW_advance]
  constructor
  · rintro (hthrough | ⟨i, hi, hfront⟩)
    · exact .inl (.inl hthrough)
    · -- a vertex is one of the first part or, counted from there, the second
      by_cases hin : i < n
      · exact .inl (.inr ⟨i, hin, hfront⟩)
      · obtain ⟨j, rfl⟩ := Nat.exists_eq_add_of_le (Nat.not_lt.1 hin)
        exact .inr (.inr ⟨j, Nat.lt_of_add_lt_add_left hi, hfront⟩)
  · rintro ((hthrough | ⟨i, hi, hfront⟩) | hthrough | ⟨i, hi, hfront⟩)
    · exact .inl hthrough
    · exact .inr ⟨i, Nat.lt_add_right m hi, hfront⟩
    · exact .inl hthrough
    · exact .inr ⟨n + i, Nat.add_lt_add_left hi n, hfront⟩

/-! ## Draws that are not refused -/

variable {draw layout state data} {capacity : Nat}

/-- A draw is not refused if it is skipped before its vertices are read, or has
room and data. -/
theorem fate_ne_refused_iff :
    (∀ error, draw.fate layout state data capacity ≠ .refused error)
      ↔ (draw.skipReason? state.registers = none →
        draw.vertices ≤ capacity
          ∧ (0 < draw.vertices → draw.neededBytes layout ≤ data.size)) := by
  unfold fate
  cases draw.skipReason? state.registers with
  | some reason => exact ⟨fun _ => nofun, fun _ => nofun⟩
  | none =>
    dsimp only
    -- room is asked for first, then data; the camera is no reason to refuse
    by_cases hroom : capacity < draw.vertices
    · rw [if_pos hroom]
      exact ⟨fun h => absurd rfl (h _),
        fun h => absurd (h rfl).1 (Nat.not_le.2 hroom)⟩
    · by_cases hdata : 0 < draw.vertices ∧ data.size < draw.neededBytes layout
      · rw [if_neg hroom, if_pos hdata]
        exact ⟨fun h => absurd rfl (h _),
          fun h => absurd ((h rfl).2 hdata.1) (Nat.not_le.2 hdata.2)⟩
      · rw [if_neg hroom, if_neg hdata]
        refine ⟨fun _ _ => ⟨Nat.not_lt.1 hroom, fun hpos => ?_⟩, fun _ => ?_⟩
        · exact Nat.not_lt.1 fun hshort => hdata ⟨hpos, hshort⟩
        · split <;> nofun

/-- What becomes of a draw that is not refused. -/
theorem fate_of_ne_refused
    (h : ∀ error, draw.fate layout state data capacity ≠ .refused error) :
    draw.fate layout state data capacity
      = match draw.skipReason? state.registers with
        | some reason => .skipped reason
        | none =>
          if draw.Seen layout state data then .drawn
          else .skipped .allBehindCamera := by
  have hfits := fate_ne_refused_iff.1 h
  unfold fate
  cases hreason : draw.skipReason? state.registers with
  | some reason => rfl
  | none =>
    obtain ⟨hroom, hdata⟩ := hfits hreason
    dsimp only
    rw [if_neg (Nat.not_lt.2 hroom),
      if_neg fun hshort => Nat.not_le.2 hshort.2 (hdata hshort.1)]
    by_cases hseen : draw.Seen layout state data
    · rw [if_pos hseen,
        if_neg fun hunseen => hseen.elim hunseen.1 hunseen.2]
    · rw [if_neg hseen, if_pos (not_or.1 hseen)]

/-- The last vertex of the second part is the last one of the draw, so both need
the same data. -/
theorem neededBytes_advance (draw : Draw) (layout : VertexLayout) (n : Nat)
    {m : Nat} (hm : 0 < m) :
    (draw.withVertices m).neededBytes (layout.advance n)
      = (draw.withVertices (n + m)).neededBytes layout := by
  have hstride : (n + m - 1) * layout.stride
      = n * layout.stride + (m - 1) * layout.stride := by
    rw [Nat.add_sub_assoc hm, Nat.add_mul]
  simp only [neededBytes, withVertices, VertexLayout.advance]
  omega

/-- Neither part of a draw is refused unless the draw is. A first part without
vertices needs no data, but a second part does. -/
theorem fate_parts_ne_refused {n m : Nat} (hm : 0 < m)
    (h : ∀ error, (draw.withVertices (n + m)).fate layout state data capacity
      ≠ .refused error) :
    (∀ error, (draw.withVertices n).fate layout state data capacity
        ≠ .refused error)
      ∧ ∀ error, (draw.withVertices m).fate (layout.advance n) state data
        capacity ≠ .refused error := by
  simp only [fate_ne_refused_iff] at h ⊢
  constructor
  · intro hreason
    obtain ⟨hroom, hdata⟩ := h hreason
    refine ⟨Nat.le_trans (Nat.le_add_right n m) hroom, fun _ => ?_⟩
    refine Nat.le_trans ?_ (hdata (Nat.add_pos_right n hm))
    -- the data of the first part ends no later than that of the whole draw
    have hstride : (n - 1) * layout.stride ≤ (n + m - 1) * layout.stride :=
      Nat.mul_le_mul_right _ (by omega)
    simp only [neededBytes, withVertices]
    omega
  · intro hreason
    obtain ⟨hroom, hdata⟩ := h hreason
    refine ⟨Nat.le_trans (Nat.le_add_left m n) hroom, fun _ => ?_⟩
    rw [neededBytes_advance draw layout n hm]
    exact hdata (Nat.add_pos_right n hm)

variable (draw layout state data)

/-- What a draw is assembled into, as strokes, whether or not there is anything
to see of it. -/
def assembledStrokes : List Stroke :=
  match draw.check state.registers with
  | .error _ => []
  | .ok (test, assembly) =>
    (assembledShapes assembly (draw.vertexAt layout state data)
      draw.vertices).map fun shape => ⟨r, scissor, test, shape⟩

/-- The parts of a draw are assembled into what the draw is assembled into. -/
theorem assembledStrokes_add {n : Nat} (hn : draw.primitive.EndsAt n)
    (m : Nat) :
    (draw.withVertices (n + m)).assembledStrokes r scissor layout state data
      = (draw.withVertices n).assembledStrokes r scissor layout state data
        ++ (draw.withVertices m).assembledStrokes r scissor (layout.advance n)
          state data := by
  have hcheck (k : Nat) :
      (draw.withVertices k).check state.registers
        = draw.check state.registers := rfl
  have hvertex : (draw.withVertices m).vertexAt (layout.advance n) state data
      = fun i => draw.vertexAt layout state data (n + i) :=
    funext (draw.vertexAt_advance layout state data n m)
  unfold assembledStrokes
  simp only [hcheck, hvertex]
  -- the checks do not look at the number of vertices
  cases hchecked : draw.check state.registers with
  | error reason => rfl
  | ok checked =>
    obtain ⟨test, assembly⟩ := checked
    have hassembly := (eq_of_check_eq_ok hchecked).2
    dsimp only
    rw [← List.map_append]
    exact congrArg _ (assembledShapes_add hassembly hn m _)

variable {draw layout state data}

/-- **The strokes of a draw that is not refused**: all or nothing. -/
theorem strokes_of_ne_refused
    (h : ∀ error, draw.fate layout state data capacity ≠ .refused error) :
    draw.strokes r scissor layout state data capacity
      = if draw.Seen layout state data then
          draw.assembledStrokes r scissor layout state data
        else [] := by
  unfold strokes shapes assembledStrokes
  rw [fate_of_ne_refused h]
  cases hcheck : draw.check state.registers with
  | error reason =>
    rw [check_eq_error_iff.1 hcheck]
    exact (ite_self _).symm
  | ok checked =>
    rw [eq_none_of_eq_ok (fun _ => check_eq_error_iff) hcheck]
    by_cases hseen : draw.Seen layout state data
    · simp only [if_pos hseen]
      exact List.map_map ..
    · simp only [if_neg hseen]
      rfl

/-- There are no strokes if there are no shapes. -/
theorem assembledStrokes_eq_nil {assembly : Assembly}
    (hassembly : draw.primitive.assembly? = some assembly)
    (h : assembledShapes assembly (draw.vertexAt layout state data)
      draw.vertices = []) :
    draw.assembledStrokes r scissor layout state data = [] := by
  unfold assembledStrokes
  cases hcheck : draw.check state.registers with
  | error reason => rfl
  | ok checked =>
    obtain ⟨test, found⟩ := checked
    have hfound := (eq_of_check_eq_ok hcheck).2
    rw [hassembly] at hfound
    cases hfound
    dsimp only
    rw [h, List.map_nil]

/-- Of triangles of which there is nothing to see all are left out. -/
theorem assembledStrokes_of_not_seen {topology : Topology}
    (hassembly : draw.primitive.assembly? = some (.triangles topology))
    (hseen : ¬ draw.Seen layout state data) :
    draw.assembledStrokes r scissor layout state data = [] := by
  obtain ⟨hthrough, hfront⟩ := not_or.1 hseen
  -- with nothing in front of the camera every vertex is flagged
  have hbehind (i : Nat) (hi : i < draw.vertices) :
      (draw.vertexAt layout state data i).behind = true := by
    have hclip : ¬ 0 < draw.clipW layout state.camera data i :=
      fun h => hfront ⟨i, hi, h⟩
    unfold vertexAt
    rw [if_neg hthrough]
    simpa [Camera.project, Camera.toScreen, Vec4.inFront, clipW] using hclip
  refine assembledStrokes_eq_nil r scissor hassembly ?_
  simp only [assembledShapes, assembled, List.map_eq_nil_iff,
    List.filter_eq_nil_iff, List.mem_map]
  rintro _ ⟨corners, hcorners, rfl⟩
  -- one corner behind is enough, say the first
  have hfirst : corners.first < draw.vertices :=
    Topology.mem_toList_lt hcorners List.mem_cons_self
  simp [Triple.any, Triple.map, hbehind _ hfirst]

/-- Triangles are painted as if there always were something to see. -/
theorem strokes_of_triangles {topology : Topology}
    (hassembly : draw.primitive.assembly? = some (.triangles topology))
    (h : ∀ error, draw.fate layout state data capacity ≠ .refused error) :
    draw.strokes r scissor layout state data capacity
      = draw.assembledStrokes r scissor layout state data := by
  rw [strokes_of_ne_refused r scissor h]
  by_cases hseen : draw.Seen layout state data
  · rw [if_pos hseen]
  · rw [if_neg hseen, assembledStrokes_of_not_seen r scissor hassembly hseen]

/-! ## Drawing the parts -/

/-- **Two draws that paint the strokes of one** leave the same surface, and write
as many cells together. -/
theorem run_of_strokes_eq_append {whole first rest : Draw}
    {layout layout' : VertexLayout} {scratch : Scratch}
    (hstrokes : whole.strokes r scissor layout state data scratch.capacity
      = first.strokes r scissor layout state data scratch.capacity
        ++ rest.strokes r scissor layout' state data scratch.capacity)
    (s : Surface) :
    let result := whole.run r scissor layout state data scratch s
    let begun := first.run r scissor layout state data scratch s
    let ended := rest.run r scissor layout' state data begun.scratch
      begun.surface
    ended.surface = result.surface
      ∧ (stats begun.outcome).pixelsWritten + (stats ended.outcome).pixelsWritten
        = (stats result.outcome).pixelsWritten := by
  intro result begun ended
  -- the second draw finds the scratch storage used, but as large as before
  have hcapacity : begun.scratch.capacity = scratch.capacity :=
    first.capacity_run ..
  have hresult : result.Follows
      (first.strokes r scissor layout state data scratch.capacity
        ++ rest.strokes r scissor layout' state data scratch.capacity) s :=
    hstrokes ▸ whole.follows_run r scissor layout state data scratch s
  have hbegun : begun.Follows
      (first.strokes r scissor layout state data scratch.capacity) s :=
    first.follows_run r scissor layout state data scratch s
  have hended : ended.Follows
      (rest.strokes r scissor layout' state data scratch.capacity)
      begun.surface :=
    hcapacity ▸ rest.follows_run r scissor layout' state data begun.scratch
      begun.surface
  constructor
  · rw [hended.surface_eq, hbegun.surface_eq, hresult.surface_eq,
      Stroke.paintAll_append]
  · rw [hended.written_eq, hbegun.written_eq, hresult.written_eq,
      hbegun.surface_eq, Stroke.paintEach_append, List.map_append,
      List.sum_append]

/-- What it is that two parts of a draw that is not refused do: neither of them
is refused, they leave the surface that the draw leaves, and write as many
cells. -/
theorem run_parts {n m : Nat} (hm : 0 < m) {scratch : Scratch} {s : Surface}
    {outcome : DrawOutcome}
    (houtcome : ((draw.withVertices (n + m)).run r scissor layout state data
      scratch s).outcome = .ok outcome)
    (hstrokes : (draw.withVertices (n + m)).strokes r scissor layout state data
        scratch.capacity
      = (draw.withVertices n).strokes r scissor layout state data
          scratch.capacity
        ++ (draw.withVertices m).strokes r scissor (layout.advance n) state data
          scratch.capacity) :
    let whole := (draw.withVertices (n + m)).run r scissor layout state data
      scratch s
    let first := (draw.withVertices n).run r scissor layout state data scratch s
    let rest := (draw.withVertices m).run r scissor (layout.advance n) state
      data first.scratch first.surface
    rest.surface = whole.surface
      ∧ ∃ begun ended, first.outcome = .ok begun ∧ rest.outcome = .ok ended
        ∧ begun.pixelsWritten + ended.pixelsWritten = outcome.pixelsWritten := by
  intro whole first rest
  have hcapacity : first.scratch.capacity = scratch.capacity :=
    Draw.capacity_run ..
  have hfate := (outcome_ok_iff r _ layout state data scissor scratch s).1
    ⟨outcome, houtcome⟩
  -- refusal is a matter of room and data, of which the parts need no more
  obtain ⟨hfirst, hrest⟩ := fate_parts_ne_refused hm hfate
  obtain ⟨begun, hbegun⟩ :=
    (outcome_ok_iff r _ layout state data scissor scratch s).2 hfirst
  obtain ⟨ended, hended⟩ :=
    (outcome_ok_iff r _ (layout.advance n) state data scissor first.scratch
      first.surface).2 (hcapacity ▸ hrest)
  obtain ⟨hsurface, hwritten⟩ :=
    run_of_strokes_eq_append r scissor hstrokes s
  rw [hbegun, hended, houtcome] at hwritten
  simp only [pixelsWritten_stats] at hwritten
  exact ⟨hsurface, begun, ended, hbegun, hended, hwritten⟩

/-- What is left of the data begins within the data, if all of it was there. -/
theorem advance_positionOffset_le {n m : Nat} (hm : 0 < m)
    (hreason : draw.skipReason? state.registers = none)
    (hsize : data.size < Size.largest)
    (h : ∀ error, (draw.withVertices (n + m)).fate layout state data capacity
      ≠ .refused error) :
    (layout.advance n).positionOffset ≤ data.size := by
  have hneeded : (draw.withVertices m).neededBytes (layout.advance n)
      ≤ data.size := by
    rw [neededBytes_advance draw layout n hm]
    exact (fate_ne_refused_iff.1 h hreason).2 (Nat.add_pos_right n hm)
  unfold neededBytes at hneeded
  omega

variable (draw layout state data)

/-- **Triangles in two draws.** If triangles that share no vertices are drawn
and not refused, they can as well be handed over in two draws, the first of
which ends with a whole triangle: neither draw is refused, together they leave
the same surface, and they write as many cells. It does not matter which
vertices are behind the camera, and whether one of the draws is skipped because
all of its vertices are. Where the second draw begins is a place in the data,
unless the draw is skipped before the data is looked at. -/
theorem run_triangles_split {n m : Nat} (hprimitive : draw.primitive = .triangles)
    (hn : 3 ∣ n) (hm : 0 < m) (scratch : Scratch) (s : Surface)
    (outcome : DrawOutcome)
    (houtcome : ((draw.withVertices (n + m)).run r scissor layout state data
      scratch s).outcome = .ok outcome) :
    let whole := (draw.withVertices (n + m)).run r scissor layout state data
      scratch s
    let first := (draw.withVertices n).run r scissor layout state data scratch s
    let rest := (draw.withVertices m).run r scissor (layout.advance n) state
      data first.scratch first.surface
    (rest.surface = whole.surface
        ∧ ∃ begun ended, first.outcome = .ok begun ∧ rest.outcome = .ok ended
          ∧ begun.pixelsWritten + ended.pixelsWritten = outcome.pixelsWritten)
      ∧ (draw.skipReason? state.registers = none →
        data.size < Size.largest →
          (layout.advance n).positionOffset ≤ data.size) := by
  intro whole first rest
  have hfate := (outcome_ok_iff r _ layout state data scissor scratch s).1
    ⟨outcome, houtcome⟩
  obtain ⟨hfirst, hrest⟩ := fate_parts_ne_refused hm hfate
  have hassembly (k : Nat) : (draw.withVertices k).primitive.assembly?
      = some (.triangles .list) := congrArg Primitive.assembly? hprimitive
  have hadd := draw.assembledStrokes_add r scissor layout state data
    (.inl ⟨hprimitive, hn⟩) m
  refine ⟨run_parts r scissor hm houtcome ?_, fun hreason hsize =>
    advance_positionOffset_le hm hreason hsize hfate⟩
  -- a skipped part has no triangle that would have been painted
  rw [strokes_of_triangles r scissor (hassembly _) hfate,
    strokes_of_triangles r scissor (hassembly _) hfirst,
    strokes_of_triangles r scissor (hassembly _) hrest, hadd]

/-- Two triangles in perspective, the second of them entirely behind the camera,
so that the second of the two draws is skipped. -/
theorem run_triangles_split_behind :
    let draw : Draw := ⟨.triangles, 6, { position := .int8 }, .clockwise⟩
    let layout : VertexLayout := .packed .int8
    let data : Array UInt8 :=
      #[0, 0, 64, 0, 64, 64, 64, 0, 64, 0, 0, 192, 0, 64, 192, 64, 0, 192]
    let camera : Camera :=
      { projection := ⟨⟨1, 0, 0, 0⟩, ⟨0, 1, 0, 0⟩, ⟨0, 0, 1, 1⟩, ⟨0, 0, 0, 0⟩⟩
        viewport := ⟨.zero, ⟨8, 8, 5⟩⟩ }
    let state : RenderState := ⟨{ test := .less }, camera⟩
    let scratch : Scratch := .ofCapacity 6
    let s : Surface := .blank 8 8
    let outcome : DrawOutcome :=
      .drawn { triangles := 1, trianglesBehind := 1, pixelsWritten := 43 }
    let whole := (draw.withVertices (3 + 3)).run .standard s.bounds layout state
      data scratch s
    let first := (draw.withVertices 3).run .standard s.bounds layout state data
      scratch s
    let rest := (draw.withVertices 3).run .standard s.bounds (layout.advance 3)
      state data first.scratch first.surface
    draw.primitive = .triangles ∧ 3 ∣ 3 ∧ 0 < 3 ∧ whole.outcome = .ok outcome
      ∧ rest.outcome = .ok (.skipped .allBehindCamera)
      ∧ (rest.surface = whole.surface
        ∧ ∃ begun ended, first.outcome = .ok begun ∧ rest.outcome = .ok ended
          ∧ begun.pixelsWritten + ended.pixelsWritten = outcome.pixelsWritten)
      ∧ (draw.skipReason? state.registers = none →
        data.size < Size.largest →
          (layout.advance 3).positionOffset ≤ data.size) := by
  intro draw layout data camera state scratch s outcome whole first rest
  have houtcome : whole.outcome = .ok outcome := by decide +kernel
  have hskipped : rest.outcome = .ok (.skipped .allBehindCamera) := by
    decide +kernel
  exact ⟨rfl, Nat.dvd_refl 3, Nat.succ_pos 2, houtcome, hskipped,
    run_triangles_split .standard s.bounds draw layout state data rfl
      (Nat.dvd_refl 3) (Nat.succ_pos 2) scratch s outcome houtcome⟩

/-- **Rectangles in two draws.** If rectangles are drawn and not refused, they
can be handed over in two draws, the first of which ends with a whole rectangle
— provided that there is something to see of both of them or of neither, or that
the first one has no vertices. It is so if positions are screen coordinates. -/
theorem run_rectangles_split {n m : Nat}
    (hprimitive : draw.primitive = .rectangles) (hn : 2 ∣ n) (hm : 0 < m)
    (scratch : Scratch) (s : Surface) (outcome : DrawOutcome)
    (houtcome : ((draw.withVertices (n + m)).run r scissor layout state data
      scratch s).outcome = .ok outcome)
    (hseen : n = 0 ∨ ((draw.withVertices n).Seen layout state data
      ↔ (draw.withVertices m).Seen (layout.advance n) state data)) :
    let whole := (draw.withVertices (n + m)).run r scissor layout state data
      scratch s
    let first := (draw.withVertices n).run r scissor layout state data scratch s
    let rest := (draw.withVertices m).run r scissor (layout.advance n) state
      data first.scratch first.surface
    rest.surface = whole.surface
      ∧ ∃ begun ended, first.outcome = .ok begun ∧ rest.outcome = .ok ended
        ∧ begun.pixelsWritten + ended.pixelsWritten
          = outcome.pixelsWritten := by
  intro whole first rest
  have hfate := (outcome_ok_iff r _ layout state data scissor scratch s).1
    ⟨outcome, houtcome⟩
  obtain ⟨hfirst, hrest⟩ := fate_parts_ne_refused hm hfate
  have hadd := draw.assembledStrokes_add r scissor layout state data
    (.inr ⟨hprimitive, hn⟩) m
  have hparts := draw.seen_add layout state data n m
  refine run_parts r scissor hm houtcome ?_
  rw [strokes_of_ne_refused r scissor hfate,
    strokes_of_ne_refused r scissor hfirst,
    strokes_of_ne_refused r scissor hrest, hadd]
  rcases hseen with rfl | hseen
  · -- the first draw has nothing to paint, and nothing that could be seen
    have hnone : (draw.withVertices 0).assembledStrokes r scissor layout state
        data = [] :=
      assembledStrokes_eq_nil r scissor
        (congrArg Primitive.assembly? hprimitive) (by
          simp [assembledShapes, Assembly.rectanglePairs,
            Assembly.rectangleCount, withVertices])
    have hiff : (draw.withVertices (0 + m)).Seen layout state data
        ↔ (draw.withVertices m).Seen (layout.advance 0) state data := by
      rw [hparts]
      refine or_iff_right_of_imp ?_
      rintro (hthrough | ⟨i, hi, -⟩)
      · exact .inl hthrough
      · exact absurd hi (Nat.not_lt_zero i)
    rw [hnone, ite_self, List.nil_append, List.nil_append, if_congr hiff rfl rfl]
  · -- both parts are painted or neither, and the draw with them
    have hiff : (draw.withVertices (n + m)).Seen layout state data
        ↔ (draw.withVertices m).Seen (layout.advance n) state data := by
      rw [hparts, hseen, or_self]
    rw [if_congr hiff rfl rfl, if_congr hseen rfl rfl]
    split <;> rfl

/-- Two rectangles in perspective, each of them with a corner in front of the
camera, the first one with a corner behind it. -/
theorem run_rectangles_split_behind :
    let draw : Draw := ⟨.rectangles, 4, { position := .int8 }, .clockwise⟩
    let layout : VertexLayout := .packed .int8
    let data : Array UInt8 :=
      #[0, 0, 192, 32, 32, 64, 32, 32, 64, 64, 64, 64]
    let camera : Camera :=
      { projection := ⟨⟨1, 0, 0, 0⟩, ⟨0, 1, 0, 0⟩, ⟨0, 0, 1, 1⟩, ⟨0, 0, 0, 0⟩⟩
        viewport := ⟨.zero, ⟨8, 8, 5⟩⟩ }
    let state : RenderState := ⟨{}, camera⟩
    let scratch : Scratch := .ofCapacity 4
    let s : Surface := .blank 8 8
    let outcome : DrawOutcome := .drawn { rectangles := 2, pixelsWritten := 32 }
    let whole := (draw.withVertices (2 + 2)).run .standard s.bounds layout state
      data scratch s
    let first := (draw.withVertices 2).run .standard s.bounds layout state data
      scratch s
    let rest := (draw.withVertices 2).run .standard s.bounds (layout.advance 2)
      state data first.scratch first.surface
    draw.primitive = .rectangles ∧ 2 ∣ 2 ∧ 0 < 2 ∧ whole.outcome = .ok outcome
      ∧ (2 = 0 ∨ ((draw.withVertices 2).Seen layout state data
        ↔ (draw.withVertices 2).Seen (layout.advance 2) state data))
      ∧ rest.surface = whole.surface
      ∧ ∃ begun ended, first.outcome = .ok begun ∧ rest.outcome = .ok ended
        ∧ begun.pixelsWritten + ended.pixelsWritten
          = outcome.pixelsWritten := by
  intro draw layout data camera state scratch s outcome whole first rest
  have houtcome : whole.outcome = .ok outcome := by decide +kernel
  have hseen : 2 = 0 ∨ ((draw.withVertices 2).Seen layout state data
      ↔ (draw.withVertices 2).Seen (layout.advance 2) state data) := by
    decide +kernel
  exact ⟨rfl, Nat.dvd_refl 2, Nat.two_pos, houtcome, hseen,
    run_rectangles_split .standard s.bounds draw layout state data rfl
      (Nat.dvd_refl 2) Nat.two_pos scratch s outcome houtcome hseen⟩

/-- **A rectangle behind the camera depends on its batch.** Two rectangles, the
first of which is entirely behind the camera. In one draw both are painted. If
each has a draw of its own, the first draw is skipped, and sixteen cells fewer
are written, the first cell of the surface among them. -/
theorem rectangle_behind_depends_on_batch :
    let draw : Draw := ⟨.rectangles, 4, { position := .int8 }, .clockwise⟩
    let layout : VertexLayout := .packed .int8
    let data : Array UInt8 :=
      #[0, 0, 192, 224, 224, 192, 32, 32, 64, 64, 64, 64]
    let camera : Camera :=
      { projection := ⟨⟨1, 0, 0, 0⟩, ⟨0, 1, 0, 0⟩, ⟨0, 0, 1, 1⟩, ⟨0, 0, 0, 0⟩⟩
        viewport := ⟨.zero, ⟨8, 8, 5⟩⟩ }
    let state : RenderState := ⟨{}, camera⟩
    let scratch : Scratch := .ofCapacity 4
    let s : Surface := .blank 8 8
    let whole := (draw.withVertices (2 + 2)).run .standard s.bounds layout state
      data scratch s
    let first := (draw.withVertices 2).run .standard s.bounds layout state data
      scratch s
    let rest := (draw.withVertices 2).run .standard s.bounds (layout.advance 2)
      state data first.scratch first.surface
    whole.outcome = .ok (.drawn { rectangles := 2, pixelsWritten := 32 })
      ∧ first.outcome = .ok (.skipped .allBehindCamera)
      ∧ rest.outcome = .ok (.drawn { rectangles := 1, pixelsWritten := 16 })
      ∧ whole.surface.get? 0 0 = some 5
      ∧ rest.surface.get? 0 0 = some 65535 := by
  decide +kernel

end Draw

end DepthPrepass
