import DepthPrepass.Proofs.Encodings

/-!
# Rectangles between whole points

Screen coordinates that are stored as signed bytes or half-words are whole numbers, and
on their way to the screen they are converted, multiplied by one, truncated and kept
within the range of depths. Nothing is lost on this way but the sign of a depth: there
are no negative ones, and zero takes their place. So a draw of rectangles is a list of
rectangles between the points that the data has, two points each, filled one after
another.

* `Binary32.toNat_toUInt16_fraction`: the depth that becomes of a whole number.
* `ScreenVertex.ofPosition_whole`: the vertex that becomes of a whole point.
* `Rectangle.ofPoints`: rectangles between successive points.
* `Rasterizer.fillInOrder`: filling rectangles one after another.
* `Draw.run_rectangles_between_points`: the draw.
-/

namespace DepthPrepass

open Binary32

/-! ## Whole points on the screen -/

namespace Binary32

open Float.Model Float.Model.UnpackedFloat

/-- A negative number has no whole part among the depths. -/
theorem toNat_toUInt16_of_negative {x : Float32} {m : Nat} {e : Int} {h : 0 < m}
    (hx : x.toModel.unpack = .finite .negative m e h) : x.toUInt16.toNat = 0 := by
  have hneg : (roundToInt .negative m e).toNat = 0 := by
    unfold roundToInt
    exact Int.toNat_of_nonpos (Int.neg_nonpos_of_nonneg (Int.natCast_nonneg _))
  show (UInt16.ofNatClamp (x.toModel.unpack.toInt 0 65535).toNat).toNat = 0
  rw [hx, toNat_ofNatClamp]
  show min (roundToInt .negative m e).toNat 65535 = 0
  rw [hneg]
  rfl

/-- **The depth of a whole number** is the number itself, as far as there are such
depths. -/
theorem toNat_toUInt16_fraction {n : Int} (hn : n.natAbs < 2 ^ 24) :
    (fraction n 0).toUInt16.toNat = min n.toNat 65535 := by
  rcases Int.lt_or_le n 0 with hneg | hnonneg
  · have hpos : 0 < n.natAbs := Int.natAbs_pos.2 (by omega)
    have hsign : signOf n = .negative := if_pos hneg
    have hunpack := unpack_fraction hn (k := 0) (by decide)
    rw [hsign, parts_of_pos _ hpos hn] at hunpack
    rw [toNat_toUInt16_of_negative hunpack, Int.toNat_of_nonpos hneg.le]
    rfl
  · rw [toNat_toUInt16 (zero_le_fraction hnonneg hn (by decide)), units_fraction hn,
      Nat.mul_div_cancel _ (Nat.two_pow_pos 149)]
    omega

theorem toInt32_fraction {n : Int} (hn : n.natAbs < 2 ^ 24) :
    toInt32 (fraction n 0) = .ofInt n := by
  refine Int32.toInt_inj.1 ?_
  rw [toInt_toInt32_fraction hn]
  exact (Int32.toInt_ofInt_of_le (by omega) (by omega)).symm

end Binary32

/-- The vertex at a whole point. There are no negative depths. -/
def ScreenVertex.atPoint (p : Triple Int) : ScreenVertex :=
  { x := .ofInt p.first, y := .ofInt p.second, z := .ofNat p.third.toNat }

/-- A whole point whose coordinates are half-words, or less, becomes the vertex there. -/
theorem ScreenVertex.ofPosition_whole {p : Triple Int}
    (h : ∀ n ∈ p.toList, -2 ^ 15 ≤ n ∧ n < 2 ^ 15) :
    ofPosition ⟨fraction p.first 0, fraction p.second 0, fraction p.third 0⟩
      = atPoint p := by
  obtain ⟨hx, hy, hz⟩ := Triple.forall_mem_toList.1 h
  have hdepth : (fraction p.third 0).toUInt16 = .ofNat p.third.toNat := by
    refine UInt16.toNat_inj.1 ?_
    rw [toNat_toUInt16_fraction (by omega), UInt16.toNat_ofNat']
    omega
  unfold ofPosition atPoint
  rw [toInt32_fraction (by omega), toInt32_fraction (by omega), hdepth]

/-! ## Rectangles between points -/

namespace Rectangle

/-- The rectangle between two points, at the depth of the second one, or at zero if that
is negative. -/
def betweenPoints (a b : Triple Int) : Rectangle :=
  { x₁ := .ofInt a.first
    y₁ := .ofInt a.second
    x₂ := .ofInt b.first
    y₂ := .ofInt b.second
    depth := .ofNat (max 0 b.third).toNat }

/-- The rectangles between successive points, two points each. The last one of an odd
number of points belongs to none. -/
def ofPoints : List (Triple Int) → List Rectangle
  | a :: b :: points => betweenPoints a b :: ofPoints points
  | [_] | [] => []

/-- The rectangles, one by one. -/
theorem ofPoints_eq_map_range (points : List (Triple Int)) (origin : Triple Int) :
    ofPoints points = (List.range (points.length / 2)).map fun k =>
      betweenPoints (points.getD (2 * k) origin)
        (points.getD (2 * k + 1) origin) := by
  induction points using ofPoints.induct with
  | case1 a b points ih =>
    have hlength : (a :: b :: points).length / 2 = points.length / 2 + 1 := by
      rw [List.length_cons, List.length_cons]
      omega
    rw [ofPoints, ih, hlength, List.range_succ_eq_map, List.map_cons, List.map_map]
    rfl
  | case2 a =>
    have hlength : [a].length / 2 = 0 := by rw [List.length_singleton]
    rw [hlength]
    rfl
  | case3 => rfl

/-- The last one of an odd number of points makes no difference. -/
theorem ofPoints_concat {points : List (Triple Int)} (h : points.length % 2 = 0)
    (last : Triple Int) : ofPoints (points ++ [last]) = ofPoints points := by
  induction points using ofPoints.induct with
  | case1 a b points ih =>
    have hrest : points.length % 2 = 0 := by
      rw [List.length_cons, List.length_cons] at h
      omega
    rw [List.cons_append, List.cons_append, ofPoints, ofPoints, ih hrest]
  | case2 a =>
    rw [List.length_singleton] at h
    omega
  | case3 => rfl

end Rectangle

/-! ## Filling in order -/

namespace Rasterizer

/-- Fill rectangles one after another within a scissor: the surface that is left, and
the number of cells that have been written in all. -/
def fillInOrder (r : Rasterizer) (scissor : Region) (test : DepthTest) :
    List Rectangle → Surface → Surface × Nat
  | [], s => (s, 0)
  | rectangle :: rectangles, s =>
    let painted := r.paintRectangle scissor rectangle test s
    let rest := r.fillInOrder scissor test rectangles painted.surface
    (rest.1, painted.written + rest.2)

/-- Rectangles are strokes. -/
theorem fillInOrder_eq (r : Rasterizer) (scissor : Region) (test : DepthTest)
    (rectangles : List Rectangle) (s : Surface) :
    let strokes : List Stroke :=
      rectangles.map fun rectangle => ⟨r, scissor, test, .rectangle rectangle⟩
    r.fillInOrder scissor test rectangles s
      = (Stroke.paintAll strokes s,
        ((Stroke.paintEach strokes s).map (·.written)).sum) := by
  induction rectangles generalizing s with
  | nil => rfl
  | cons rectangle rectangles ih =>
    dsimp only
    rw [fillInOrder, ih]
    rfl

end Rasterizer

/-! ## Draws -/

namespace Draw

variable {draw : Draw} {layout : VertexLayout} {state : RenderState}
  {data : Array UInt8} {α : Type} {encode : α → List UInt8} {toInt : α → Int}
  {points : List (Triple α)}

/-- The vertices of a draw whose positions are whole points. -/
theorem vertexAt_of_holds (hthrough : draw.type.through = true)
    (hencodes : draw.type.position.Encodes true encode fun a => fraction (toInt a) 0)
    (hrange : ∀ a, -2 ^ 15 ≤ toInt a ∧ toInt a < 2 ^ 15)
    (h : layout.Holds draw.type.position encode data points) {i : Nat}
    (hi : i < points.length) :
    draw.vertexAt layout state data i = .atPoint (points[i].map toInt) := by
  unfold vertexAt
  rw [if_pos hthrough, hthrough, VertexLayout.positionAt_of_hasBytes hencodes (h i hi)]
  refine ScreenVertex.ofPosition_whole (p := points[i].map toInt) ?_
  rw [Triple.forall_mem_toList]
  exact ⟨hrange _, hrange _, hrange _⟩

/-- The shapes of a draw of rectangles whose positions are whole points. -/
theorem assembledShapes_of_holds (hthrough : draw.type.through = true)
    (hencodes : draw.type.position.Encodes true encode fun a => fraction (toInt a) 0)
    (hrange : ∀ a, -2 ^ 15 ≤ toInt a ∧ toInt a < 2 ^ 15)
    (hlength : points.length = draw.vertices)
    (h : layout.Holds draw.type.position encode data points) :
    assembledShapes .rectangles (draw.vertexAt layout state data) draw.vertices
      = (Rectangle.ofPoints (points.map (·.map toInt))).map .rectangle := by
  let origin : Triple Int := ⟨0, 0, 0⟩
  -- the position of a vertex is the whole point, in words that have room for it
  have hvertex {i : Nat} (hi : i < points.length) :
      draw.vertexAt layout state data i
        = .atPoint ((points.map (·.map toInt)).getD i origin) := by
    rw [vertexAt_of_holds hthrough hencodes hrange h hi, List.getD_eq_getElem?_getD,
      List.getElem?_map, List.getElem?_eq_getElem hi]
    rfl
  unfold assembledShapes Assembly.rectanglePairs Assembly.rectangleCount
  rw [Rectangle.ofPoints_eq_map_range _ origin, List.length_map, hlength, List.map_map,
    List.map_map]
  refine List.map_congr_left fun k hk => congrArg Shape.rectangle ?_
  have hk : k < points.length / 2 := hlength ▸ List.mem_range.1 hk
  have hdepth (n : Int) : (max 0 n).toNat = n.toNat := by omega
  dsimp only
  rw [hvertex (by omega), hvertex (by omega), Rectangle.betweenPoints, hdepth]
  rfl

/-- Whether what a draw leaves is what filling rectangles in order leaves, with as many
cells written. -/
def Result.Fills (result : Result) (filled : Surface × Nat) : Prop :=
  result.surface = filled.1
    ∧ ∃ stats, result.outcome = .ok (.drawn stats) ∧ stats.pixelsWritten = filled.2

theorem fills_run_of_holds {test : DepthTest} (hthrough : draw.type.through = true)
    (hcheck : draw.check state.registers = .ok (test, .rectangles))
    (hencodes : draw.type.position.Encodes true encode fun a => fraction (toInt a) 0)
    (hrange : ∀ a, -2 ^ 15 ≤ toInt a ∧ toInt a < 2 ^ 15)
    (hlength : points.length = draw.vertices)
    (h : layout.Holds draw.type.position encode data points) (r : Rasterizer)
    (scissor : Region) {scratch : Scratch} (hroom : draw.vertices ≤ scratch.capacity)
    (s : Surface) :
    (draw.run r scissor layout state data scratch s).Fills
      (r.fillInOrder scissor test
        (Rectangle.ofPoints (points.map (·.map toInt))) s) := by
  have hreason : draw.skipReason? state.registers = none :=
    eq_none_of_eq_ok (fun _ => check_eq_error_iff) hcheck
  -- checks, room and data are passed, and nothing is behind the camera
  have hfate : draw.fate layout state data scratch.capacity = .drawn := by
    have hshortage : (draw.inFormat draw.type.position).shortage? layout data
        = none :=
      shortage?_of_holds (position_ne_none hreason) hencodes hlength h
    have hshortage : draw.shortage? layout data = none := hshortage
    rw [fate_eq_of_shortage?, hreason, hshortage]
    dsimp only
    rw [if_neg (Nat.not_lt.2 hroom), if_neg fun hbehind => hbehind.1 hthrough]
  obtain ⟨test', assembly, hcheck', hsurface, -, houtcome⟩ :=
    run_of_fate_drawn r scissor draw layout state data s hfate
  rw [hcheck] at hcheck'
  cases hcheck'
  -- painting assembles the vertices into rectangles, which are those between the points
  have hfollows := follows_paint r scissor test (draw.vertexAt layout state data)
    .rectangles draw.vertices s
  rw [assembledShapes_of_holds hthrough hencodes hrange hlength h, List.map_map]
    at hfollows
  have hfill := r.fillInOrder_eq scissor test
    (Rectangle.ofPoints (points.map (·.map toInt))) s
  rw [hfill]
  exact ⟨hsurface.trans hfollows.surface_eq, _, houtcome, hfollows.written_eq⟩

/-- **Rectangles between whole points.** Where screen coordinates are stored as signed
half-words or as signed bytes, in whatever layout, a draw of rectangles that is not
turned away fills the rectangles between successive points of the data, two points each,
one after another: with exactly these corners, at the depth of the second point or at
zero if that is negative, under the test of the draw. It leaves the same surface, and as
many cells are written. The last one of an odd number of points makes no difference. -/
theorem run_rectangles_between_points (r : Rasterizer) (scissor : Region) (draw : Draw)
    (layout : VertexLayout) (state : RenderState) (data : Array UInt8)
    (scratch : Scratch) (s : Surface) (test : DepthTest)
    (hthrough : draw.type.through = true)
    (hcheck : draw.check state.registers = .ok (test, .rectangles))
    (hroom : draw.vertices ≤ scratch.capacity) :
    let result := draw.run r scissor layout state data scratch s
    let filled (points : List (Triple Int)) :=
      r.fillInOrder scissor test (Rectangle.ofPoints points) s
    (∀ points : List (Triple Int16), points.length = draw.vertices →
        draw.type.position = .int16 →
        layout.Holds .int16 (PositionFormat.int16.encodeInt16 true) data points →
          result.Fills (filled (points.map (·.map Int16.toInt))))
      ∧ (∀ points : List (Triple Int8), points.length = draw.vertices →
        draw.type.position = .int8 →
        layout.Holds .int8 (PositionFormat.int8.encodeInt8 true) data points →
          result.Fills (filled (points.map (·.map Int8.toInt))))
      ∧ ∀ (points : List (Triple Int)) (last : Triple Int), points.length % 2 = 0 →
        filled (points ++ [last]) = filled points := by
  intro result filled
  refine ⟨?_, ?_, ?_⟩
  · intro points hlength hposition h
    have hencodes : draw.type.position.Encodes true
        (PositionFormat.int16.encodeInt16 true) fun v => fraction v.toInt 0 := by
      rw [hposition]
      exact PositionFormat.encodes_encodeInt16 true (by decide)
    have hrange (v : Int16) : -2 ^ 15 ≤ v.toInt ∧ v.toInt < 2 ^ 15 :=
      ⟨v.le_toInt, v.toInt_lt⟩
    exact fills_run_of_holds hthrough hcheck hencodes hrange hlength (hposition ▸ h) r
      scissor hroom s
  · intro points hlength hposition h
    have hencodes : draw.type.position.Encodes true
        (PositionFormat.int8.encodeInt8 true) fun v => fraction v.toInt 0 := by
      rw [hposition]
      exact PositionFormat.encodes_encodeInt8 true (by decide)
    have hrange (v : Int8) : -2 ^ 15 ≤ v.toInt ∧ v.toInt < 2 ^ 15 := by
      have hlo := v.le_toInt
      have hhi := v.toInt_lt
      omega
    exact fills_run_of_holds hthrough hcheck hencodes hrange hlength (hposition ▸ h) r
      scissor hroom s
  · -- the last point of an odd number has no partner
    intro points last heven
    show r.fillInOrder scissor test (Rectangle.ofPoints (points ++ [last])) s = _
    rw [Rectangle.ofPoints_concat heven]

/-- Two rectangles that overlap, the first one with a corner to the left of the surface
and the second one with a negative depth, and a point that is left over. -/
theorem run_rectangles_between_points_overlapping :
    let draw : Draw :=
      ⟨.rectangles, 5, { position := .int16, through := true }, .clockwise⟩
    let layout : VertexLayout := .packed .int16
    let points : List (Triple Int16) :=
      [⟨-3, 2, 9⟩, ⟨5, 6, 700⟩, ⟨7, 8, 1⟩, ⟨4, 4, -5⟩, ⟨0, 0, 3⟩]
    let data : Array UInt8 :=
      (points.flatMap fun point =>
        point.toList.flatMap (PositionFormat.int16.encodeInt16 true)).toArray
    let s : Surface := .blank 8 8
    let result := draw.run .standard s.bounds layout {} data (.ofCapacity 5) s
    let rectangles : List Rectangle :=
      [⟨-3, 2, 5, 6, 700⟩, ⟨7, 8, 4, 4, 0⟩]
    draw.check ({} : RenderState).registers = .ok (.always, .rectangles)
      ∧ Rectangle.ofPoints (points.map (·.map Int16.toInt)) = rectangles
      ∧ result.Fills
        (Rasterizer.standard.fillInOrder s.bounds .always rectangles s)
      ∧ (Rasterizer.standard.fillInOrder s.bounds .always rectangles s).2 = 32 := by
  intro draw layout points data s result rectangles
  have hcheck : draw.check ({} : RenderState).registers
      = .ok (.always, .rectangles) := rfl
  have hholds : layout.Holds .int16 (PositionFormat.int16.encodeInt16 true) data
      points :=
    VertexLayout.holds_packed (PositionFormat.encodes_encodeInt16 true (by decide))
      points
  have hrectangles : Rectangle.ofPoints (points.map (·.map Int16.toInt))
      = rectangles := by decide +kernel
  obtain ⟨hfills, -, -⟩ := run_rectangles_between_points .standard s.bounds draw layout
    {} data (.ofCapacity 5) s .always rfl hcheck (by decide +kernel)
  have hfill := hfills points rfl rfl hholds
  dsimp only at hfill
  rw [hrectangles] at hfill
  exact ⟨hcheck, hrectangles, hfill, by decide +kernel⟩

end Draw

end DepthPrepass
