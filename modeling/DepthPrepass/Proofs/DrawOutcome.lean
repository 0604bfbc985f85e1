import DepthPrepass.Draw.Basic

/-!
# What decides about a draw

A draw passes through checks of the registers, the primitive, the vertex type,
the room in the scratch storage, the length of the data and the place of the
vertices, some of them after it has begun to fill the scratch storage. What
becomes of it can be said without any of these steps: as a list of conditions on
what is handed in, the first of which decides.

* `Draw.fate`: these conditions.
* `Draw.check_eq_error_iff`, `Scratch.readPositions_cases`,
  `Scratch.placeOnScreen_snd_iff`: the steps, one by one.
* `Draw.fate_run`: what becomes of a draw is its fate, and unless it is drawn
  nothing is painted.
-/

namespace DepthPrepass

/-! ## Conditions -/

/-- The register condition that rules out a change of depth, if there is one. -/
def DepthRegisters.gate? (r : DepthRegisters) : Option DepthGate :=
  if r.clearMode ∧ ¬ r.clearDepthWrite then some .clearWithoutDepthWrite
  else if ¬ r.clearMode ∧ ¬ r.testEnabled then some .depthTestDisabled
  else if ¬ r.clearMode ∧ ¬ r.writeEnabled then some .depthWriteDisabled
  else none

/-- Whether a primitive covers area. -/
def Primitive.CoversArea (p : Primitive) : Prop :=
  p = .triangles ∨ p = .triangleStrip ∨ p = .triangleFan ∨ p = .rectangles

instance (p : Primitive) : Decidable p.CoversArea :=
  inferInstanceAs (Decidable (_ ∨ _))

namespace Draw

/-- What can become of a draw, apart from what is painted. -/
inductive Fate where
  | skipped (reason : SkipReason)
  | refused (error : DrawError)
  | drawn
deriving DecidableEq

/-- The fate that an outcome stands for. -/
def Fate.ofOutcome : Except DrawError DrawOutcome → Fate
  | .ok (.drawn _) => .drawn
  | .ok (.skipped reason) => .skipped reason
  | .error error => .refused error

/-- The reason to skip a draw that needs neither room nor data to be seen. -/
def skipReason? (draw : Draw) (registers : DepthRegisters) :
    Option SkipReason :=
  if let some gate := registers.gate? then some (.gate gate)
  else if ¬ draw.primitive.CoversArea then
    some (.unsupportedPrimitive draw.primitive)
  else if draw.type.index ≠ .none then some .indexedVertices
  else if draw.type.weights ≠ .none then some .skinnedVertices
  else if draw.type.position = .none then some .noPosition
  else none

/-- The bytes that a draw with vertices needs, in whole numbers, or the largest
size if they are more. -/
def neededBytes (draw : Draw) (layout : VertexLayout) : Nat :=
  min ((draw.vertices - 1) * layout.stride + layout.positionOffset
    + 3 * draw.type.position.componentSize) Size.largest

/-- The last clip coordinate of a vertex. -/
def clipW (draw : Draw) (layout : VertexLayout) (camera : Camera)
    (data : Array UInt8) (i : Nat) : Float32 :=
  (camera.clipPosition
    (layout.positionAt draw.type.position draw.type.through data i)).w

/-- What should become of a draw: the first condition that holds decides. -/
def fate (draw : Draw) (layout : VertexLayout) (state : RenderState)
    (data : Array UInt8) (capacity : Nat) : Fate :=
  if let some reason := draw.skipReason? state.registers then .skipped reason
  else if capacity < draw.vertices then
    .refused (.scratchTooSmall draw.vertices capacity)
  else if 0 < draw.vertices ∧ data.size < draw.neededBytes layout then
    .refused (.vertexData ⟨draw.neededBytes layout, data.size⟩)
  else if ¬ draw.type.through
      ∧ ¬ ∃ i < draw.vertices, 0 < draw.clipW layout state.camera data i then
    .skipped .allBehindCamera
  else .drawn

end Draw

/-! ## Checks without data -/

theorem DepthRegisters.effectiveTest_eq_error_iff {r : DepthRegisters}
    {gate : DepthGate} :
    r.effectiveTest = .error gate ↔ r.gate? = some gate := by
  obtain ⟨testEnabled, writeEnabled, clearMode, clearDepthWrite, test⟩ := r
  cases clearMode with
  | true => cases clearDepthWrite <;> simp [effectiveTest, gate?]
  | false =>
    -- tests that are off are reported before writes that are off
    cases testEnabled with
    | false => simp [effectiveTest, gate?]
    | true => cases writeEnabled <;> simp [effectiveTest, gate?]

theorem Primitive.assembly?_eq_none_iff {p : Primitive} :
    p.assembly? = none ↔ ¬ p.CoversArea := by
  cases p <;> decide

theorem Primitive.coversArea_of_assembly? {p : Primitive} {assembly : Assembly}
    (h : p.assembly? = some assembly) : p.CoversArea := by
  refine Decidable.not_not.1 fun hcovers => ?_
  rw [Primitive.assembly?_eq_none_iff.2 hcovers] at h
  cases h

/-- Where errors are those that a condition gives, success leaves none. -/
theorem eq_none_of_eq_ok {ε α : Type} {x : Except ε α} {o : Option ε}
    (h : ∀ e, x = .error e ↔ o = some e) {a : α} (hx : x = .ok a) :
    o = none := by
  refine Option.eq_none_iff_forall_ne_some.2 fun e he => ?_
  have herror := (h e).2 he
  rw [hx] at herror
  cases herror

/-- A check that comes first and a condition that comes first. -/
theorem ite_error_iff {ε α : Type} {p q : Prop} [Decidable p] [Decidable q]
    {a b : ε} {x : Except ε α} {o : Option ε} (hpq : p ↔ q)
    (h : x = .error b ↔ o = some b) :
    (if p then .error a else x) = .error b
      ↔ (if q then some a else o) = some b := by
  by_cases hp : p
  · rw [if_pos hp, if_pos (hpq.1 hp)]
    simp
  · rw [if_neg hp, if_neg (mt hpq.2 hp)]
    exact h

/-- The checks find a reason exactly if there is one, and the first one. -/
theorem Draw.check_eq_error_iff {draw : Draw} {registers : DepthRegisters}
    {reason : SkipReason} :
    draw.check registers = .error reason
      ↔ draw.skipReason? registers = some reason := by
  unfold check skipReason?
  -- each check that is passed takes its reason away, in the same order
  cases htest : registers.effectiveTest with
  | error gate =>
    rw [DepthRegisters.effectiveTest_eq_error_iff.1 htest]
    simp
  | ok test =>
    have hgate : registers.gate? = none :=
      eq_none_of_eq_ok (fun _ => DepthRegisters.effectiveTest_eq_error_iff)
        htest
    rw [hgate]
    cases hassembly : draw.primitive.assembly? with
    | none =>
      rw [if_pos (Primitive.assembly?_eq_none_iff.1 hassembly)]
      simp
    | some assembly =>
      have hindexed : draw.type.isIndexed = true ↔ draw.type.index ≠ .none :=
        bne_iff_ne
      have hskinned : draw.type.isSkinned = true ↔ draw.type.weights ≠ .none :=
        bne_iff_ne
      rw [if_neg (not_not_intro (Primitive.coversArea_of_assembly? hassembly))]
      refine ite_error_iff hindexed (ite_error_iff hskinned
        (ite_error_iff Iff.rfl ?_))
      exact ⟨nofun, nofun⟩

/-! ## Room and data -/

/-- A checked computation of `n`, shown as the largest size where it fails, is
`n` up to that size. -/
theorem Size.orLargest_eq_min {o : Option Nat} {n : Nat}
    (h : ∀ m, o = some m ↔ n = m ∧ m < limit) :
    orLargest o = min n largest := by
  -- where the computation fails, `n` is no size and so beyond the largest
  cases o with
  | some m =>
    obtain ⟨rfl, hlt⟩ := (h m).1 rfl
    show n = min n (limit - 1)
    omega
  | none =>
    have hlt : ¬ n < limit := by
      intro hlt
      cases (h n).2 ⟨rfl, hlt⟩
    show limit - 1 = min n (limit - 1)
    omega

/-- The bytes that are asked for, in whole numbers. -/
theorem VertexLayout.requiredBytes_eq_min (layout : VertexLayout)
    (format : PositionFormat) (count : Nat) :
    layout.requiredBytes format count
      = if count = 0 then 0
        else
          min ((count - 1) * layout.stride + layout.positionOffset
            + 3 * format.componentSize) Size.largest := by
  unfold requiredBytes
  split
  · rfl
  · refine Size.orLargest_eq_min fun n => ?_
    unfold PositionFormat.size
    simp only [Option.bind_eq_some_iff, Size.strided?_eq_some_iff,
      Size.add?_eq_some_iff]
    constructor
    · rintro ⟨m, ⟨rfl, -⟩, hsum⟩
      exact hsum
    · rintro ⟨rfl, hlt⟩
      -- the last sum fits only if the ones before it do
      exact ⟨_, ⟨rfl, by omega⟩, rfl, hlt⟩

/-- They are those that the draw needs. -/
theorem VertexLayout.requiredBytes_eq (draw : Draw) (layout : VertexLayout) :
    layout.requiredBytes draw.type.position draw.vertices
      = if draw.vertices = 0 then 0 else draw.neededBytes layout :=
  layout.requiredBytes_eq_min draw.type.position draw.vertices

namespace Scratch

/-- **Reading positions** fails for want of room, or else for want of data, and
otherwise the scratch storage has the positions of all vertices. -/
theorem readPositions_cases (scratch : Scratch) (draw : Draw)
    (layout : VertexLayout) (data : Array UInt8) :
    (scratch.capacity < draw.vertices
        ∧ scratch.readPositions draw.type layout data draw.vertices
          = .error (.scratchTooSmall draw.vertices scratch.capacity))
      ∨ (draw.vertices ≤ scratch.capacity ∧ 0 < draw.vertices
        ∧ data.size < draw.neededBytes layout
        ∧ scratch.readPositions draw.type layout data draw.vertices
          = .error (.vertexData ⟨draw.neededBytes layout, data.size⟩))
      ∨ (draw.vertices ≤ scratch.capacity
        ∧ ¬ (0 < draw.vertices ∧ data.size < draw.neededBytes layout)
        ∧ ∃ own,
          scratch.readPositions draw.type layout data draw.vertices = .ok own
            ∧ (draw.type.position ≠ .none → ∀ i < draw.vertices,
              own.positions.getD i .zero
                = layout.positionAt draw.type.position draw.type.through data
                    i)) := by
  have hneeded : data.size
        < layout.requiredBytes draw.type.position draw.vertices
      ↔ 0 < draw.vertices ∧ data.size < draw.neededBytes layout := by
    rw [VertexLayout.requiredBytes_eq]
    split <;> omega
  unfold readPositions reserve
  by_cases hroom : scratch.capacity < draw.vertices
  · refine .inl ⟨hroom, ?_⟩
    rw [if_pos hroom]
  · -- there is room, so the data decides
    rw [if_neg hroom]
    have hroom := Nat.not_lt.1 hroom
    dsimp only
    split
    · next shortage hpositions =>
      unfold VertexLayout.readPositions at hpositions
      dsimp only at hpositions
      split at hpositions
      · next hshort =>
        cases hpositions
        obtain ⟨hpos, hshort⟩ := hneeded.1 hshort
        rw [VertexLayout.requiredBytes_eq, if_neg (by omega)]
        exact .inr (.inl ⟨hroom, hpos, hshort, rfl⟩)
      · split at hpositions <;> cases hpositions
    · next positions hpositions =>
      unfold VertexLayout.readPositions at hpositions
      dsimp only at hpositions
      split at hpositions
      · cases hpositions
      · next hlong =>
        refine .inr (.inr ⟨hroom, mt hneeded.2 hlong, _, rfl, ?_⟩)
        intro hformat i hi
        rw [if_neg hformat] at hpositions
        cases hpositions
        have hi' : i < scratch.positions.size := Nat.lt_of_lt_of_le hi hroom
        show (Buffer.overwrite _ _ _).getD i Vec3.zero = _
        rw [Array.getD_eq_getD_getElem?, Buffer.getElem?_overwrite,
          if_pos ⟨hi, hi'⟩]
        rfl

/-- There is something to see of vertices that are screen coordinates already,
or if one of them is in front of the camera. -/
theorem placeOnScreen_snd_iff (scratch : Scratch) (camera : Camera)
    (through : Bool) (count : Nat) :
    (scratch.placeOnScreen camera through count).2 = true
      ↔ through = true ∨ ∃ i < count,
        0 < (camera.clipPosition (scratch.positions.getD i .zero)).w := by
  cases through with
  | true => exact ⟨fun _ => .inl rfl, fun _ => rfl⟩
  | false =>
    show (List.range count).any _ = true ↔ _
    simp only [List.any_eq_true, List.mem_range, Bool.not_eq_true',
      Camera.project, Camera.toScreen, Bool.not_eq_false', Vec4.inFront,
      decide_eq_true_eq, Bool.false_eq_true, false_or]

end Scratch

/-- What is not a number is not in front of the camera. -/
theorem Binary32.not_pos_of_isNaN {w : Float32} (h : w.isNaN = true) :
    ¬ 0 < w := by
  have hw : w.toModel.unpack = .notANumber := by
    have h : w.toModel.unpack.isNaN = true := h
    -- the other three kinds of float are numbers
    cases hw : w.toModel.unpack with
    | notANumber => rfl
    | infinity => rw [hw] at h; cases h
    | zero => rw [hw] at h; cases h
    | finite => rw [hw] at h; cases h
  -- a comparison with it has no outcome, so it is not the outcome "less"
  have hlt : Float32.lt 0 w = false := by
    show decide (((0 : Float32).toModel.unpack.compare w.toModel.unpack
      == some Ordering.lt) = true) = false
    rw [hw]
    cases (0 : Float32).toModel.unpack <;> rfl
  exact Bool.eq_false_iff.1 hlt

/-! ## The draw -/

namespace Draw

/-- A draw that is not skipped before its data is looked at has positions. -/
theorem position_ne_none {draw : Draw} {registers : DepthRegisters}
    (h : draw.skipReason? registers = none) : draw.type.position ≠ .none := by
  intro hnone
  unfold skipReason? at h
  rw [if_pos hnone] at h
  split at h
  · cases h
  · split at h
    · cases h
    · split at h
      · cases h
      · split at h <;> cases h

/-- How a draw goes, case by case of its fate. -/
theorem run_cases (r : Rasterizer) (scissor : Region) (draw : Draw)
    (layout : VertexLayout) (state : RenderState) (data : Array UInt8)
    (scratch : Scratch) (s : Surface) :
    (∃ reason scratch',
        draw.fate layout state data scratch.capacity = .skipped reason
          ∧ draw.run r scissor layout state data scratch s
            = draw.skip reason s scratch')
      ∨ (∃ error,
        draw.fate layout state data scratch.capacity = .refused error
          ∧ draw.run r scissor layout state data scratch s
            = refuse error s scratch)
      ∨ (draw.fate layout state data scratch.capacity = .drawn
        ∧ ∃ stats test,
          (draw.run r scissor layout state data scratch s).outcome
              = .ok (.drawn stats)
            ∧ (draw.run r scissor layout state data scratch s).events
              = [.drawing draw.primitive draw.vertices test draw.winding]) := by
  unfold fate run
  -- the fate asks in the order of the run: checks, room, data, camera
  cases hcheck : draw.check state.registers with
  | error reason =>
    rw [check_eq_error_iff.1 hcheck]
    exact .inl ⟨reason, scratch, rfl, rfl⟩
  | ok checked =>
    obtain ⟨test, assembly⟩ := checked
    have hreason : draw.skipReason? state.registers = none :=
      eq_none_of_eq_ok (fun _ => check_eq_error_iff) hcheck
    rw [hreason]
    dsimp only
    rcases scratch.readPositions_cases draw layout data with
      ⟨hroom, hread⟩ | ⟨hroom, hpos, hshort, hread⟩
        | ⟨hroom, hlong, own, hread, hpositions⟩
    · rw [hread, if_pos hroom]
      exact .inr (.inl ⟨_, rfl, rfl⟩)
    · rw [hread, if_neg (Nat.not_lt.2 hroom), if_pos ⟨hpos, hshort⟩]
      exact .inr (.inl ⟨_, rfl, rfl⟩)
    · -- the scratch storage is filled now, and only the surface is untouched
      rw [hread, if_neg (Nat.not_lt.2 hroom), if_neg hlong]
      have hformat := position_ne_none hreason
      have hseen : (own.placeOnScreen state.camera draw.type.through
            draw.vertices).2 = true
          ↔ draw.type.through = true ∨ ∃ i < draw.vertices,
            0 < draw.clipW layout state.camera data i := by
        rw [Scratch.placeOnScreen_snd_iff]
        refine or_congr Iff.rfl (exists_congr fun i => and_congr_right ?_)
        intro hi
        rw [hpositions hformat i hi]
        rfl
      -- from here on it only matters whether one of the vertices is seen
      dsimp only
      generalize own.placeOnScreen state.camera draw.type.through
        draw.vertices = placed at hseen ⊢
      obtain ⟨placed, seen⟩ := placed
      cases seen with
      | false =>
        have hunseen := mt hseen.2 Bool.false_ne_true
        rw [if_pos (not_or.1 hunseen)]
        exact .inl ⟨_, placed, rfl, rfl⟩
      | true =>
        rw [if_neg fun ⟨hmodel, hbehind⟩ => (hseen.1 rfl).elim hmodel hbehind]
        exact .inr (.inr ⟨rfl, _, test, rfl, rfl⟩)

/-- **What becomes of a draw** is decided by its fate. Unless it is drawn,
nothing is painted. If it is refused, it is counted as a draw and nothing else,
and nothing is said. Otherwise one line is said, for tracing. A vertex whose
last clip coordinate is not a number is never in front of the camera. -/
theorem fate_run (r : Rasterizer) (scissor : Region) (draw : Draw)
    (layout : VertexLayout) (state : RenderState) (data : Array UInt8)
    (scratch : Scratch) (s : Surface) :
    let result := draw.run r scissor layout state data scratch s
    Fate.ofOutcome result.outcome
        = draw.fate layout state data scratch.capacity
      ∧ (draw.fate layout state data scratch.capacity ≠ .drawn →
        result.surface = s)
      ∧ (∀ error, result.outcome = .error error →
        (∀ counter, result.work.get counter
            = if counter = .drawCalls then 1 else 0)
          ∧ result.events = [])
      ∧ (∀ outcome, result.outcome = .ok outcome →
        ∃ event, result.events = [event] ∧ event.level = "TRACE")
      ∧ ∀ i, (draw.clipW layout state.camera data i).isNaN = true →
        ¬ 0 < draw.clipW layout state.camera data i := by
  intro result
  have hnan (i : Nat) :
      (draw.clipW layout state.camera data i).isNaN = true →
        ¬ 0 < draw.clipW layout state.camera data i :=
    Binary32.not_pos_of_isNaN
  have hcases := run_cases r scissor draw layout state data scratch s
  rcases hcases with
    ⟨reason, scratch', hfate, hrun⟩ | ⟨error, hfate, hrun⟩
      | ⟨hfate, stats, test, houtcome, hevents⟩
  · have hresult : result = draw.skip reason s scratch' := hrun
    rw [hfate, hresult]
    exact ⟨rfl, fun _ => rfl, nofun, fun _ _ => ⟨_, rfl, rfl⟩, hnan⟩
  · have hresult : result = refuse error s scratch := hrun
    rw [hfate, hresult]
    refine ⟨rfl, fun _ => rfl, fun _ _ => ⟨fun counter => ?_, rfl⟩, nofun,
      hnan⟩
    cases counter <;> rfl
  · have houtcome : result.outcome = .ok (.drawn stats) := houtcome
    have hevents : result.events
        = [.drawing draw.primitive draw.vertices test draw.winding] := hevents
    rw [hfate, houtcome]
    exact ⟨rfl, fun h => absurd rfl h, nofun,
      fun _ _ => ⟨_, hevents, rfl⟩, hnan⟩

/-- A draw without vertices needs no data, and has none in front. -/
example : fate ⟨.triangles, 0, { position := .float32 }, .clockwise⟩ ⟨12, 0⟩ {}
    #[] 64 = .skipped .allBehindCamera := by decide

/-- An extent that is no size is reported as the largest one. -/
example : fate ⟨.triangles, 3, { position := .float32 }, .clockwise⟩
    ⟨0x8000000000000000, 0⟩ {} #[] 64
      = .refused (.vertexData ⟨0xffffffffffffffff, 0⟩) := by decide

end Draw

end DepthPrepass
