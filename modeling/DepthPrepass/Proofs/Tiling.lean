import DepthPrepass.Proofs.DrawStrokes
import DepthPrepass.Session

/-!
# Drawing in tiles

A scissor can be cut into tiles, and a draw carried out once in each of them
instead of once in the whole. Every tile repeats the whole draw, from another
first pixel, with other groups of columns, and on a surface that the tiles
before have changed. But what a pixel receives from the draw does not depend on
the scissor, and only one tile lets it through; so each cell receives the same
candidates as before, in the same order.

* `Draw.filterMap_strokes`: what a cell receives from a draw, and the scissor's
  part in it.
* `Session.run_draws`: a draw carried out once in each of some scissors.
* `Session.run_tiles`: tiles instead of the whole.
-/

namespace DepthPrepass

/-! ## The scissor of a draw -/

namespace Draw

variable (r : Rasterizer) (draw : Draw) (layout : VertexLayout)
  (state : RenderState) (data : Array UInt8)

/-- What a pixel receives from the shapes of a draw, wherever the scissor is. -/
def received (capacity : Nat) (p : Nat × Nat) : List Candidate :=
  (draw.shapes layout state data capacity).filterMap fun (test, shape) =>
    shape.candidate? r test p

/-- **The scissor** lets everything through to its pixels, and nothing to
others. -/
theorem filterMap_strokes (scissor : Region) (capacity : Nat)
    (cells : Surface.Layout) (j : Nat) :
    (draw.strokes r scissor layout state data capacity).filterMap
        (·.candidateAt? cells j)
      = match cells.pixel? j with
        | none => []
        | some p =>
          if scissor.Covers p.1 p.2 then
            draw.received r layout state data capacity p
          else [] := by
  unfold strokes received Stroke.candidateAt? Surface.Layout.candidateIn?
  rw [List.filterMap_map]
  -- the scissor is asked once for the pixel, as it is the same for all strokes
  cases cells.pixel? j with
  | none => exact List.filterMap_eq_nil_iff.2 fun _ _ => rfl
  | some p =>
    dsimp only
    by_cases hp : scissor.Covers p.1 p.2
    · rw [if_pos hp]
      exact List.filterMap_congr fun _ _ => if_pos hp
    · rw [if_neg hp]
      exact List.filterMap_eq_nil_iff.2 fun _ _ => if_neg hp

/-- Whether a draw is refused does not depend on where and on what it is
drawn. -/
theorem outcome_ok_iff (scissor : Region) (scratch : Scratch) (s : Surface) :
    (∃ outcome, (draw.run r scissor layout state data scratch s).outcome
        = .ok outcome)
      ↔ ∀ error,
        draw.fate layout state data scratch.capacity ≠ .refused error := by
  -- the fate, which decides on refusal, does not ask for the scissor
  rcases run_cases r scissor draw layout state data scratch s with
    ⟨reason, scratch', hfate, hrun⟩ | ⟨error, hfate, hrun⟩
      | ⟨hfate, stats, test, houtcome, -⟩
  · rw [hfate, hrun]
    exact ⟨fun _ => nofun, fun _ => ⟨_, rfl⟩⟩
  · rw [hfate, hrun]
    constructor
    · rintro ⟨outcome, ⟨⟩⟩
    · intro h
      exact absurd rfl (h error)
  · rw [hfate, houtcome]
    exact ⟨fun _ => nofun, fun _ => ⟨_, rfl⟩⟩

end Draw

/-! ## Draws in a session -/

/-- The answer to a draw that is not refused. -/
def Answer.ofOutcome (outcome : DrawOutcome) : Answer :=
  .drawn (.ok outcome)

namespace Session

variable (draw : Draw) (layout : VertexLayout) (state : RenderState)
  (data : Array UInt8)

/-- **A draw in each of some scissors**: none of them is refused if it would not
be refused at first, and a cell receives one after another what the scissors
let through. -/
theorem run_draws (scissors : List Region) (session : Session)
    (h : ∀ error, draw.fate layout state data session.scratch.capacity
      ≠ .refused error) :
    let result := session.run (scissors.map fun scissor =>
      .draw draw layout state data (some scissor))
    ∃ outcomes : List DrawOutcome,
      result.2.map (·.answer) = outcomes.map .ofOutcome
        ∧ session.surface.Receives
          (fun j => scissors.flatMap fun scissor =>
            (draw.strokes session.rasterizer scissor layout state data
              session.scratch.capacity).filterMap
                (·.candidateAt? session.surface.layout j))
          result.1.surface (outcomes.map (·.pixelsWritten)).sum := by
  -- a draw changes nothing that the strokes of the next one depend on
  induction scissors generalizing session with
  | nil => exact ⟨[], rfl, .nothing _⟩
  | cons scissor scissors ih =>
    let result := draw.run session.rasterizer scissor layout state data
      session.scratch session.surface
    let next : Session :=
      { session with
        surface := result.surface
        scratch := result.scratch
        counters := session.counters + result.work }
    have hcapacity : next.scratch.capacity = session.scratch.capacity :=
      Draw.capacity_run ..
    have hreceives := Draw.receives_run session.rasterizer scissor draw layout
      state data session.scratch session.surface
    have hlayout : next.surface.layout = session.surface.layout :=
      hreceives.layout_eq
    obtain ⟨outcome, houtcome⟩ := (Draw.outcome_ok_iff session.rasterizer draw
      layout state data scissor session.scratch session.surface).2 h
    obtain ⟨outcomes, hanswers, hrest⟩ := ih next (hcapacity ▸ h)
    have hwritten : (Draw.stats result.outcome).pixelsWritten
        = outcome.pixelsWritten := by
      rw [houtcome, Draw.pixelsWritten_stats]
    refine ⟨outcome :: outcomes, ?_, ?_⟩
    · have hanswer : Answer.drawn result.outcome = .ofOutcome outcome :=
        congrArg Answer.drawn houtcome
      exact congr (congrArg List.cons hanswer) hanswers
    · rw [hcapacity, hlayout] at hrest
      have hall := hreceives.append hrest
      rw [hwritten] at hall
      exact hall

end Session

/-! ## Tiles -/

/-- Of items that exclude each other at most one contributes. -/
theorem flatMap_ite_of_pairwise {α β : Type} {q : α → Prop} [DecidablePred q]
    {l : List α} (h : l.Pairwise fun a b => ¬ (q a ∧ q b)) (bs : List β) :
    (l.flatMap fun a => if q a then bs else [])
      = if ∃ a ∈ l, q a then bs else [] := by
  -- an item that contributes keeps all the later ones from it
  induction l with
  | nil => simp
  | cons a l ih =>
    obtain ⟨hfirst, hrest⟩ := List.pairwise_cons.1 h
    rw [List.flatMap_cons, ih hrest]
    by_cases ha : q a
    · have hnone : ¬ ∃ b ∈ l, q b := by
        rintro ⟨b, hb, hqb⟩
        exact hfirst b hb ⟨ha, hqb⟩
      have hsome : ∃ b ∈ a :: l, q b := ⟨a, List.mem_cons_self, ha⟩
      rw [if_pos ha, if_neg hnone, if_pos hsome, List.append_nil]
    · have hiff : (∃ b ∈ a :: l, q b) ↔ ∃ b ∈ l, q b := by
        simp [ha]
      rw [if_neg ha, List.nil_append, if_congr hiff rfl rfl]

/-- **Tiles instead of the whole.** If no two of some tiles have a pixel in
common and together they have the pixels of a whole scissor, then carrying out a
draw in each of them, in whatever order they come, leaves the same surface as
carrying it out once in the whole. If the draw is not refused there, it is not
refused in any tile, and the cells written in the tiles add up to those written
at once. -/
theorem Session.run_tiles (session : Session) (draw : Draw)
    (layout : VertexLayout) (state : RenderState) (data : Array UInt8)
    (whole : Region) (tiles : List Region) (outcome : DrawOutcome)
    (hdisjoint : tiles.Pairwise fun a b =>
      ∀ x y, ¬ (a.Covers x y ∧ b.Covers x y))
    (hunion : ∀ x y, whole.Covers x y ↔ ∃ tile ∈ tiles, tile.Covers x y)
    (hwhole : (session.step
      (.draw draw layout state data (some whole))).2.answer
        = .ofOutcome outcome) :
    let tiled := session.run (tiles.map fun tile =>
      .draw draw layout state data (some tile))
    tiled.1.surface
        = (session.step (.draw draw layout state data (some whole))).1.surface
      ∧ ∃ outcomes : List DrawOutcome,
        tiled.2.map (·.answer) = outcomes.map .ofOutcome
          ∧ (outcomes.map (·.pixelsWritten)).sum = outcome.pixelsWritten := by
  intro tiled
  have houtcome : (draw.run session.rasterizer whole layout state data
      session.scratch session.surface).outcome = .ok outcome :=
    Answer.drawn.inj hwhole
  have hfate := (Draw.outcome_ok_iff session.rasterizer draw layout state data
    whole session.scratch session.surface).1 ⟨outcome, houtcome⟩
  obtain ⟨outcomes, hanswers, htiles⟩ :=
    run_draws draw layout state data tiles session hfate
  have hreceives := Draw.receives_run session.rasterizer whole draw layout
    state data session.scratch session.surface
  -- a pixel of the whole receives from the one tile that it is in
  have hcandidates (j : Nat) :
      (tiles.flatMap fun tile =>
          (draw.strokes session.rasterizer tile layout state data
            session.scratch.capacity).filterMap
              (·.candidateAt? session.surface.layout j))
        = (draw.strokes session.rasterizer whole layout state data
            session.scratch.capacity).filterMap
              (·.candidateAt? session.surface.layout j) := by
    simp only [Draw.filterMap_strokes]
    cases session.surface.layout.pixel? j with
    | none => simp
    | some p =>
      have hpairwise : tiles.Pairwise fun a b =>
          ¬ (a.Covers p.1 p.2 ∧ b.Covers p.1 p.2) :=
        hdisjoint.imp fun h => h p.1 p.2
      dsimp only
      rw [flatMap_ite_of_pairwise hpairwise,
        if_congr (hunion p.1 p.2).symm rfl rfl]
  rw [funext hcandidates] at htiles
  obtain ⟨hsurface, hwritten⟩ := htiles.unique hreceives
  rw [houtcome, Draw.pixelsWritten_stats] at hwritten
  exact ⟨hsurface, outcomes, hanswers, hwritten⟩

/-- A triangle across a surface of four by four pixels, drawn at once and in
three tiles that cut it both ways, the last tile first. -/
theorem Session.run_three_tiles :
    let session : Session :=
      { rasterizer := .standard
        surface := .blank 4 4
        scratch := .ofCapacity 8
        counters := 0 }
    let draw : Draw := ⟨.triangles, 3, { position := .int8, through := true },
      .clockwise⟩
    let state : RenderState := { registers := { test := .less } }
    let data : Array UInt8 := #[0, 0, 5, 0, 4, 5, 4, 0, 5]
    let whole : Region := ⟨0, 0, 8, 8⟩
    let tiles : List Region := [⟨3, 2, 8, 8⟩, ⟨0, 0, 3, 8⟩, ⟨3, 0, 8, 2⟩]
    let outcome : DrawOutcome := .drawn { triangles := 1, pixelsWritten := 13 }
    let tiled := session.run (tiles.map fun tile =>
      .draw draw ⟨3, 0⟩ state data (some tile))
    (tiles.Pairwise fun a b => ∀ x y, ¬ (a.Covers x y ∧ b.Covers x y))
      ∧ (∀ x y, whole.Covers x y ↔ ∃ tile ∈ tiles, tile.Covers x y)
      ∧ (session.step (.draw draw ⟨3, 0⟩ state data (some whole))).2.answer
        = .ofOutcome outcome
      ∧ tiled.1.surface = (session.step
          (.draw draw ⟨3, 0⟩ state data (some whole))).1.surface
      ∧ ∃ outcomes : List DrawOutcome,
        tiled.2.map (·.answer) = outcomes.map .ofOutcome
          ∧ (outcomes.map (·.pixelsWritten)).sum = 13 := by
  intro session draw state data whole tiles outcome tiled
  have hdisjoint : tiles.Pairwise fun a b =>
      ∀ x y, ¬ (a.Covers x y ∧ b.Covers x y) := by
    simp only [tiles, Region.Covers, Int32.reduceToInt, List.pairwise_cons,
      List.mem_cons, List.not_mem_nil, or_false, forall_eq_or_imp, forall_eq,
      IsEmpty.forall_iff, implies_true, List.Pairwise.nil, and_self, and_true,
      not_and, not_lt, and_imp]
    refine ⟨⟨fun x y => ?_, fun x y => ?_⟩, fun x y => ?_⟩ <;> omega
  have hunion (x y : Int) :
      whole.Covers x y ↔ ∃ tile ∈ tiles, tile.Covers x y := by
    simp only [tiles, whole, Region.Covers, Int32.reduceToInt, List.mem_cons,
      List.not_mem_nil, or_false, exists_eq_or_imp, exists_eq_left]
    omega
  have hwhole : (draw.run session.rasterizer whole ⟨3, 0⟩ state data
      session.scratch session.surface).outcome = .ok outcome := by
    decide +kernel
  have hanswer := congrArg Answer.drawn hwhole
  exact ⟨hdisjoint, hunion, hanswer, session.run_tiles draw ⟨3, 0⟩ state data
    whole tiles outcome hdisjoint hunion hanswer⟩

end DepthPrepass
