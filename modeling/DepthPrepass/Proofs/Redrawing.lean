import DepthPrepass.Proofs.Ledger
import DepthPrepass.Proofs.OrderedTests
import DepthPrepass.Proofs.Tiling

/-!
# Drawing the same thing again

A draw that is repeated does not find what it found the first time: its own depths
are stored now, without the digits behind the point, and a test of a whole depth
against them can go another way than before. But what a cell holds after a
candidate does not depend on these digits. It is the one or the other of two
stored depths, picked by a rule that only looks at the test; and a candidate that
comes again later on need not have come before.

* `DepthTest.resolve`, `Candidate.settle_eq_resolve`: what a cell holds after a
  candidate.
* `foldl_absorb`, `foldl_foldl_of_subset`: what is folded in again later need not
  be folded in now.
* `Draw.exists_settledBy`: a draw has one test.
* `Draw.surface_run_again`: one repetition, on the surface.
* `Session.step_draw_again`, `Session.run_replicate_draw`: one repetition in a
  session, and any number of them.
-/

namespace DepthPrepass

/-! ## One candidate -/

/-- What a cell holds after a candidate of which `value` would be stored. -/
def DepthTest.resolve (test : DepthTest) (stored value : UInt16) : UInt16 :=
  match test with
  | .never | .equal => stored
  | .always | .notEqual => value
  | .less | .lessEqual => Preference.smaller.pick stored value
  | .greater | .greaterEqual => Preference.larger.pick stored value

/-- **The digits behind the point** of a candidate have no part in what is stored:
a test for equality passes only where the same depth is stored already, and its
opposite fails only there. -/
theorem Candidate.settle_eq_resolve {c : Candidate} (h : c.Truncates)
    (stored : UInt16) : settle stored c = c.test.resolve stored c.value := by
  -- a depth that equals a stored one has no digits behind the point
  have hsame (hbeq : (c.depth == stored.toFloat32) = true) :
      c.value = stored := by
    rw [h.value_eq]
    exact Binary32.toUInt16_eq_of_beq h.zero_le hbeq
  have hpick (p : Preference) (htest : c.test ∈ p.tests) :
      settle stored c = p.pick stored c.value :=
    p.settle_eq_pick htest h stored
  obtain ⟨test, depth, value⟩ := c
  -- the tests for equality; the four orders prefer a depth each
  cases test with
  | never => rfl
  | always => rfl
  | equal =>
    cases hbeq : depth == stored.toFloat32 with
    | false => exact if_neg (by rw [passes, DepthTest.passes, hbeq]; decide)
    | true =>
      exact (if_pos (by rw [passes, DepthTest.passes, hbeq])).trans (hsame hbeq)
  | notEqual =>
    cases hbeq : depth == stored.toFloat32 with
    | false => exact if_pos (by rw [passes, DepthTest.passes, hbeq]; rfl)
    | true =>
      refine (if_neg ?_).trans (hsame hbeq).symm
      rw [passes, DepthTest.passes, hbeq]
      decide
  | less => exact hpick .smaller List.mem_cons_self
  | lessEqual =>
    exact hpick .smaller (List.mem_cons_of_mem _ List.mem_cons_self)
  | greater => exact hpick .larger List.mem_cons_self
  | greaterEqual =>
    exact hpick .larger (List.mem_cons_of_mem _ List.mem_cons_self)

/-- What has been picked once is picked again. -/
theorem Preference.pick_pick_self (p : Preference) (stored value : UInt16) :
    p.pick (p.pick stored value) value = p.pick stored value := by
  refine UInt16.toNat_inj.1 ?_
  cases p with
  | smaller => simp only [toNat_pick_smaller]; omega
  | larger => simp only [toNat_pick_larger]; omega

namespace DepthTest

variable (test : DepthTest)

theorem resolve_resolve_self (stored value : UInt16) :
    test.resolve (test.resolve stored value) value
      = test.resolve stored value := by
  cases test with
  | never | equal | always | notEqual => rfl
  | less | lessEqual => exact Preference.smaller.pick_pick_self stored value
  | greater | greaterEqual => exact Preference.larger.pick_pick_self stored value

/-- Cells that one candidate makes equal it still makes equal after another
one. -/
theorem resolve_resolve_congr {stored stored' value : UInt16} (other : UInt16)
    (h : test.resolve stored value = test.resolve stored' value) :
    test.resolve (test.resolve stored other) value
      = test.resolve (test.resolve stored' other) value := by
  have hpick (p : Preference) (h : p.pick stored value = p.pick stored' value) :
      p.pick (p.pick stored other) value
        = p.pick (p.pick stored' other) value := by
    have hcomm : ∀ k m n, p.pick (p.pick k m) n = p.pick (p.pick k n) m :=
      RightCommutative.right_comm
    rw [hcomm, h, hcomm]
  cases test with
  | never | equal => exact h
  | always | notEqual => rfl
  | less | lessEqual => exact hpick .smaller h
  | greater | greaterEqual => exact hpick .larger h

end DepthTest

/-! ## Candidates again -/

section Fold

variable {α β : Type} {f : β → α → β}
  (hidem : ∀ b a, f (f b a) a = f b a)
  (hcongr : ∀ {b b'} a a', f b a = f b' a → f (f b a') a = f (f b' a') a)

include hidem hcongr in
/-- What is folded in again later need not be folded in now. -/
theorem foldl_absorb {a : α} {as : List α} (ha : a ∈ as) (b : β) :
    as.foldl f (f b a) = as.foldl f b := by
  -- until `a` comes again, the two folds are equal as far as `a` can tell
  obtain ⟨before, after, rfl⟩ := List.append_of_mem ha
  have hequal {b b' : β} (h : f b a = f b' a) :
      f (before.foldl f b) a = f (before.foldl f b') a := by
    induction before generalizing b b' with
    | nil => exact h
    | cons a' before ih =>
      exact ih (List.mem_append_right _ List.mem_cons_self) (hcongr a a' h)
  rw [List.foldl_append, List.foldl_append, List.foldl_cons, List.foldl_cons,
    hequal (hidem b a)]

include hidem hcongr in
theorem foldl_foldl_of_subset {as bs : List α} (h : as ⊆ bs) (b : β) :
    bs.foldl f (as.foldl f b) = bs.foldl f b := by
  induction as generalizing b with
  | nil => rfl
  | cons a as ih =>
    obtain ⟨ha, has⟩ := List.cons_subset.1 h
    rw [List.foldl_cons, ih has, foldl_absorb hidem hcongr ha]

end Fold

namespace Candidate

/-- Whether candidates are all decided about by one test, and have depths that
are not negative. -/
def SettledBy (test : DepthTest) (cs : List Candidate) : Prop :=
  ∀ c ∈ cs, c.test = test ∧ c.Truncates

variable {test : DepthTest} {cs : List Candidate}

/-- What a cell holds after candidates under one test. -/
theorem SettledBy.settleAll_eq_foldl (h : SettledBy test cs)
    (stored : UInt16) :
    settleAll cs stored = (cs.map (·.value)).foldl test.resolve stored := by
  refine Candidate.settleAll_eq_foldl (fun c hc => ?_) stored
  obtain ⟨rfl, htruncates⟩ := h c hc
  exact settle_eq_resolve htruncates

/-- **The same candidates again** change nothing. -/
theorem SettledBy.settleAll_settleAll (h : SettledBy test cs)
    (stored : UInt16) :
    settleAll cs (settleAll cs stored) = settleAll cs stored := by
  rw [h.settleAll_eq_foldl, h.settleAll_eq_foldl]
  exact foldl_foldl_of_subset test.resolve_resolve_self
    (fun _ other h => test.resolve_resolve_congr other h)
    (List.Subset.refl _) stored

end Candidate

/-! ## Draws again -/

namespace Draw

variable (r : Rasterizer) (scissor : Region) (draw : Draw)
  (layout : VertexLayout) (state : RenderState) (data : Array UInt8)

/-- What is assembled are rectangles or triangles, and so the policy has all of
it decided about by one test. -/
theorem effectiveTest?_assembledShapes (policy : Policy) (test : DepthTest)
    (assembly : Assembly) (vertex : Nat → ScreenVertex) (count : Nat) :
    ∃ test?, ∀ shape ∈ assembledShapes assembly vertex count,
      shape.effectiveTest? policy test = test? := by
  cases assembly with
  | rectangles =>
    refine ⟨Rectangle.effectiveTest? policy.rectangleTest test, ?_⟩
    intro shape hshape
    obtain ⟨pair, -, rfl⟩ := List.mem_map.1 hshape
    rfl
  | triangles topology =>
    refine ⟨Triangle.effectiveTest? policy.triangleNever test, ?_⟩
    intro shape hshape
    obtain ⟨t, -, rfl⟩ := List.mem_map.1 hshape
    rfl

/-- All that cells receive from a draw is decided about by one test. -/
theorem exists_settledBy (capacity : Nat) :
    ∃ test, ∀ cells j, Candidate.SettledBy test
      ((draw.strokes r scissor layout state data capacity).filterMap
        (·.candidateAt? cells j)) := by
  -- all shapes of a draw are of one kind, and so under one test
  have hshapes : ∃ test?, ∀ s ∈ draw.shapes layout state data capacity,
      s.2.effectiveTest? r.policy s.1 = test? := by
    unfold shapes
    split
    · next test assembly _ _ =>
      obtain ⟨test?, htest⟩ := effectiveTest?_assembledShapes r.policy test
        assembly (draw.vertexAt layout state data) draw.vertices
      refine ⟨test?, fun s hs => ?_⟩
      obtain ⟨shape, hshape, rfl⟩ := List.mem_map.1 hs
      exact htest shape hshape
    · exact ⟨none, nofun⟩
  obtain ⟨test?, htest⟩ := hshapes
  refine ⟨test?.getD .always, ?_⟩
  intro cells j c hc
  obtain ⟨stroke, hstroke, hc⟩ := List.mem_filterMap.1 hc
  obtain ⟨⟨own, shape⟩, hs, rfl⟩ := List.mem_map.1 hstroke
  -- a candidate comes from one of these shapes, and so from the same test
  obtain ⟨p, -, hc⟩ := Option.bind_eq_some_iff.1 hc
  change (if scissor.Covers p.1 p.2 then shape.candidate? r own p else none)
    = some c at hc
  split at hc
  · obtain ⟨heffective, htruncates⟩ := Shape.of_candidate?_eq_some hc
    rw [← htest _ hs, heffective]
    exact ⟨rfl, htruncates⟩
  · cases hc

/-- **A draw that is repeated** on what it has left leaves that as it is. The
scratch storage may have been used for something else in between. -/
theorem surface_run_again (scratch again : Scratch) (s : Surface)
    (hcapacity : again.capacity = scratch.capacity) :
    let first := draw.run r scissor layout state data scratch s
    (draw.run r scissor layout state data again first.surface).surface
      = first.surface := by
  intro first
  have hfirst := receives_run r scissor draw layout state data scratch s
  have hagain := receives_run r scissor draw layout state data again
    first.surface
  have hlayout : first.surface.layout = s.layout := hfirst.layout_eq
  rw [hcapacity, hlayout] at hagain
  -- the second run settles with the same candidates what they have settled
  obtain ⟨test, hsettled⟩ := exists_settledBy r scissor draw layout state data
    scratch.capacity
  refine Surface.ext_cells hagain.layout_eq (Array.ext_getElem? fun j => ?_)
  rw [hagain.getElem?_cells, hfirst.getElem?_cells, Option.map_map]
  refine Option.map_congr fun stored _ => ?_
  exact (hsettled s.layout j).settleAll_settleAll stored

end Draw

namespace Session

/-- A draw that is repeated changes the scratch storage and the counters at
most. Whatever has happened to these in between, the repetition finds the
rasterizer, the layout of the surface and the capacity of the first time. -/
theorem step_draw_again (session : Session) (draw : Draw)
    (layout : VertexLayout) (state : RenderState) (data : Array UInt8)
    (scissor : Option Region) {scratch : Scratch} (counters : Counters)
    (hcapacity : scratch.capacity = session.scratch.capacity) :
    let command := Command.draw draw layout state data scissor
    let first := (session.step command).1
    let again := ({ first with scratch, counters } : Session).step command
    again.1 = { first with
      scratch := again.1.scratch
      counters := again.1.counters } := by
  intro command first again
  have hlayout : first.surface.layout = session.surface.layout :=
    (Draw.receives_run ..).layout_eq
  -- without a scissor the bounds are asked for, which stay the same
  have hsurface : again.1.surface = first.surface := by
    show (draw.run _ (scissor.getD first.surface.bounds) layout state data
      scratch first.surface).surface = _
    rw [Surface.bounds_congr hlayout]
    exact Draw.surface_run_again session.rasterizer
      (scissor.getD session.surface.bounds) draw layout state data
      session.scratch scratch session.surface hcapacity
  exact congrArg (Session.mk session.rasterizer · again.1.scratch
    again.1.counters) hsurface

/-- So do any number of repetitions. -/
theorem exists_run_replicate_draw (session : Session) (draw : Draw)
    (layout : VertexLayout) (state : RenderState) (data : Array UInt8)
    (scissor : Option Region) (n : Nat) :
    let command := Command.draw draw layout state data scissor
    ∃ (scratch : Scratch) (counters : Counters),
      scratch.capacity = session.scratch.capacity
        ∧ (session.run (List.replicate (n + 1) command)).1
          = { (session.step command).1 with scratch, counters } := by
  intro command
  induction n with
  | zero => exact ⟨_, _, Draw.capacity_run .., rfl⟩
  | succ n ih =>
    obtain ⟨scratch, counters, hcapacity, hrun⟩ := ih
    have hagain := session.step_draw_again draw layout state data scissor
      counters hcapacity
    rw [List.replicate_succ', run_concat, hrun]
    exact ⟨_, _, (Draw.capacity_run ..).trans hcapacity, hagain⟩

/-- **Redrawing changes nothing.** A draw that is carried out twice, or any number
of times, leaves the same surface as if it had been carried out once: whatever it
draws, in whatever format, state and configuration, and under each of the eight
tests. The number of cells that are written may differ from one time to the
next. -/
theorem run_replicate_draw (session : Session) (draw : Draw)
    (layout : VertexLayout) (state : RenderState) (data : Array UInt8)
    (scissor : Option Region) (n : Nat) :
    let command := Command.draw draw layout state data scissor
    (session.run (List.replicate (n + 1) command)).1.surface
      = (session.step command).1.surface := by
  intro command
  obtain ⟨scratch, counters, -, hrun⟩ :=
    session.exists_run_replicate_draw draw layout state data scissor n
  rw [hrun]

end Session

end DepthPrepass
