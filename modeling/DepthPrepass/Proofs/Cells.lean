import Mathlib.Algebra.BigOperators.Group.Finset.Basic
import DepthPrepass.Proofs.Visits

/-!
# Painting cell by cell

Painting tests many cells, but what becomes of a cell depends only on the
candidates that it receives itself and on their order. So what painting leaves
can be said with a list of candidates for each cell, and painting one thing
after another amounts to appending the lists of each cell. The order in which
different cells are visited is lost in this, as it should be.

* `Candidate.settleAll`, `Candidate.writes`: what candidates make of one cell.
* `Surface.Receives`: what they make of a surface.
* `Surface.Receives.append`, `Surface.Receives.unique`: one thing after
  another, and that nothing else matters.
* `Tested.receives_visits`: visits, cell by cell.
-/

namespace DepthPrepass

/-! ## One cell -/

/-- A depth to test a cell with: by which test, and what is stored of it if it
passes. -/
structure Candidate where
  test : DepthTest
  depth : Float32
  value : UInt16

namespace Candidate

/-- Whether a candidate replaces what a cell holds. -/
def passes (c : Candidate) (stored : UInt16) : Bool :=
  c.test.passes c.depth stored.toFloat32

/-- What a cell holds after a candidate. -/
def settle (stored : UInt16) (c : Candidate) : UInt16 :=
  if c.passes stored then c.value else stored

/-- What a cell holds after candidates one after another. -/
def settleAll (cs : List Candidate) (stored : UInt16) : UInt16 :=
  cs.foldl settle stored

/-- How often a cell is written by candidates one after another. -/
def writes : List Candidate → (stored : UInt16) → Nat
  | [], _ => 0
  | c :: cs, stored => (c.passes stored).toNat + writes cs (settle stored c)

theorem settleAll_append (cs ds : List Candidate) (stored : UInt16) :
    settleAll (cs ++ ds) stored = settleAll ds (settleAll cs stored) :=
  List.foldl_append

theorem writes_append (cs ds : List Candidate) (stored : UInt16) :
    writes (cs ++ ds) stored
      = writes cs stored + writes ds (settleAll cs stored) := by
  induction cs generalizing stored with
  | nil => exact (Nat.zero_add _).symm
  | cons c cs ih =>
    rw [List.cons_append, writes, ih, writes, ← Nat.add_assoc]
    rfl

end Candidate

/-! ## All cells -/

namespace Surface

/-- How often cell `j` is written by candidates, if there is such a cell. -/
def writesAt (s : Surface) (cs : List Candidate) (j : Nat) : Nat :=
  (s.cells[j]?).elim 0 (Candidate.writes cs)

/-- What is left of a surface whose cell `j` receives the candidates `cs j`,
and how many cells have been written. -/
structure Receives (s : Surface) (cs : Nat → List Candidate)
    (after : Surface) (written : Nat) : Prop where
  layout_eq : after.layout = s.layout
  getElem?_cells : ∀ j,
    after.cells[j]? = (s.cells[j]?).map (Candidate.settleAll (cs j))
  written_eq : written = ∑ j ∈ Finset.range s.cells.size, s.writesAt (cs j) j

namespace Receives

variable {s after after' : Surface} {cs ds : Nat → List Candidate}
  {written written' : Nat}

/-- Cells that receive nothing stay as they are. -/
theorem nothing (s : Surface) : s.Receives (fun _ => []) s 0 where
  layout_eq := rfl
  getElem?_cells j := by
    have hid : Candidate.settleAll [] = id := rfl
    rw [hid, Option.map_id, id]
  written_eq := by
    refine (Finset.sum_eq_zero fun j _ => ?_).symm
    unfold writesAt
    cases s.cells[j]? <;> rfl

theorem size_eq (h : s.Receives cs after written) :
    after.cells.size = s.cells.size := by
  have hnone (j : Nat) : after.cells.size ≤ j ↔ s.cells.size ≤ j := by
    rw [← Array.getElem?_eq_none_iff, ← Array.getElem?_eq_none_iff,
      h.getElem?_cells, Option.map_eq_none_iff]
  exact Nat.le_antisymm ((hnone _).2 (Nat.le_refl _))
    ((hnone _).1 (Nat.le_refl _))

/-- A pixel is left with what its cell makes of the candidates for it. -/
theorem get?_eq (h : s.Receives cs after written) (x y : Nat) :
    after.get? x y
      = (s.get? x y).map (Candidate.settleAll (cs (s.index x y))) := by
  unfold Surface.get? Surface.index
  rw [h.layout_eq]
  split
  · exact h.getElem?_cells _
  · rfl

/-- **One thing after another**: each cell receives first what is first. -/
theorem append (h : s.Receives cs after written)
    (h' : after.Receives ds after' written') :
    s.Receives (fun j => cs j ++ ds j) after' (written + written') where
  layout_eq := h'.layout_eq.trans h.layout_eq
  getElem?_cells j := by
    rw [h'.getElem?_cells, h.getElem?_cells, Option.map_map]
    refine Option.map_congr fun stored _ => ?_
    exact (Candidate.settleAll_append (cs j) (ds j) stored).symm
  written_eq := by
    rw [h'.written_eq, h.written_eq, h.size_eq, ← Finset.sum_add_distrib]
    refine Finset.sum_congr rfl fun j _ => ?_
    unfold writesAt
    rw [h.getElem?_cells]
    -- the second part finds what the first has left in the cell
    cases s.cells[j]? with
    | none => rfl
    | some stored =>
      exact (Candidate.writes_append (cs j) (ds j) stored).symm

/-- **Nothing else matters**: what is left and how many cells have been written
depends on the candidates of each cell alone. -/
theorem unique (h : s.Receives cs after written)
    (h' : s.Receives cs after' written') :
    after = after' ∧ written = written' := by
  refine ⟨ext_cells (h.layout_eq.trans h'.layout_eq.symm) ?_,
    h.written_eq.trans h'.written_eq.symm⟩
  exact Array.ext_getElem? fun j =>
    (h.getElem?_cells j).trans (h'.getElem?_cells j).symm

end Receives

end Surface

/-! ## Visits -/

/-- The candidate of a visit under a test. -/
def Candidate.ofVisit (test : DepthTest) (v : Visit) : Candidate :=
  ⟨test, v.candidate, v.value⟩

namespace Tested

/-- What cell `j` receives by visits: the candidates of those that are to it. -/
def received (test : DepthTest) (vs : List Visit) (j : Nat) : List Candidate :=
  (vs.filter (·.cell = j)).map (Candidate.ofVisit test)

theorem passed_visit (test : DepthTest) (candidate : Float32) (value : UInt16)
    (t : Tested) (i : Nat) :
    (t.visit test candidate value i).passed
      = t.passed + (t.surface.cells[i]?).elim 0
          fun stored => (test.passes candidate stored.toFloat32).toNat := by
  obtain ⟨s, tested, passed, failed⟩ := t
  unfold visit
  dsimp only
  split
  · next h =>
    rw [Array.getElem?_eq_getElem h]
    dsimp only [Option.elim_some]
    split
    · next hpass => rw [hpass]; rfl
    · next hfail => rw [Bool.eq_false_iff.2 hfail]; rfl
  · -- outside the storage nothing is tested, and nothing passes
    next h =>
    rw [Array.getElem?_eq_none (Nat.not_lt.1 h)]
    rfl

/-- One visit is one candidate for one cell. -/
theorem receives_visit (test : DepthTest) (t : Tested) (v : Visit) :
    ∃ written,
      t.surface.Receives (received test [v])
          (t.visit test v.candidate v.value v.cell).surface written
        ∧ (t.visit test v.candidate v.value v.cell).passed
          = t.passed + written := by
  have hreceived (j : Nat) : received test [v] j
      = if v.cell = j then [.ofVisit test v] else [] := by
    unfold received
    rw [List.filter_cons]
    by_cases h : v.cell = j <;> simp [h]
  refine ⟨_, ⟨layout_visit .., fun j => ?_, rfl⟩, ?_⟩
  · -- the cell of the visit has its one candidate, all others have none
    rw [getElem?_cells_visit, hreceived]
    refine Option.map_congr fun stored _ => ?_
    by_cases h : v.cell = j
    · simp only [h, if_true, true_and]
      rfl
    · simp only [h, if_false, false_and]
      rfl
  · -- only one cell contributes to the sum, if the visit is to a cell at all
    have hsum : ∑ j ∈ Finset.range t.surface.cells.size,
          t.surface.writesAt (received test [v] j) j
        = t.surface.writesAt [.ofVisit test v] v.cell := by
      rw [Finset.sum_eq_single v.cell]
      · rw [hreceived, if_pos rfl]
      · intro j _ hj
        rw [hreceived, if_neg (Ne.symm hj)]
        unfold Surface.writesAt
        cases t.surface.cells[j]? <;> rfl
      · intro hcell
        have hcell := Nat.not_lt.1 (mt Finset.mem_range.2 hcell)
        unfold Surface.writesAt
        rw [Array.getElem?_eq_none hcell]
        rfl
    rw [passed_visit, hsum]
    rfl

/-- **Visits, cell by cell**: the passed ones are the written cells. -/
theorem receives_visits (test : DepthTest) (t : Tested) (vs : List Visit) :
    ∃ written,
      t.surface.Receives (received test vs) (t.visits test vs).surface written
        ∧ (t.visits test vs).passed = t.passed + written := by
  -- the other visits find the surface of the first one
  induction vs generalizing t with
  | nil => exact ⟨0, .nothing _, rfl⟩
  | cons v vs ih =>
    obtain ⟨w, hfirst, hw⟩ := receives_visit test t v
    obtain ⟨w', hrest, hw'⟩ := ih (t.visit test v.candidate v.value v.cell)
    have hreceived : received test (v :: vs)
        = fun j => received test [v] j ++ received test vs j := by
      funext j
      unfold received
      rw [← List.map_append, ← List.filter_append]
      rfl
    refine ⟨w + w', hreceived ▸ hfirst.append hrest, ?_⟩
    show (Tested.visits test _ vs).passed = _
    rw [hw', hw, Nat.add_assoc]

end Tested

end DepthPrepass
