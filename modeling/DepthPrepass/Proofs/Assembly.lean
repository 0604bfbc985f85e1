import Mathlib.Data.List.Range
import DepthPrepass.Draw.Primitive

/-!
# What is assembled

Triangles are assembled one after another, and in a strip the corners of one
follow from those of the one before. Each of them can also be said for itself:
the corners of triangle `k` depend on `k` alone, in a strip on whether `k` is
even. All corners are vertices that the draw has.

* `Topology.triangles_eq`: the triangles of a topology, each for itself.
* `Topology.mem_toList_lt`, `Assembly.pair_lt`: corners are vertices.
-/

namespace DepthPrepass

namespace Triple

variable {α β : Type}

/-- What holds of each value of a triple. -/
theorem forall_mem_toList {t : Triple α} {p : α → Prop} :
    (∀ a ∈ t.toList, p a) ↔ p t.first ∧ p t.second ∧ p t.third := by
  simp only [toList, List.mem_cons, List.not_mem_nil, or_false,
    forall_eq_or_imp, forall_eq]

/-- Functions that agree on the values of a triple give the same triple. -/
theorem map_congr {f g : α → β} {t : Triple α}
    (h : ∀ a ∈ t.toList, f a = g a) : t.map f = t.map g := by
  obtain ⟨hfirst, hsecond, hthird⟩ := forall_mem_toList.1 h
  rw [map, map, hfirst, hsecond, hthird]

end Triple

namespace Topology

/-- The corners of triangle `k`. -/
def triangle : Topology → (k : Nat) → Triple Nat
  | list, k => ⟨3 * k, 3 * k + 1, 3 * k + 2⟩
  | strip, k => if k % 2 = 0 then ⟨k, k + 2, k + 1⟩ else ⟨k, k + 1, k + 2⟩
  | fan, k => ⟨0, k + 2, k + 1⟩

/-- The offset that a strip carries along tells even triangles from odd ones. -/
theorem stripFrom_eq (i n : Nat) :
    stripFrom i (if i % 2 = 0 then 2 else 1) n
      = (List.range' i n).map strip.triangle := by
  induction n generalizing i with
  | zero => rfl
  | succ n ih =>
    rw [List.range'_succ, List.map_cons, ← ih (i + 1), stripFrom]
    rcases Nat.mod_two_eq_zero_or_one i with heven | hodd
    · have hnext : (i + 1) % 2 = 1 := by omega
      simp [triangle, heven, hnext]
    · have hnext : (i + 1) % 2 = 0 := by omega
      simp [triangle, hodd, hnext]

/-- **Each triangle for itself.** -/
theorem triangles_eq (topology : Topology) (n : Nat) :
    topology.triangles n = (List.range n).map topology.triangle := by
  cases topology with
  | list => rfl
  | strip =>
    rw [List.range_eq_range', ← stripFrom_eq]
    rfl
  | fan => rfl

/-- The corners of triangles are vertices. -/
theorem mem_toList_lt {topology : Topology} {vertices : Nat}
    {corners : Triple Nat}
    (h : corners ∈ topology.triangles (topology.triangleCount vertices))
    {i : Nat} (hi : i ∈ corners.toList) : i < vertices := by
  rw [triangles_eq] at h
  obtain ⟨k, hk, rfl⟩ := List.mem_map.1 h
  have hk := List.mem_range.1 hk
  -- the last triangle has the highest corners, which are vertices still
  cases topology with
  | list =>
    have hk : k < vertices / 3 := hk
    simp only [triangle, Triple.toList, List.mem_cons, List.not_mem_nil,
      or_false] at hi
    omega
  | strip =>
    have hk : k < vertices - 2 := hk
    rcases Nat.mod_two_eq_zero_or_one k with heven | hodd
    · simp only [triangle, heven, if_true, Triple.toList, List.mem_cons,
        List.not_mem_nil, or_false] at hi
      omega
    · simp only [triangle, hodd, Nat.one_ne_zero, if_false, Triple.toList,
        List.mem_cons, List.not_mem_nil, or_false] at hi
      omega
  | fan =>
    have hk : k < vertices - 2 := hk
    simp only [triangle, Triple.toList, List.mem_cons, List.not_mem_nil,
      or_false] at hi
    omega

end Topology

/-- The corners of rectangles are vertices. -/
theorem Assembly.pair_lt {vertices : Nat} {pair : Nat × Nat}
    (h : pair ∈ rectanglePairs (rectangleCount vertices)) :
    pair.1 < vertices ∧ pair.2 < vertices := by
  obtain ⟨k, hk, rfl⟩ := List.mem_map.1 h
  have hk : k < vertices / 2 := List.mem_range.1 hk
  exact ⟨by dsimp only; omega, by dsimp only; omega⟩

end DepthPrepass
