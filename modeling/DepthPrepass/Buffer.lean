/-!
# Reused buffers

A buffer is made once and its first items are replaced by each use; the items
after them stay as earlier uses left them.

* `getElem?_overwrite`: every item of an overwritten buffer.
-/

namespace DepthPrepass.Buffer

variable {α : Type}

/-- Replace the first `count` items, as far as there are that many. -/
def overwrite (buffer : Array α) (count : Nat) (item : Nat → α) : Array α :=
  (List.range count).foldl (fun b i => b.setIfInBounds i (item i)) buffer

theorem overwrite_succ (buffer : Array α) (count : Nat) (item : Nat → α) :
    overwrite buffer (count + 1) item
      = (overwrite buffer count item).setIfInBounds count (item count) := by
  simp only [overwrite, List.range_succ, List.foldl_append, List.foldl_cons,
    List.foldl_nil]

@[simp] theorem size_overwrite (buffer : Array α) (count : Nat)
    (item : Nat → α) : (overwrite buffer count item).size = buffer.size := by
  induction count with
  | zero => rfl
  | succ count ih => rw [overwrite_succ, Array.size_setIfInBounds, ih]

theorem getElem?_overwrite (buffer : Array α) (count : Nat) (item : Nat → α)
    (i : Nat) :
    (overwrite buffer count item)[i]?
      = if i < count ∧ i < buffer.size then some (item i)
        else buffer[i]? := by
  induction count with
  | zero => simp [overwrite]
  | succ count ih =>
    rw [overwrite_succ, Array.getElem?_setIfInBounds, size_overwrite, ih]
    by_cases hi : count = i
    · subst hi
      by_cases hs : count < buffer.size <;> simp [hs]
    · have hlt : i < count + 1 ↔ i < count := by omega
      simp only [if_neg hi, hlt]

end DepthPrepass.Buffer
