import DepthPrepass.Binary32
import DepthPrepass.Quad.Register

/-!
# Quads

Four lanes that go through each operation together: signed words, which wrap,
and single-precision numbers. Lanes do not influence each other. The product
of words goes through a register, since a register only multiplies some of
its words at a time.

* `signMask`: which lanes of words are negative, as a bit set.
* `lane_map`, `lane_zipWith`, `lane_splat`: what the operations do in a lane.
-/

namespace DepthPrepass

/-- Four values of one kind, one for each lane. -/
structure Quad (α : Type) where
  lane₀ : α
  lane₁ : α
  lane₂ : α
  lane₃ : α
deriving DecidableEq, Repr

namespace Quad

variable {α β γ : Type}

/-- Apply a function in each lane. -/
def map (f : α → β) (q : Quad α) : Quad β :=
  ⟨f q.lane₀, f q.lane₁, f q.lane₂, f q.lane₃⟩

/-- Combine two quads lane by lane. -/
def zipWith (f : α → β → γ) (q : Quad α) (r : Quad β) : Quad γ :=
  ⟨f q.lane₀ r.lane₀, f q.lane₁ r.lane₁, f q.lane₂ r.lane₂,
    f q.lane₃ r.lane₃⟩

/-- One value in every lane. -/
def splat (a : α) : Quad α :=
  ⟨a, a, a, a⟩

/-- The four lanes, in order. -/
def lanes : List (Fin 4) :=
  [0, 1, 2, 3]

/-- The value in lane `i`. -/
def lane (q : Quad α) : Fin 4 → α
  | 0 => q.lane₀
  | 1 => q.lane₁
  | 2 => q.lane₂
  | 3 => q.lane₃

@[simp] theorem lane_map (f : α → β) (q : Quad α) (i : Fin 4) :
    (q.map f).lane i = f (q.lane i) := by
  match i with
  | 0 | 1 | 2 | 3 => rfl

@[simp] theorem lane_zipWith (f : α → β → γ) (q : Quad α) (r : Quad β)
    (i : Fin 4) : (q.zipWith f r).lane i = f (q.lane i) (r.lane i) := by
  match i with
  | 0 | 1 | 2 | 3 => rfl

@[simp] theorem lane_splat (a : α) (i : Fin 4) : (splat a).lane i = a := by
  match i with
  | 0 | 1 | 2 | 3 => rfl

/-! ## Words -/

/-- The register that holds four words. -/
def toRegister (q : Quad Int32) : Register :=
  .ofWords q.lane₀.toBitVec q.lane₁.toBitVec q.lane₂.toBitVec
    q.lane₃.toBitVec

/-- The four words that a register holds. -/
def ofRegister (r : Register) : Quad Int32 :=
  ⟨.ofBitVec (r.word 0), .ofBitVec (r.word 1), .ofBitVec (r.word 2),
    .ofBitVec (r.word 3)⟩

instance : Add (Quad Int32) := ⟨zipWith (· + ·)⟩

instance : Sub (Quad Int32) := ⟨zipWith (· - ·)⟩

instance : Mul (Quad Int32) :=
  ⟨fun q r => ofRegister (q.toRegister.mulWords r.toRegister)⟩

instance : OrOp (Quad Int32) := ⟨zipWith (· ||| ·)⟩

/-- The sign bits of four words: bit `i` is set if lane `i` is negative. -/
def signMask (q : Quad Int32) : UInt32 :=
  let sign (n : Int32) := n.toUInt32 >>> 31
  sign q.lane₀ ||| sign q.lane₁ <<< 1 ||| sign q.lane₂ <<< 2
    ||| sign q.lane₃ <<< 3

/-! ## Single-precision numbers -/

instance : Add (Quad Float32) := ⟨zipWith (· + ·)⟩

instance : Sub (Quad Float32) := ⟨zipWith (· - ·)⟩

instance : Mul (Quad Float32) := ⟨zipWith (· * ·)⟩

/-- The numbers nearest to four words. -/
def toFloat32 (q : Quad Int32) : Quad Float32 :=
  q.map Binary32.ofInt32

end Quad

end DepthPrepass
