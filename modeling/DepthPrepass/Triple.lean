/-!
# Triples

Three values of one kind: the corners of a triangle, its edges, and whatever
is kept for each of them.
-/

namespace DepthPrepass

/-- Three values of one kind, in order. -/
structure Triple (α : Type) where
  first : α
  second : α
  third : α
deriving DecidableEq, Repr

namespace Triple

variable {α β γ : Type}

/-- Apply a function to each value. -/
def map (f : α → β) (t : Triple α) : Triple β :=
  ⟨f t.first, f t.second, f t.third⟩

/-- Combine two triples value by value. -/
def zipWith (f : α → β → γ) (t : Triple α) (u : Triple β) : Triple γ :=
  ⟨f t.first u.first, f t.second u.second, f t.third u.third⟩

/-- The same value three times. -/
def splat (a : α) : Triple α :=
  ⟨a, a, a⟩

instance [Add α] : Add (Triple α) := ⟨zipWith (· + ·)⟩

/-- Whether one of the values has a property. -/
def any (t : Triple α) (p : α → Bool) : Bool :=
  p t.first || p t.second || p t.third

/-- The values in order. -/
def toList (t : Triple α) : List α :=
  [t.first, t.second, t.third]

end Triple

end DepthPrepass
