import DepthPrepass.Proofs.CheckedAccess
import DepthPrepass.Proofs.DrawStrokes

/-!
# Corners that are vertices

The vertices of a draw are numbered, and the corners of a primitive are computed from
the number of the primitive, in a strip with an offset that is carried along. Here the
computation is done once more with each product and each sum checked, and vertices are
looked up in storage that holds those of the draw and no others. Nothing fails, for as
many vertices as can be counted: a corner is a vertex of the draw, so it is a size, and
so is what is computed on the way to it.

* `Topology.triangles?`, `Assembly.rectanglePairs?`: checked corners.
* `Draw.paint?`: painting with checked corners and checked vertices.
* `Topology.stripFrom?_eq_some`, `Topology.triangles?_eq_some`: no sum fails.
* `Topology.flatMap_toList_list`, `Assembly.flatMap_rectanglePairs`: a list of
  triangles and a list of rectangles use one vertex after another.
* `Draw.corners_of_vertices`: the corners of all primitives of a draw.
-/

namespace DepthPrepass

/-! ## Checked corners -/

namespace Topology

/-- The corners of successive triangles of a strip, with each sum checked, also the one
that leads to the next triangle. -/
def stripFrom? : (i offset n : Nat) → Option (List (Triple Nat))
  | _, _, 0 => some []
  | i, offset, n + 1 => do
    let second ← Size.add? i offset
    let other := offset ^^^ 3
    let third ← Size.add? i other
    let next ← Size.add? i 1
    let rest ← stripFrom? next other n
    return ⟨i, second, third⟩ :: rest

/-- The corners of triangle `i` of a list. -/
def listTriangle? (i : Nat) : Option (Triple Nat) := do
  let first ← Size.mul? 3 i
  let second ← Size.add? first 1
  let third ← Size.add? first 2
  return ⟨first, second, third⟩

/-- The corners of triangle `i` of a fan. -/
def fanTriangle? (i : Nat) : Option (Triple Nat) := do
  let second ← Size.add? i 2
  let third ← Size.add? i 1
  return ⟨0, second, third⟩

/-- The corners of the first `n` triangles, if all that is computed are sizes. -/
def triangles? : Topology → (n : Nat) → Option (List (Triple Nat))
  | list, n => (List.range n).mapM listTriangle?
  | strip, n => stripFrom? 0 2 n
  | fan, n => (List.range n).mapM fanTriangle?

end Topology

namespace Assembly

/-- The corners of rectangle `i`. -/
def rectanglePair? (i : Nat) : Option (Nat × Nat) := do
  let first ← Size.mul? 2 i
  let second ← Size.add? first 1
  return (first, second)

/-- The corners of the first `n` rectangles, if all that is computed are sizes. -/
def rectanglePairs? (n : Nat) : Option (List (Nat × Nat)) :=
  (List.range n).mapM rectanglePair?

end Assembly

/-! ## Checked painting -/

namespace Draw

/-- Paint the rectangle between two vertices, if both are there. -/
def paintRectangle? (r : Rasterizer) (scissor : Region) (test : DepthTest)
    (screen : Array ScreenVertex) (progress : Progress) (pair : Nat × Nat) :
    Option Progress :=
  if pair.1 < screen.size ∧ pair.2 < screen.size then
    some (paintRectangle r scissor test (screen.getD · default) progress pair)
  else none

/-- Paint the triangle between three vertices, if all of them are there. -/
def paintTriangle? (r : Rasterizer) (scissor : Region) (test : DepthTest)
    (screen : Array ScreenVertex) (progress : Progress) (corners : Triple Nat) :
    Option Progress :=
  if ∀ i ∈ corners.toList, i < screen.size then
    some (paintTriangle r scissor test (screen.getD · default) progress corners)
  else none

/-- Paint what the vertices in a storage are assembled into, with corners and vertices
checked. -/
def paint? (r : Rasterizer) (scissor : Region) (test : DepthTest)
    (assembly : Assembly) (screen : Array ScreenVertex) (s : Surface) :
    Option Progress :=
  match assembly with
  | .rectangles => do
    let pairs ← Assembly.rectanglePairs? (Assembly.rectangleCount screen.size)
    pairs.foldlM (paintRectangle? r scissor test screen) ⟨s, {}, 0⟩
  | .triangles topology => do
    let triangles ← topology.triangles? (topology.triangleCount screen.size)
    triangles.foldlM (paintTriangle? r scissor test screen) ⟨s, {}, 0⟩

end Draw

/-! ## Sums that do not fail -/

/-- If no step of a list of steps fails, the list has a result. -/
theorem mapM_eq_some_map {α β : Type} {f? : α → Option β} {f : α → β} {l : List α}
    (h : ∀ a ∈ l, f? a = some (f a)) : l.mapM f? = some (l.map f) := by
  induction l with
  | nil => rfl
  | cons a l ih =>
    obtain ⟨hfirst, hrest⟩ := List.forall_mem_cons.1 h
    rw [List.mapM_cons, hfirst, ih hrest]
    rfl

namespace Topology

/-- The offset of a strip is one or two, so no corner is farther than two vertices from
the first one of its triangle. -/
theorem stripFrom?_eq_some {i offset n : Nat} (hoffset : offset = 1 ∨ offset = 2)
    (h : i + n + 2 ≤ Size.limit) :
    stripFrom? i offset n = some (stripFrom i offset n) := by
  induction n generalizing i offset with
  | zero => rfl
  | succ n ih =>
    -- the offsets take turns, and neither is more than two
    have hother : offset ^^^ 3 = 1 ∨ offset ^^^ 3 = 2 := by
      rcases hoffset with rfl | rfl
      · exact .inr rfl
      · exact .inl rfl
    have hsecond : Size.add? i offset = some (i + offset) :=
      Size.add?_eq_some_iff.2 ⟨rfl, by omega⟩
    have hthird : Size.add? i (offset ^^^ 3) = some (i + (offset ^^^ 3)) :=
      Size.add?_eq_some_iff.2 ⟨rfl, by omega⟩
    have hnext : Size.add? i 1 = some (i + 1) :=
      Size.add?_eq_some_iff.2 ⟨rfl, by omega⟩
    -- the bound on the last corner moves along with the first one
    have hrest := ih (i := i + 1) hother (by omega)
    unfold stripFrom?
    rw [hsecond, Option.bind_eq_bind, Option.bind_some]
    dsimp only
    rw [hthird, Option.bind_eq_bind, Option.bind_some, hnext, Option.bind_some, hrest]
    rfl

theorem listTriangle?_eq_some {i : Nat} (h : 3 * i + 2 < Size.limit) :
    listTriangle? i = some (list.triangle i) := by
  have hfirst : Size.mul? 3 i = some (3 * i) :=
    Size.mul?_eq_some_iff.2 ⟨rfl, by omega⟩
  have hsecond : Size.add? (3 * i) 1 = some (3 * i + 1) :=
    Size.add?_eq_some_iff.2 ⟨rfl, by omega⟩
  have hthird : Size.add? (3 * i) 2 = some (3 * i + 2) :=
    Size.add?_eq_some_iff.2 ⟨rfl, h⟩
  unfold listTriangle?
  rw [hfirst, Option.bind_eq_bind, Option.bind_some, hsecond, Option.bind_some, hthird]
  rfl

theorem fanTriangle?_eq_some {i : Nat} (h : i + 2 < Size.limit) :
    fanTriangle? i = some (fan.triangle i) := by
  have hsecond : Size.add? i 2 = some (i + 2) := Size.add?_eq_some_iff.2 ⟨rfl, h⟩
  have hthird : Size.add? i 1 = some (i + 1) :=
    Size.add?_eq_some_iff.2 ⟨rfl, by omega⟩
  unfold fanTriangle?
  rw [hsecond, Option.bind_eq_bind, Option.bind_some, hthird]
  rfl

variable {vertices : Nat}

/-- **No sum fails** in the corners of a draw whose vertices can be counted. -/
theorem triangles?_eq_some (topology : Topology) (h : vertices < Size.limit) :
    topology.triangles? (topology.triangleCount vertices)
      = some (topology.triangles (topology.triangleCount vertices)) := by
  have hcount {k : Nat} (hk : k ∈ List.range (topology.triangleCount vertices)) :
      k < topology.triangleCount vertices := List.mem_range.1 hk
  cases topology with
  | list =>
    refine mapM_eq_some_map fun k hk => listTriangle?_eq_some ?_
    have hk : k < vertices / 3 := hcount hk
    omega
  | strip =>
    -- without a triangle there is nothing to compute
    rcases Nat.lt_or_ge vertices 2 with hfew | hmany
    · have hnone : strip.triangleCount vertices = 0 := Nat.sub_eq_zero_of_le hfew.le
      rw [hnone]
      rfl
    · refine stripFrom?_eq_some (.inr rfl) ?_
      show 0 + (vertices - 2) + 2 ≤ Size.limit
      omega
  | fan =>
    refine mapM_eq_some_map fun k hk => fanTriangle?_eq_some ?_
    have hk : k < vertices - 2 := hcount hk
    omega

/-- How many triangles there are. -/
theorem length_triangles (topology : Topology) (n : Nat) :
    (topology.triangles n).length = n := by
  rw [triangles_eq, List.length_map, List.length_range]

/-- The triangle with a number. -/
theorem getElem?_triangles (topology : Topology) {n k : Nat} (hk : k < n) :
    (topology.triangles n)[k]? = some (topology.triangle k) := by
  rw [triangles_eq, List.getElem?_map, List.getElem?_range hk]
  rfl

end Topology

theorem Assembly.rectanglePairs?_eq_some {vertices : Nat}
    (h : vertices < Size.limit) :
    rectanglePairs? (rectangleCount vertices)
      = some (rectanglePairs (rectangleCount vertices)) := by
  refine mapM_eq_some_map fun k hk => ?_
  have hk : k < vertices / 2 := List.mem_range.1 hk
  have hfirst : Size.mul? 2 k = some (2 * k) :=
    Size.mul?_eq_some_iff.2 ⟨rfl, by omega⟩
  have hsecond : Size.add? (2 * k) 1 = some (2 * k + 1) :=
    Size.add?_eq_some_iff.2 ⟨rfl, by omega⟩
  unfold rectanglePair?
  rw [hfirst, Option.bind_eq_bind, Option.bind_some, hsecond]
  rfl

/-! ## One vertex after another -/

/-- Successive blocks of one length are a range. -/
theorem flatMap_range_blocks (length n : Nat) :
    (List.range n).flatMap (fun i => (List.range length).map (length * i + ·))
      = List.range (length * n) := by
  induction n with
  | zero => rfl
  | succ n ih =>
    rw [List.range_succ, List.flatMap_append, ih, List.flatMap_singleton,
      Nat.mul_succ, List.range_add]

theorem Topology.flatMap_toList_list (n : Nat) :
    (list.triangles n).flatMap Triple.toList = List.range (3 * n) := by
  rw [← flatMap_range_blocks, triangles_eq, List.flatMap_map]
  rfl

theorem Assembly.flatMap_rectanglePairs (n : Nat) :
    (rectanglePairs n).flatMap (fun pair => [pair.1, pair.2])
      = List.range (2 * n) := by
  rw [← flatMap_range_blocks, rectanglePairs, List.flatMap_map]
  rfl

/-! ## Draws -/

namespace Draw

/-- Checked painting is painting: no corner is beyond the vertices that are there. -/
theorem paint?_eq_some (r : Rasterizer) (scissor : Region) (test : DepthTest)
    (assembly : Assembly) (screen : Array ScreenVertex) (s : Surface)
    (h : screen.size < Size.limit) :
    paint? r scissor test assembly screen s
      = some (paint r scissor test assembly (screen.getD · default) screen.size s) := by
  -- what has been painted has no part in the checks, so the invariant is trivial
  cases assembly with
  | rectangles =>
    unfold paint?
    dsimp only
    rw [Assembly.rectanglePairs?_eq_some h, Option.bind_eq_bind, Option.bind_some]
    refine foldlM_eq_some_foldl (fun _ => True) ?_ trivial
    intro pair hpair progress _
    exact ⟨if_pos (Assembly.pair_lt hpair), trivial⟩
  | triangles topology =>
    unfold paint?
    dsimp only
    rw [topology.triangles?_eq_some h, Option.bind_eq_bind, Option.bind_some]
    refine foldlM_eq_some_foldl (fun _ => True) ?_ trivial
    intro corners hcorners progress _
    exact ⟨if_pos fun i hi => Topology.mem_toList_lt hcorners hi, trivial⟩

/-- The vertices of a draw are the first ones of the scratch storage, and no others are
looked up. -/
theorem paint?_take_eq_some (r : Rasterizer) (scissor : Region) (test : DepthTest)
    (assembly : Assembly) (scratch : Scratch) (s : Surface) {vertices : Nat}
    (hroom : vertices ≤ scratch.capacity) (h : vertices < Size.limit) :
    paint? r scissor test assembly (scratch.screen.take vertices) s
      = some (paint r scissor test assembly scratch.vertex vertices s) := by
  have hsize : (scratch.screen.take vertices).size = vertices := by
    rw [Array.size_extract, scratch.size_eq, Nat.sub_zero]
    exact Nat.min_eq_left hroom
  rw [paint?_eq_some _ _ _ _ _ _ (hsize.symm ▸ h), hsize]
  refine congrArg some (paint_congr r scissor test (fun i hi => ?_) assembly s)
  unfold Scratch.vertex
  have hfirst : i < min vertices scratch.screen.size - 0 := by
    rw [scratch.size_eq]
    exact Nat.lt_min.2 ⟨hi, Nat.lt_of_lt_of_le hi hroom⟩
  rw [Array.getD_eq_getD_getElem?, Array.getD_eq_getD_getElem?,
    Array.getElem?_extract, if_pos hfirst, Nat.zero_add]

/-- **The corners of a draw**, for as many vertices as can be counted. In a strip
triangle `k` has the corners `k`, `k + 2` and `k + 1` if `k` is even and `k`, `k + 1` and
`k + 2` if it is odd, and in a fan `0`, `k + 2` and `k + 1`; there are two triangles less
than there are vertices, or none. The triangles of a list and the rectangles use one
vertex after another, and what is left over are fewer vertices than one of them has. All
corners are vertices of the draw, and painting looks up no others in storage with room
for them; all that is computed on the way to a corner are sizes. -/
theorem corners_of_vertices (vertices : Nat) (h : vertices < 2 ^ 64) :
    let triangles (topology : Topology) :=
      topology.triangles (topology.triangleCount vertices)
    let pairs := Assembly.rectanglePairs (Assembly.rectangleCount vertices)
    (((triangles .strip).length : Int) = max ((vertices : Int) - 2) 0
        ∧ ∀ k < (triangles .strip).length, (triangles .strip)[k]?
          = some (if k % 2 = 0 then ⟨k, k + 2, k + 1⟩ else ⟨k, k + 1, k + 2⟩))
      ∧ (((triangles .fan).length : Int) = max ((vertices : Int) - 2) 0
        ∧ ∀ k < (triangles .fan).length,
          (triangles .fan)[k]? = some ⟨0, k + 2, k + 1⟩)
      ∧ (triangles .list).flatMap Triple.toList = List.range (3 * (vertices / 3))
      ∧ (pairs.flatMap fun pair => [pair.1, pair.2])
        = List.range (2 * (vertices / 2))
      ∧ (∀ topology, ∀ corners ∈ triangles topology, ∀ i ∈ corners.toList,
        i < vertices)
      ∧ (∀ pair ∈ pairs, pair.1 < vertices ∧ pair.2 < vertices)
      ∧ (∀ topology : Topology, topology.triangles? (topology.triangleCount vertices)
        = some (triangles topology))
      ∧ Assembly.rectanglePairs? (Assembly.rectangleCount vertices) = some pairs
      ∧ ∀ (r : Rasterizer) (scissor : Region) (test : DepthTest)
          (assembly : Assembly) (scratch : Scratch) (s : Surface),
        vertices ≤ scratch.capacity →
          paint? r scissor test assembly (scratch.screen.take vertices) s
            = some (paint r scissor test assembly scratch.vertex vertices s) := by
  intro triangles pairs
  have hlimit : vertices < Size.limit := h
  -- the corners of a triangle depend on its place only
  have hlength (topology : Topology) :
      (triangles topology).length = topology.triangleCount vertices :=
    topology.length_triangles _
  have htriangle (topology : Topology) (k : Nat)
      (hk : k < (triangles topology).length) :
      (triangles topology)[k]? = some (topology.triangle k) :=
    topology.getElem?_triangles (hlength topology ▸ hk)
  have hcount : ((vertices - 2 : Nat) : Int) = max ((vertices : Int) - 2) 0 := by
    omega
  refine ⟨⟨?_, htriangle .strip⟩, ⟨?_, htriangle .fan⟩,
    Topology.flatMap_toList_list _, Assembly.flatMap_rectanglePairs _,
    fun topology corners hcorners i hi => Topology.mem_toList_lt hcorners hi,
    fun pair hpair => Assembly.pair_lt hpair,
    fun topology => topology.triangles?_eq_some hlimit,
    Assembly.rectanglePairs?_eq_some hlimit,
    fun r scissor test assembly scratch s hroom =>
      paint?_take_eq_some r scissor test assembly scratch s hroom hlimit⟩
  · rw [hlength]
    exact hcount
  · rw [hlength]
    exact hcount

/-- The last triangles of the longest strip and of the longest fan. -/
theorem corners_of_vertices_largest :
    let vertices := 2 ^ 64 - 1
    let triangles (topology : Topology) :=
      topology.triangles (topology.triangleCount vertices)
    vertices < 2 ^ 64
      ∧ (triangles .strip)[2 ^ 64 - 4]?
        = some ⟨2 ^ 64 - 4, 2 ^ 64 - 2, 2 ^ 64 - 3⟩
      ∧ (triangles .fan)[2 ^ 64 - 4]? = some ⟨0, 2 ^ 64 - 2, 2 ^ 64 - 3⟩
      ∧ Topology.strip.triangles? (2 ^ 64 - 3) = some (triangles .strip) := by
  intro vertices triangles
  have hvertices : vertices < 2 ^ 64 := by decide
  obtain ⟨⟨hstrip, hstrips⟩, ⟨hfan, hfans⟩, -, -, -, -, hchecked, -, -⟩ :=
    corners_of_vertices vertices hvertices
  have hlast : max ((vertices : Int) - 2) 0 = 2 ^ 64 - 3 := by decide
  rw [hlast] at hstrip hfan
  exact ⟨hvertices, hstrips (2 ^ 64 - 4) (by omega), hfans (2 ^ 64 - 4) (by omega),
    hchecked .strip⟩

end Draw

end DepthPrepass
