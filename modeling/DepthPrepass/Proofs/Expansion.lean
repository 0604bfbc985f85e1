import DepthPrepass.Proofs.DrawStrokes

/-!
# Strips and fans written out

Strips and fans share vertices between triangles. The same triangles can be
drawn without sharing, from data in which every corner of every triangle has a
vertex of its own, a copy of the one that is shared. Such data is longer, and
another number of vertices is read, brought to the screen and looked at for being
behind the camera; but the triangles have the same corners, and every vertex of
a strip or a fan is a corner.

* `Topology.Expands`: data in which shared vertices are written out.
* `Topology.exists_mem_triangle`: every vertex is a corner.
* `VertexLayout.gather`, `Topology.expands_gather`: how to write them out.
* `Draw.paint_expanded`: the same triangles are painted.
* `Draw.exists_clipW_expanded`, `Draw.fate_expanded`: a vertex is in front of the
  camera if a copy is, so the same becomes of both draws.
* `Draw.run_expanded`: the whole draw.
-/

namespace DepthPrepass

/-! ## Copies of vertices -/

namespace Triple

variable {α β γ : Type} {t u : Triple α}

/-- Triples that agree in something agree in what depends on that only. -/
theorem map_eq_map {f f' : α → β} {g g' : α → γ} (h : t.map f = u.map f')
    (hg : ∀ a a', f a = f' a' → g a = g' a') : t.map g = u.map g' := by
  obtain ⟨a, b, c⟩ := t
  obtain ⟨a', b', c'⟩ := u
  obtain ⟨ha, hb, hc⟩ := Triple.mk.inj h
  rw [map, map, hg _ _ ha, hg _ _ hb, hg _ _ hc]

/-- Each value of one of them has a counterpart in the other. -/
theorem exists_mem_of_map_eq_map {f f' : α → β} (h : t.map f = u.map f') {a : α}
    (ha : a ∈ t.toList) : ∃ a' ∈ u.toList, f' a' = f a := by
  have hlist : t.toList.map f = u.toList.map f' := congrArg toList h
  have hmem : f a ∈ u.toList.map f' := by
    rw [← hlist]
    exact List.mem_map_of_mem ha
  exact List.mem_map.1 hmem

end Triple

namespace PositionFormat

/-- A component depends on its own bytes only. -/
theorem componentAt_congr {data data' : Array UInt8} {address address' : Nat}
    (format : PositionFormat) (through : Bool)
    (h : ∀ b < format.componentSize,
      byteAt data (address + b) = byteAt data' (address' + b)) :
    format.componentAt through data address
      = format.componentAt through data' address' := by
  have hhalf (k : Nat) (hk : k + 1 < format.componentSize) :
      halfWordAt data (address + k) = halfWordAt data' (address' + k) := by
    unfold halfWordAt
    rw [h k (by omega), Nat.add_assoc, Nat.add_assoc, h (k + 1) hk]
  -- each format reads the bytes that it has, the longer ones as half-words
  cases format with
  | none => rfl
  | int8 =>
    have hbyte : byteAt data address = byteAt data' address' :=
      h 0 Nat.zero_lt_one
    show Binary32.ofInt8 _ * _ = Binary32.ofInt8 _ * _
    rw [hbyte]
  | int16 =>
    have hlow : halfWordAt data address = halfWordAt data' address' :=
      hhalf 0 Nat.one_lt_two
    show Binary32.ofInt16 _ * _ = Binary32.ofInt16 _ * _
    rw [hlow]
  | float32 =>
    have hlow : halfWordAt data address = halfWordAt data' address' :=
      hhalf 0 (by decide)
    have hhigh := hhalf 2 (by decide)
    show Float32.ofBits (wordAt _ _) = Float32.ofBits (wordAt _ _)
    unfold wordAt
    rw [hlow, hhigh]

end PositionFormat

namespace VertexLayout

/-- The bytes of the position of vertex `i`. -/
def positionBytes (layout : VertexLayout) (format : PositionFormat)
    (data : Array UInt8) (i : Nat) : List UInt8 :=
  (List.range format.size).map fun b =>
    PositionFormat.byteAt data (layout.address format i 0 + b)

/-- A copy of a vertex has its position. -/
theorem positionAt_congr {layout layout' : VertexLayout}
    {format : PositionFormat} {data data' : Array UInt8} {i i' : Nat}
    (h : layout.positionBytes format data i
      = layout'.positionBytes format data' i') (through : Bool) :
    layout.positionAt format through data i
      = layout'.positionAt format through data' i' := by
  have hbyte (b : Nat) (hb : b < format.size) :
      PositionFormat.byteAt data (layout.address format i 0 + b)
        = PositionFormat.byteAt data' (layout'.address format i' 0 + b) :=
    List.map_inj_left.1 h b (List.mem_range.2 hb)
  have hcomponent (j : Nat) (hj : j < 3) :
      format.componentAt through data (layout.address format i j)
        = format.componentAt through data' (layout'.address format i' j) := by
    refine format.componentAt_congr through fun b hb => ?_
    -- the bytes of a component are among those of the position
    have hsize : j * format.componentSize + b < format.size := by
      have hle := Nat.mul_le_mul_right format.componentSize
        (Nat.succ_le_of_lt hj)
      rw [Nat.succ_mul] at hle
      exact Nat.lt_of_lt_of_le (Nat.add_lt_add_left hb _) hle
    have h := hbyte _ hsize
    unfold address at h ⊢
    rw [Nat.zero_mul, Nat.add_zero, Nat.add_zero, ← Nat.add_assoc,
      ← Nat.add_assoc] at h
    exact h
  simp only [positionAt, hcomponent 0 (by decide), hcomponent 1 (by decide),
    hcomponent 2 (by decide)]

end VertexLayout

/-! ## Corners -/

namespace Topology

/-- Whether data has the corners of the triangles that `count` vertices of other
data make, written out one triangle after another. -/
def Expands (topology : Topology) (format : PositionFormat) (count : Nat)
    (layout : VertexLayout) (data : Array UInt8) (layout' : VertexLayout)
    (data' : Array UInt8) : Prop :=
  ∀ k < topology.triangleCount count,
    (list.triangle k).map (layout'.positionBytes format data')
      = (topology.triangle k).map (layout.positionBytes format data)

/-- The number of triangles of a strip or a fan. -/
theorem triangleCount_of_ne_list {topology : Topology} (h : topology ≠ list)
    (count : Nat) : topology.triangleCount count = count - 2 := by
  cases topology with
  | list => exact absurd rfl h
  | strip | fan => rfl

/-- The triangles of a strip or a fan, written out, are as many. -/
theorem triangleCount_expanded {topology : Topology} (h : topology ≠ list)
    (count : Nat) :
    list.triangleCount (3 * (count - 2)) = topology.triangleCount count := by
  rw [triangleCount_of_ne_list h]
  exact Nat.mul_div_cancel_left _ (by decide)

theorem triangle_mem_triangles {topology : Topology} {count k : Nat}
    (hk : k < topology.triangleCount count) :
    topology.triangle k ∈ topology.triangles (topology.triangleCount count) := by
  rw [triangles_eq]
  exact List.mem_map_of_mem (List.mem_range.2 hk)

/-- The vertices of a list of triangles are their corners. -/
theorem exists_mem_triangle_list {count i : Nat} (hi : i < 3 * count) :
    ∃ k < count, i ∈ (list.triangle k).toList := by
  refine ⟨i / 3, by omega, ?_⟩
  simp only [triangle, Triple.toList, List.mem_cons, List.not_mem_nil, or_false]
  omega

/-- **Every vertex is a corner**: of a strip or a fan with a triangle, no vertex is
left over. -/
theorem exists_mem_triangle {topology : Topology} (h : topology ≠ list)
    {count i : Nat} (hcount : 3 ≤ count) (hi : i < count) :
    ∃ k < topology.triangleCount count, i ∈ (topology.triangle k).toList := by
  rw [triangleCount_of_ne_list h]
  cases topology with
  | list => exact absurd rfl h
  | strip =>
    -- a vertex begins a triangle, except for the last two
    by_cases hlast : i < count - 2
    · refine ⟨i, hlast, ?_⟩
      rcases Nat.mod_two_eq_zero_or_one i with heven | hodd
      · simp [triangle, heven, Triple.toList]
      · simp [triangle, hodd, Triple.toList]
    · refine ⟨count - 3, by omega, ?_⟩
      have hcorner : i = count - 3 + 1 ∨ i = count - 3 + 2 := by omega
      rcases Nat.mod_two_eq_zero_or_one (count - 3) with heven | hodd
      · rcases hcorner with hi | hi <;> simp [triangle, heven, Triple.toList, hi]
      · rcases hcorner with hi | hi <;> simp [triangle, hodd, Triple.toList, hi]
  | fan =>
    by_cases hfirst : i = 0
    · subst hfirst
      exact ⟨0, by omega, List.mem_cons_self⟩
    · by_cases hlast : i = count - 1
      · refine ⟨count - 3, by omega, ?_⟩
        have hcorner : i = count - 3 + 2 := by omega
        simp [triangle, Triple.toList, hcorner]
      · refine ⟨i - 1, by omega, ?_⟩
        have hcorner : i = i - 1 + 1 := by omega
        simp [triangle, Triple.toList, ← hcorner]

end Topology

/-! ## Writing out -/

/-- The item at a place of blocks of one length. -/
theorem getElem?_flatMap_of_length {α β : Type} {f : α → List β} {n : Nat}
    (hf : ∀ a, (f a).length = n) (l : List α) (i : Nat) {b : Nat} (hb : b < n) :
    (l.flatMap f)[i * n + b]? = l[i]?.bind fun a => (f a)[b]? := by
  induction l generalizing i with
  | nil => rfl
  | cons a l ih =>
    rw [List.flatMap_cons]
    -- the place is in the first block, or the first block is dropped
    cases i with
    | zero =>
      rw [Nat.zero_mul, Nat.zero_add,
        List.getElem?_append_left ((hf a).symm ▸ hb)]
      rfl
    | succ i =>
      have hplace : (i + 1) * n + b - (f a).length = i * n + b := by
        rw [hf, Nat.succ_mul]
        omega
      rw [List.getElem?_append_right (by rw [hf, Nat.succ_mul]; omega), hplace,
        ih]
      rfl

namespace VertexLayout

variable (layout : VertexLayout) (format : PositionFormat) (data : Array UInt8)

theorem length_positionBytes (i : Nat) :
    (layout.positionBytes format data i).length = format.size := by
  rw [positionBytes, List.length_map, List.length_range]

/-- The positions of some vertices, one after another and without gaps. -/
def gather (vertices : List Nat) : Array UInt8 :=
  (vertices.flatMap (layout.positionBytes format data)).toArray

theorem size_gather (vertices : List Nat) :
    (layout.gather format data vertices).size
      = vertices.length * format.size := by
  unfold gather
  rw [List.size_toArray]
  induction vertices with
  | nil => exact (Nat.zero_mul _).symm
  | cons i vertices ih =>
    rw [List.flatMap_cons, List.length_append, ih, length_positionBytes,
      List.length_cons, Nat.succ_mul, Nat.add_comm]

/-- Vertices that were gathered have the positions that they had. -/
theorem positionBytes_gather {vertices : List Nat} {k i : Nat}
    (h : vertices[k]? = some i) :
    (packed format).positionBytes format (layout.gather format data vertices) k
      = layout.positionBytes format data i := by
  refine List.ext_getElem? fun b => ?_
  -- within a position it is the gathered byte, after it there is none
  by_cases hb : b < format.size
  · have hbytes := getElem?_flatMap_of_length
      (layout.length_positionBytes format data) vertices k hb
    rw [h, Option.bind_some] at hbytes
    have haddress : (packed format).address format k 0 + b
        = k * format.size + b := by
      unfold address packed
      rw [Nat.zero_mul]
      rfl
    rw [positionBytes, List.getElem?_map, List.getElem?_range hb,
      Option.map_some, haddress, PositionFormat.byteAt, gather,
      Array.getD_eq_getD_getElem?, List.getElem?_toArray, hbytes, positionBytes,
      List.getElem?_map, List.getElem?_range hb]
    rfl
  · rw [List.getElem?_eq_none, List.getElem?_eq_none]
    · rw [length_positionBytes]
      exact Nat.not_lt.1 hb
    · rw [length_positionBytes]
      exact Nat.not_lt.1 hb

end VertexLayout

namespace Topology

/-- The corners of the triangles that a number of vertices make, one triangle after
another. -/
def corners (topology : Topology) (count : Nat) : List Nat :=
  (List.range (topology.triangleCount count)).flatMap
    fun k => (topology.triangle k).toList

theorem length_corners (topology : Topology) (count : Nat) :
    (topology.corners count).length = 3 * topology.triangleCount count := by
  unfold corners
  generalize topology.triangleCount count = n
  induction n with
  | zero => rfl
  | succ n ih =>
    rw [List.range_succ, List.flatMap_append, List.length_append, ih]
    rfl

/-- Every second triangle of a strip has its last two corners exchanged. -/
example : strip.corners 5 = [0, 2, 1, 1, 2, 3, 2, 4, 3] := by decide

/-- **Triangles can always be written out**, by gathering their corners. -/
theorem expands_gather (topology : Topology) (format : PositionFormat)
    (count : Nat) (layout : VertexLayout) (data : Array UInt8) :
    topology.Expands format count layout data (.packed format)
      (layout.gather format data (topology.corners count)) := by
  intro k hk
  -- corner `c` of triangle `k` is copied to place `3 * k + c`
  have hcorner (c : Nat) (hc : c < 3) :
      (topology.corners count)[3 * k + c]? = (topology.triangle k).toList[c]? := by
    have hplace := getElem?_flatMap_of_length (n := 3)
      (fun k => rfl : ∀ k, (topology.triangle k).toList.length = 3)
      (List.range (topology.triangleCount count)) k hc
    rw [List.getElem?_range hk, Option.bind_some, Nat.mul_comm] at hplace
    exact hplace
  have hfirst := layout.positionBytes_gather format data (hcorner 0 (by decide))
  have hsecond := layout.positionBytes_gather format data (hcorner 1 (by decide))
  have hthird := layout.positionBytes_gather format data (hcorner 2 (by decide))
  show Triple.mk _ _ _ = Triple.mk _ _ _
  exact congr (congrArg₂ Triple.mk hfirst hsecond) hthird

end Topology

/-! ## Drawing without sharing -/

namespace Draw

/-- A draw of the triangles of another one, written out. -/
def expanded (draw : Draw) : Draw :=
  { draw with
    primitive := .triangles
    vertices := 3 * (draw.vertices - 2) }

variable {draw : Draw} {topology : Topology} {layout layout' : VertexLayout}
  {data data' : Array UInt8}

/-- Triangles that are written out are all there. -/
theorem neededBytes_gather (hshared : topology ≠ .list)
    (hcount : 3 ≤ draw.vertices) (layout : VertexLayout) (data : Array UInt8) :
    draw.expanded.neededBytes (.packed draw.type.position)
      ≤ (layout.gather draw.type.position data
          (topology.corners draw.vertices)).size := by
  -- there is a last vertex, so nothing is lost by the subtraction
  have hvertices : draw.expanded.vertices - 1 + 1
      = 3 * topology.triangleCount draw.vertices := by
    rw [Topology.triangleCount_of_ne_list hshared]
    show 3 * (draw.vertices - 2) - 1 + 1 = _
    omega
  calc
    _ ≤ (draw.expanded.vertices - 1) * draw.type.position.size + 0
          + draw.type.position.size := min_le_left ..
    _ = (draw.expanded.vertices - 1 + 1) * draw.type.position.size := by
      rw [Nat.add_zero, Nat.succ_mul]
    _ = _ := by
      rw [hvertices, VertexLayout.size_gather, Topology.length_corners]

section Corners

variable (hshared : topology ≠ .list)
  (hcopies : topology.Expands draw.type.position draw.vertices layout data
    layout' data')

include hcopies in
/-- The corners of the triangles, shared or not, agree in everything that depends
on their positions. -/
theorem map_expanded {α : Type} {g g' : Nat → α} (f : Vec3 → α)
    (hg : ∀ i, g i = f
      (layout.positionAt draw.type.position draw.type.through data i))
    (hg' : ∀ i, g' i = f
      (layout'.positionAt draw.type.position draw.type.through data' i))
    {k : Nat} (hk : k < topology.triangleCount draw.vertices) :
    (Topology.list.triangle k).map g' = (topology.triangle k).map g :=
  Triple.map_eq_map (hcopies k hk) fun i i' hbytes => by
    rw [hg, hg', VertexLayout.positionAt_congr hbytes]

include hshared hcopies in
/-- **The same triangles are painted.** -/
theorem paint_expanded (r : Rasterizer) (scissor : Region) (test : DepthTest)
    (state : RenderState) (s : Surface) :
    paint r scissor test (.triangles .list)
        (draw.expanded.vertexAt layout' state data') draw.expanded.vertices s
      = paint r scissor test (.triangles topology)
        (draw.vertexAt layout state data) draw.vertices s := by
  show (Topology.list.triangles (Topology.list.triangleCount
      (3 * (draw.vertices - 2)))).foldl _ _
    = (topology.triangles (topology.triangleCount draw.vertices)).foldl _ _
  rw [Topology.triangleCount_expanded hshared, Topology.triangles_eq,
    Topology.triangles_eq, List.foldl_map, List.foldl_map]
  refine List.foldl_ext _ _ _ fun progress k hk => ?_
  -- a vertex is what the state makes of its position
  have hvertices : (Topology.list.triangle k).map
        (draw.expanded.vertexAt layout' state data')
      = (topology.triangle k).map (draw.vertexAt layout state data) :=
    map_expanded hcopies
      (fun position =>
        if draw.type.through then ScreenVertex.ofPosition position
        else state.camera.project position)
      (fun _ => rfl) (fun _ => rfl) (List.mem_range.1 hk)
  unfold paintTriangle
  rw [hvertices]

include hshared hcopies in
/-- A vertex is in front of the camera if and only if a copy is. -/
theorem exists_clipW_expanded (camera : Camera) (hcount : 3 ≤ draw.vertices) :
    (∃ i < draw.expanded.vertices,
        0 < draw.expanded.clipW layout' camera data' i)
      ↔ ∃ i < draw.vertices, 0 < draw.clipW layout camera data i := by
  have hclips {k : Nat} (hk : k < topology.triangleCount draw.vertices) :
      (Topology.list.triangle k).map (draw.expanded.clipW layout' camera data')
        = (topology.triangle k).map (draw.clipW layout camera data) :=
    map_expanded hcopies (fun position => (camera.clipPosition position).w)
      (fun _ => rfl) (fun _ => rfl) hk
  have hcopied : draw.expanded.vertices
      = 3 * topology.triangleCount draw.vertices := by
    rw [Topology.triangleCount_of_ne_list hshared]
    rfl
  constructor
  · rintro ⟨i, hi, hfront⟩
    -- a copy is a corner of the triangle that it is copied for
    rw [hcopied] at hi
    obtain ⟨k, hk, hcorner⟩ := Topology.exists_mem_triangle_list hi
    obtain ⟨j, hj, hclip⟩ :=
      Triple.exists_mem_of_map_eq_map (hclips hk) hcorner
    rw [← hclip] at hfront
    exact ⟨j, Topology.mem_toList_lt (Topology.triangle_mem_triangles hk) hj,
      hfront⟩
  · rintro ⟨i, hi, hfront⟩
    -- of three vertices or more each is a corner, and so copied
    obtain ⟨k, hk, hcorner⟩ :=
      Topology.exists_mem_triangle hshared hcount hi
    obtain ⟨j, hj, hclip⟩ :=
      Triple.exists_mem_of_map_eq_map (hclips hk).symm hcorner
    rw [← hclip] at hfront
    have hlist : k < Topology.list.triangleCount draw.expanded.vertices := by
      rw [expanded, Topology.triangleCount_expanded hshared]
      exact hk
    exact ⟨j, Topology.mem_toList_lt (Topology.triangle_mem_triangles hlist) hj,
      hfront⟩

end Corners

section Run

variable (hassembly : draw.primitive.assembly? = some (.triangles topology))
  (hshared : topology ≠ .list) (hcount : 3 ≤ draw.vertices)
  (hcopies : topology.Expands draw.type.position draw.vertices layout data
    layout' data')

include hassembly in
/-- Nothing that can be checked without the vertices tells the draws apart. -/
theorem skipReason?_expanded (registers : DepthRegisters) :
    draw.expanded.skipReason? registers = draw.skipReason? registers := by
  have hcovers : draw.primitive.CoversArea :=
    Primitive.coversArea_of_assembly? hassembly
  have hcopies : draw.expanded.primitive.CoversArea := .inl rfl
  unfold skipReason?
  rw [if_neg (not_not_intro hcovers), if_neg (not_not_intro hcopies)]
  rfl

/-- With enough room and data no draw is refused. -/
theorem fate_of_room_of_data {draw : Draw} {layout : VertexLayout}
    {data : Array UInt8} {capacity : Nat} (state : RenderState)
    (hroom : draw.vertices ≤ capacity)
    (hdata : draw.neededBytes layout ≤ data.size) :
    draw.fate layout state data capacity
      = match draw.skipReason? state.registers with
        | some reason => .skipped reason
        | none =>
          if ¬ draw.type.through
              ∧ ¬ ∃ i < draw.vertices,
                0 < draw.clipW layout state.camera data i then
            .skipped .allBehindCamera
          else .drawn := by
  unfold fate
  cases draw.skipReason? state.registers with
  | some reason => rfl
  | none =>
    dsimp only
    rw [if_neg (Nat.not_lt.2 hroom), if_neg fun h => Nat.not_lt.2 hdata h.2]

include hassembly hshared hcount hcopies in
/-- **The same becomes of the draws**, if there is enough room and data for both
of them. -/
theorem fate_expanded (state : RenderState) {capacity capacity' : Nat}
    (hroom : draw.vertices ≤ capacity)
    (hroom' : draw.expanded.vertices ≤ capacity')
    (hdata : draw.neededBytes layout ≤ data.size)
    (hdata' : draw.expanded.neededBytes layout' ≤ data'.size) :
    draw.expanded.fate layout' state data' capacity'
      = draw.fate layout state data capacity := by
  have hfront := exists_clipW_expanded hshared hcopies state.camera hcount
  rw [fate_of_room_of_data state hroom hdata,
    fate_of_room_of_data state hroom' hdata', skipReason?_expanded hassembly]
  cases draw.skipReason? state.registers with
  | some reason => rfl
  | none => exact if_congr (and_congr Iff.rfl (not_congr hfront)) rfl rfl

/-- What a check that succeeds has found. -/
theorem eq_of_check_eq_ok {draw : Draw} {registers : DepthRegisters}
    {test : DepthTest} {assembly : Assembly}
    (h : draw.check registers = .ok (test, assembly)) :
    registers.effectiveTest = .ok test
      ∧ draw.primitive.assembly? = some assembly := by
  unfold check at h
  cases htest : registers.effectiveTest with
  | error gate =>
    rw [htest] at h
    cases h
  | ok found =>
    cases hfound : draw.primitive.assembly? with
    | none =>
      rw [htest, hfound] at h
      cases h
    | some assembly' =>
      rw [htest, hfound] at h
      dsimp only at h
      -- what is left of the checks only turns draws down
      split at h
      · cases h
      · split at h
        · cases h
        · split at h <;> cases h
          exact ⟨rfl, rfl⟩

/-- A draw that is skipped leaves the surface as it is, and says why. -/
theorem run_of_fate_skipped {draw : Draw} {layout : VertexLayout}
    {state : RenderState} {data : Array UInt8} {reason : SkipReason}
    (r : Rasterizer) (scissor : Region) (scratch : Scratch) (s : Surface)
    (h : draw.fate layout state data scratch.capacity = .skipped reason) :
    ∃ own, draw.run r scissor layout state data scratch s
      = draw.skip reason s own := by
  rcases run_cases r scissor draw layout state data scratch s with
    ⟨found, own, hfate, hrun⟩ | ⟨error, hfate, -⟩ | ⟨hfate, -⟩
  · rw [h] at hfate
    cases hfate
    exact ⟨own, hrun⟩
  · rw [h] at hfate
    cases hfate
  · rw [h] at hfate
    cases hfate

/-- **A strip or a fan is drawn like the same triangles written out**: with the
same outcome and its statistics, on the same surface, and counted alike. This is
so whatever the state is, whether positions are screen coordinates or not, and
whichever vertices are behind the camera. -/
theorem run_expanded
    (hassembly : draw.primitive.assembly? = some (.triangles topology))
    (hshared : topology ≠ .list) (hcount : 3 ≤ draw.vertices)
    (hcopies : topology.Expands draw.type.position draw.vertices layout data
      layout' data')
    (r : Rasterizer) (scissor : Region) (state : RenderState)
    (scratch scratch' : Scratch) (s : Surface)
    (hroom : draw.vertices ≤ scratch.capacity)
    (hroom' : draw.expanded.vertices ≤ scratch'.capacity)
    (hdata : draw.neededBytes layout ≤ data.size)
    (hdata' : draw.expanded.neededBytes layout' ≤ data'.size) :
    let result := draw.run r scissor layout state data scratch s
    let copied := draw.expanded.run r scissor layout' state data' scratch' s
    copied.outcome = result.outcome ∧ copied.surface = result.surface
      ∧ copied.work = result.work := by
  intro result copied
  have hfate := fate_expanded hassembly hshared hcount hcopies state hroom
    hroom' hdata hdata'
  cases horiginal : draw.fate layout state data scratch.capacity with
  | drawn =>
    -- drawn: both have passed the same checks, and paint the same triangles
    obtain ⟨test, assembly, hcheck, hsurface, hwork, houtcome⟩ :=
      run_of_fate_drawn r scissor draw layout state data s horiginal
    obtain ⟨test', assembly', hcheck', hsurface', hwork', houtcome'⟩ :=
      run_of_fate_drawn r scissor draw.expanded layout' state data' s
        (hfate.trans horiginal)
    obtain ⟨htest, hfound⟩ := eq_of_check_eq_ok hcheck
    obtain ⟨htest', hfound'⟩ := eq_of_check_eq_ok hcheck'
    rw [htest] at htest'
    rw [hassembly] at hfound
    cases htest'
    cases hfound
    cases hfound'
    have hpaint := paint_expanded hshared hcopies r scissor test state s
    rw [hpaint] at hsurface' hwork' houtcome'
    exact ⟨houtcome'.trans houtcome.symm, hsurface'.trans hsurface.symm,
      hwork'.trans hwork.symm⟩
  | skipped reason =>
    -- skipped: for the same reason, which counts the same
    obtain ⟨own, hrun⟩ := run_of_fate_skipped r scissor scratch s horiginal
    obtain ⟨own', hrun'⟩ := run_of_fate_skipped r scissor scratch' s
      (hfate.trans horiginal)
    have hresult : result = draw.skip reason s own := hrun
    have hcopied : copied = draw.expanded.skip reason s own' := hrun'
    rw [hresult, hcopied]
    exact ⟨rfl, rfl, rfl⟩
  | refused error =>
    -- refused: there is room and there is data, so it cannot be
    rw [fate_of_room_of_data state hroom hdata] at horiginal
    split at horiginal
    · cases horiginal
    · split at horiginal <;> cases horiginal

end Run

/-- A strip of five vertices in perspective, the last of them behind the camera,
which leaves two triangles to be painted and one to be left out. -/
theorem run_expanded_perspective :
    let draw : Draw := ⟨.triangleStrip, 5, { position := .int8 }, .clockwise⟩
    let layout : VertexLayout := .packed .int8
    let data : Array UInt8 :=
      #[0, 0, 64, 32, 0, 64, 0, 32, 64, 32, 32, 64, 32, 64, 192]
    let data' := layout.gather .int8 data (Topology.strip.corners 5)
    let camera : Camera :=
      { projection := ⟨⟨1, 0, 0, 0⟩, ⟨0, 1, 0, 0⟩, ⟨0, 0, 1, 1⟩, ⟨0, 0, 0, 0⟩⟩
        viewport := ⟨.zero, ⟨8, 8, 5⟩⟩ }
    let state : RenderState := ⟨{ test := .less }, camera⟩
    let scratch : Scratch := .ofCapacity 9
    let s : Surface := .blank 8 8
    let result := draw.run .standard s.bounds layout state data scratch s
    let copied :=
      draw.expanded.run .standard s.bounds layout state data' scratch s
    draw.primitive.assembly? = some (.triangles .strip)
      ∧ Topology.strip ≠ .list ∧ 3 ≤ draw.vertices
      ∧ Topology.strip.Expands .int8 5 layout data layout data'
      ∧ draw.vertices ≤ scratch.capacity
      ∧ draw.expanded.vertices ≤ scratch.capacity
      ∧ draw.neededBytes layout ≤ data.size
      ∧ draw.expanded.neededBytes layout ≤ data'.size
      ∧ result.outcome = .ok (.drawn
        { triangles := 2, trianglesBehind := 1, pixelsWritten := 25 })
      ∧ copied.outcome = result.outcome ∧ copied.surface = result.surface
      ∧ copied.work = result.work := by
  intro draw layout data data' camera state scratch s result copied
  have hassembly : draw.primitive.assembly? = some (.triangles .strip) := rfl
  have hshared : Topology.strip ≠ .list := by decide
  have hcount : 3 ≤ draw.vertices := by decide
  have hcopies : Topology.strip.Expands .int8 5 layout data layout data' :=
    Topology.expands_gather .strip .int8 5 layout data
  have hroom : draw.vertices ≤ scratch.capacity := by decide
  have hroom' : draw.expanded.vertices ≤ scratch.capacity := by decide
  have hdata : draw.neededBytes layout ≤ data.size := by decide
  have hdata' : draw.expanded.neededBytes layout ≤ data'.size :=
    neededBytes_gather hshared hcount layout data
  have houtcome : result.outcome = .ok (.drawn
      { triangles := 2, trianglesBehind := 1, pixelsWritten := 25 }) := by
    decide +kernel
  exact ⟨hassembly, hshared, hcount, hcopies, hroom, hroom', hdata, hdata',
    houtcome, run_expanded hassembly hshared hcount hcopies .standard s.bounds
      state scratch scratch s hroom hroom' hdata hdata'⟩

end Draw

end DepthPrepass
