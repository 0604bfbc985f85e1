import Mathlib.Data.List.Basic
import DepthPrepass.Proofs.Lanes
import DepthPrepass.Proofs.Pixels

/-!
# Which fragments a walk finds

A walk never computes an edge function anew: it carries the values from column
to column and from row to row, one column or four at a time. It stops at each
pixel, and what it finds there depends on the values it has by then. Since the
functions are linear, also where the words wrap, the carried values are those of
the functions at the pixel that has been reached.

* `Walk.stops`: the stops of a walk, with the values carried to each.
* `Walk.fragments_eq_stops`: the fragments of a walk, stop by stop.
* `Walk.scalarStops_valuesAt`, `Walk.quadStops_spread`: the stops of a row,
  column by column.
* `Walk.stops_eq`: the stops of a walk on a surface.
* `Walk.fragments_mode`: both ways to walk find the same fragments.
* `Walk.fragments_eq`: the fragments of a walk, pixel by pixel.
-/

namespace DepthPrepass

/-- The values added up, in order. -/
def Triple.sum {α : Type} [Add α] (t : Triple α) : α :=
  t.first + t.second + t.third

/-- Triples with the same values are the same. -/
theorem Triple.ext_values {α : Type} {t u : Triple α}
    (h₁ : t.first = u.first) (h₂ : t.second = u.second)
    (h₃ : t.third = u.third) : t = u :=
  congr (congr (congrArg Triple.mk h₁) h₂) h₃

/-- The pixel of a fragment. -/
def Fragment.pixel (f : Fragment) : Nat × Nat :=
  (f.x, f.y)

namespace Walk

/-- The edge values at a pixel, computed there. -/
def valuesAt (walk : Walk) (x y : Int32) : Triple Int32 :=
  walk.edges.map (·.eval x y)

/-- The fragment of the pixel `(x, y)`, where the edges have the values `w`, if
the pixel is inside. -/
def fragmentOf? (walk : Walk) (x y : Nat) (w : Triple Int32) :
    Option Fragment :=
  if inside w then some ⟨x, y, walk.depthAt w⟩ else none

variable (walk : Walk)

/-! ## Carried values -/

theorem valuesAt_nextColumn (x y : Int32) :
    walk.valuesAt (x + 1) y = walk.valuesAt x y + walk.across := by
  have step (e : Edge) : e.eval (x + 1) y = e.eval x y + e.a := by
    unfold Edge.eval
    grind
  exact Triple.ext_values (step _) (step _) (step _)

theorem valuesAt_nextRow (x y : Int32) :
    walk.valuesAt x (y + 1) = walk.valuesAt x y + walk.down := by
  have step (e : Edge) : e.eval x (y + 1) = e.eval x y + e.b := by
    unfold Edge.eval
    grind
  exact Triple.ext_values (step _) (step _) (step _)

/-- The lanes that a row starts with hold the values of its first columns. -/
theorem lane_spread (x y : Int32) (i : Fin 4) :
    (walk.spread (walk.valuesAt x y)).map (·.lane i)
      = walk.valuesAt (x + .ofNat i) y := by
  have hcolumn : (Quad.mk (0 : Int32) 1 2 3).lane i = .ofNat i := by
    match i with
    | 0 | 1 | 2 | 3 => rfl
  have start (e : Edge) :
      (Quad.splat (e.eval x y) + Quad.splat e.a * ⟨0, 1, 2, 3⟩).lane i
        = e.eval (x + .ofNat i) y := by
    rw [Quad.lane_add, Quad.lane_mul, Quad.lane_splat, Quad.lane_splat,
      hcolumn]
    unfold Edge.eval
    grind
  exact Triple.ext_values (start _) (start _) (start _)

/-- Four columns further on, the lanes hold the values of the next four. -/
theorem spread_nextQuad (x y : Int32) :
    walk.spread (walk.valuesAt x y) + walk.quadAcross
      = walk.spread (walk.valuesAt (x + 4) y) := by
  have step (e : Edge) :
      Quad.splat (e.eval x y) + Quad.splat e.a * ⟨0, 1, 2, 3⟩
          + Quad.splat (e.a * 4)
        = Quad.splat (e.eval (x + 4) y) + Quad.splat e.a * ⟨0, 1, 2, 3⟩ := by
    refine Quad.ext_lane fun i => ?_
    simp only [Quad.lane_add, Quad.lane_mul, Quad.lane_splat, Edge.eval]
    grind
  exact Triple.ext_values (step _) (step _) (step _)

/-! ## Stops -/

/-- What a walk has at a pixel: where the pixel is, and the edge values that have
been carried there. -/
structure Stop where
  x : Nat
  y : Nat
  values : Triple Int32
deriving DecidableEq, Repr

/-- The stops at `count` columns of row `y` from column `x` on, walked one by
one. -/
def scalarStops (y : Nat) :
    (x count : Nat) → (w : Triple Int32) → List Stop
  | _, 0, _ => []
  | x, count + 1, w =>
    ⟨x, y, w⟩ :: scalarStops y (x + 1) count (w + walk.across)

/-- The stops of four lanes. -/
def laneStops (y x : Nat) (e : Triple (Quad Int32)) : List Stop :=
  Quad.lanes.map fun i : Fin 4 => ⟨x + i, y, e.map (·.lane i)⟩

/-- The stops at `count` columns of row `y` from column `x` on, walked four by
four. -/
def quadStops (y : Nat) :
    (x count : Nat) → (e : Triple (Quad Int32)) → List Stop
  | x, count + 4, e =>
    laneStops y x e ++ quadStops y (x + 4) count (e + walk.quadAcross)
  | x, count, e => walk.scalarStops y x count (e.map (·.lane₀))

/-- The stops in a row span. -/
def rowStops (mode : LaneMode) (w : Triple Int32) (span : RowSpan) :
    List Stop :=
  if mode.isWide then
    walk.quadStops span.row span.first span.length (walk.spread w)
  else walk.scalarStops span.row span.first span.length w

/-- The stops in successive row spans. -/
def rowsStops (mode : LaneMode) :
    (spans : List RowSpan) → (w : Triple Int32) → List Stop
  | [], _ => []
  | span :: spans, w =>
    walk.rowStops mode w span ++ rowsStops mode spans (w + walk.down)

/-- The stops of a walk, in order. -/
def stops (mode : LaneMode) : List Stop :=
  walk.rowsStops mode walk.region.rowSpans walk.origin

/-- The fragment that is found at a stop, if there is one. -/
def fragmentAtStop? (stop : Stop) : Option Fragment :=
  walk.fragmentOf? stop.x stop.y stop.values

/-! ## What is found at the stops -/

theorem scalarRow_eq_stops (y x count : Nat) (w : Triple Int32) :
    walk.scalarRow y x count w
      = (walk.scalarStops y x count w).filterMap walk.fragmentAtStop? := by
  induction count generalizing x w with
  | zero => rfl
  | succ count ih =>
    rw [scalarRow, scalarStops, List.filterMap_cons, ← ih, fragmentAtStop?,
      fragmentOf?]
    split <;> rfl

/-- In four lanes the walk finds what the values in each of them say, whatever
values those are. -/
theorem quadFragments_eq_stops (y x : Nat) (e : Triple (Quad Int32)) :
    walk.quadFragments y x e
      = (laneStops y x e).filterMap walk.fragmentAtStop? := by
  have hdepth (i : Fin 4) :
      (walk.quadDepth e).lane i = walk.depthAt (e.map (·.lane i)) := by
    simp only [quadDepth, Quad.lane_addFloat, Quad.lane_mulFloat,
      Quad.lane_toFloat32, Quad.lane_splat]
    rfl
  -- the bit of a lane says whether the values of this lane are inside
  have hlane (i : Fin 4) :
      (if insideMask e &&& ((1 : UInt32) <<< i.val.toUInt32) ≠ 0 then
        some ⟨x + i.val, y, (walk.quadDepth e).lane i⟩ else none)
      = walk.fragmentOf? (x + i) y (e.map (·.lane i)) := by
    rw [hdepth, fragmentOf?]
    exact if_congr (insideMask_and_ne_zero e i) rfl rfl
  have hall : (Quad.lanes.filterMap fun lane =>
        if insideMask e &&& ((1 : UInt32) <<< lane.val.toUInt32) ≠ 0 then
          some ⟨x + lane.val, y, (walk.quadDepth e).lane lane⟩ else none)
      = (laneStops y x e).filterMap walk.fragmentAtStop? := by
    rw [laneStops, List.filterMap_map]
    exact List.filterMap_congr fun i _ => hlane i
  show (if insideMask e = 0 then [] else _) = _
  split
  · -- no lane is inside, so the lanes would not have given anything either
    next h =>
    rw [← hall]
    refine (List.filterMap_eq_nil_iff.2 fun lane _ => ?_).symm
    rw [h, UInt32.zero_and, if_neg (by decide)]
  · exact hall

theorem quadRow_eq_stops (y x count : Nat) (e : Triple (Quad Int32)) :
    walk.quadRow y x count e
      = (walk.quadStops y x count e).filterMap walk.fragmentAtStop? := by
  fun_induction walk.quadRow y x count e with
  | case1 x count e ih =>
    rw [quadStops, List.filterMap_append, ← ih, quadFragments_eq_stops]
  | case2 x count e hcount =>
    rw [scalarRow_eq_stops, quadStops]
    exact hcount

theorem row_eq_stops (mode : LaneMode) (w : Triple Int32) (span : RowSpan) :
    walk.row mode w span
      = (walk.rowStops mode w span).filterMap walk.fragmentAtStop? := by
  unfold row rowStops
  split
  · exact quadRow_eq_stops ..
  · exact scalarRow_eq_stops ..

theorem rows_eq_stops (mode : LaneMode) (spans : List RowSpan)
    (w : Triple Int32) :
    walk.rows mode spans w
      = (walk.rowsStops mode spans w).filterMap walk.fragmentAtStop? := by
  induction spans generalizing w with
  | nil => rfl
  | cons span spans ih =>
    rw [rows, rowsStops, List.filterMap_append, row_eq_stops, ih]

/-- **Stop by stop**: a walk finds the fragments of its stops, in their order. -/
theorem fragments_eq_stops (mode : LaneMode) :
    walk.fragments mode
      = (walk.stops mode).filterMap walk.fragmentAtStop? :=
  walk.rows_eq_stops mode ..

/-! ## Rows -/

/-- A row walked one by one stops at its columns. -/
theorem scalarStops_valuesAt (y x count : Nat) (u v : Int32) :
    walk.scalarStops y x count (walk.valuesAt u v)
      = (List.range count).map fun k =>
          ⟨x + k, y, walk.valuesAt (u + .ofNat k) v⟩ := by
  -- the column moves on together with its word, which may wrap
  induction count generalizing x u with
  | zero => rfl
  | succ count ih =>
    have hfirst : u + Int32.ofNat 0 = u := Int32.add_zero u
    have hshift (k : Nat) : u + 1 + Int32.ofNat k = u + .ofNat (k + 1) := by
      rw [Int32.ofNat_add]
      grind
    rw [scalarStops, ← valuesAt_nextColumn, ih, List.range_succ_eq_map,
      List.map_cons, List.map_map, hfirst]
    refine congrArg _ (List.map_congr_left fun k _ => ?_)
    rw [hshift, Nat.add_assoc, Nat.add_comm 1]
    rfl

/-- Four lanes stop at their columns. -/
theorem laneStops_spread (y x : Nat) (u v : Int32) :
    laneStops y x (walk.spread (walk.valuesAt u v))
      = (List.range 4).map fun k =>
          ⟨x + k, y, walk.valuesAt (u + .ofNat k) v⟩ := by
  unfold laneStops
  simp only [lane_spread]
  rfl

/-- **A row walked four by four** has the same stops, whatever the number of
columns that are left over. -/
theorem quadStops_spread (y x count : Nat) (u v : Int32) :
    walk.quadStops y x count (walk.spread (walk.valuesAt u v))
      = walk.scalarStops y x count (walk.valuesAt u v) := by
  generalize he : walk.spread (walk.valuesAt u v) = e
  fun_induction walk.quadStops y x count e generalizing u with
  -- the lanes hold four columns, and the rest starts from the next four
  | case1 x count e ih =>
    subst he
    have hrest := ih (u + 4) (walk.spread_nextQuad u v).symm
    have hcount : count.succ.succ.succ.succ = 4 + count :=
      Nat.add_comm count 4
    rw [hrest, laneStops_spread, scalarStops_valuesAt, scalarStops_valuesAt,
      hcount, List.range_add, List.map_append, List.map_map]
    refine congrArg _ (List.map_congr_left fun k _ => ?_)
    have hshift : u + 4 + Int32.ofNat k = u + .ofNat (4 + k) := by
      rw [Int32.ofNat_add, ← Int32.add_assoc]
      rfl
    rw [hshift, Nat.add_assoc]
    rfl
  -- the columns that are left over start from lane 0
  | case2 x count e _ =>
    subst he
    have hfirst : u + Int32.ofNat (0 : Fin 4) = u := Int32.add_zero u
    have htail := walk.lane_spread u v 0
    rw [hfirst] at htail
    show walk.scalarStops y x count
      ((walk.spread (walk.valuesAt u v)).map (·.lane 0)) = _
    rw [htail]

/-- The stops in a row do not depend on how it is walked. -/
theorem rowStops_valuesAt (mode : LaneMode) (span : RowSpan) (u v : Int32) :
    walk.rowStops mode (walk.valuesAt u v) span
      = walk.scalarStops span.row span.first span.length
          (walk.valuesAt u v) := by
  cases mode with
  | scalar => rfl
  | wide => exact quadStops_spread ..

/-! ## All rows -/

theorem rowsStops_mode (mode : LaneMode) (spans : List RowSpan)
    (u v : Int32) :
    walk.rowsStops mode spans (walk.valuesAt u v)
      = walk.rowsStops .scalar spans (walk.valuesAt u v) := by
  induction spans generalizing v with
  | nil => rfl
  | cons span spans ih =>
    rw [rowsStops, rowsStops, rowStops_valuesAt, rowStops_valuesAt,
      ← valuesAt_nextRow, ih]

/-- **Lane modes do not show**: a walk finds the same fragments in the same
order, one column at a time or four. -/
theorem fragments_mode (mode : LaneMode) :
    walk.fragments mode = walk.fragments .scalar := by
  have hstops : walk.stops mode = walk.stops .scalar :=
    walk.rowsStops_mode mode walk.region.rowSpans _ _
  rw [fragments_eq_stops, hstops, ← fragments_eq_stops]

/-- The stop at a pixel, with the values computed there. -/
def stopAt (p : Nat × Nat) : Stop :=
  ⟨p.1, p.2, walk.valuesAt (.ofNat p.1) (.ofNat p.2)⟩

/-- A row is walked pixel by pixel. -/
theorem rowStops_eq (mode : LaneMode) (span : RowSpan) :
    walk.rowStops mode
        (walk.valuesAt (.ofNat span.first) (.ofNat span.row)) span
      = span.pixels.map walk.stopAt := by
  rw [rowStops_valuesAt, scalarStops_valuesAt, RowSpan.pixels,
    List.range'_eq_map_range, List.map_map, List.map_map]
  refine List.map_congr_left fun k _ => ?_
  rw [← Int32.ofNat_add]
  rfl

/-- Successive rows are walked pixel by pixel. The values are carried from row
to row, so the rows must be successive. -/
theorem rowsStops_eq (mode : LaneMode) (first last y count : Nat) :
    walk.rowsStops mode
        ((List.range' y count).map fun y => ⟨y, first, last⟩)
        (walk.valuesAt (.ofNat first) (.ofNat y))
      = (((List.range' y count).map fun y =>
            RowSpan.mk y first last).flatMap RowSpan.pixels).map
          walk.stopAt := by
  induction count generalizing y with
  | zero => rfl
  | succ count ih =>
    have hnext : Int32.ofNat y + 1 = .ofNat (y + 1) :=
      (Int32.ofNat_add y 1).symm
    rw [List.range'_succ, List.map_cons, rowsStops, List.flatMap_cons,
      List.map_append, ← rowStops_eq walk mode, ← ih (y + 1),
      ← valuesAt_nextRow, hnext]

/-- **Where a walk stops**: a walk over a region on a surface stops at each
pixel of the region, in the order of the pixels, and the values it has carried
there are those of the edge functions. -/
theorem stops_eq (mode : LaneMode) {s : Surface} (h : walk.region.On s) :
    walk.stops mode = walk.region.pixels.map walk.stopAt := by
  have hleft : Int32.ofNat walk.region.left.toNatClampNeg
      = walk.region.left :=
    Int32.ofNat_toNatClampNeg _ (Int32.le_iff_toInt_le.2 h.left_nonneg)
  have htop : Int32.ofNat walk.region.top.toNatClampNeg = walk.region.top :=
    Int32.ofNat_toNatClampNeg _ (Int32.le_iff_toInt_le.2 h.top_nonneg)
  have hrows := walk.rowsStops_eq mode walk.region.left.toNatClampNeg
    walk.region.right.toNatClampNeg walk.region.top.toNatClampNeg
    walk.region.rows
  rw [hleft, htop] at hrows
  exact hrows

/-- The fragment of the pixel `(x, y)`, if the pixel is inside. -/
def fragmentAt? (x y : Nat) : Option Fragment :=
  walk.fragmentOf? x y (walk.valuesAt (.ofNat x) (.ofNat y))

/-- **Direct evaluation**: a walk over a region on a surface finds what the edge
functions say at each pixel of the region, in the order of the pixels. -/
theorem fragments_eq (mode : LaneMode) {s : Surface} (h : walk.region.On s) :
    walk.fragments mode
      = walk.region.pixels.filterMap fun p => walk.fragmentAt? p.1 p.2 := by
  rw [fragments_eq_stops, walk.stops_eq mode h, List.filterMap_map]
  rfl

/-- The pixels of a walk's fragments are those of its region that are inside. -/
theorem map_pixel_fragments (mode : LaneMode) {s : Surface}
    (h : walk.region.On s) :
    (walk.fragments mode).map Fragment.pixel
      = walk.region.pixels.filter fun p =>
          inside (walk.valuesAt (.ofNat p.1) (.ofNat p.2)) := by
  rw [walk.fragments_eq mode h, List.map_filterMap,
    ← List.filterMap_eq_filter]
  refine List.filterMap_congr fun p _ => ?_
  unfold fragmentAt? fragmentOf? Option.guard
  split <;> rfl

end Walk

end DepthPrepass
