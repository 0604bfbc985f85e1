import DepthPrepass.Proofs.Dyadic
import DepthPrepass.Proofs.Independence

/-!
# One position in several formats

A position of signed bytes is a fraction of their range. The same position can be
stored as half-words, which are fractions of a larger range, or as the numbers
that these fractions are; and as screen coordinates all three stand for
themselves. Nothing is rounded on any of these ways, so that draws from data in
different formats are the same draw, wherever in the data the positions are and
whatever else is stored around them.

* `HasBytes`: bytes at a place.
* `halfWordAt_of_hasBytes`, `wordAt_of_hasBytes`: reading back what was stored.
* `PositionFormat.encodeInt8`, `encodeInt16`: components in a format.
* `PositionFormat.Encodes`: what is read is a value that does not depend on the
  format.
* `VertexLayout.Holds`, `VertexLayout.holds_packed`: points in data.
* `Draw.agrees_run_inFormat`: draws from data of the same positions.
* `Draw.run_encoded`: the same positions in any two formats.
-/

namespace DepthPrepass

/-! ## Bytes in their places -/

/-- Whether data has some bytes at an address. -/
def HasBytes (data : Array UInt8) (address : Nat) (bytes : List UInt8) : Prop :=
  ∀ b < bytes.length, data[address + b]? = bytes[b]?

instance (data : Array UInt8) (address : Nat) (bytes : List UInt8) :
    Decidable (HasBytes data address bytes) :=
  inferInstanceAs (Decidable (∀ b < bytes.length, _))

section Bytes

variable {data : Array UInt8} {address : Nat} {bytes others : List UInt8}

theorem HasBytes.of_append (h : HasBytes data address (bytes ++ others)) :
    HasBytes data address bytes
      ∧ HasBytes data (address + bytes.length) others := by
  have hlength : (bytes ++ others).length = bytes.length + others.length :=
    List.length_append
  constructor
  · intro b hb
    rw [h b (by omega), List.getElem?_append_left hb]
  · intro b hb
    rw [Nat.add_assoc, h _ (by omega),
      List.getElem?_append_right (Nat.le_add_right ..), Nat.add_sub_cancel_left]

/-- Bytes that are there are within the data. -/
theorem HasBytes.le_size (h : HasBytes data address bytes)
    (hpos : 0 < bytes.length) : address + bytes.length ≤ data.size := by
  have hlast : bytes.length - 1 < bytes.length := by omega
  have hbyte := h _ hlast
  rw [List.getElem?_eq_getElem hlast] at hbyte
  obtain ⟨hlt, -⟩ := Array.getElem?_eq_some_iff.1 hbyte
  omega

theorem HasBytes.byteAt_eq {b : Nat} {byte : UInt8}
    (h : HasBytes data address bytes) (hbyte : bytes[b]? = some byte) :
    PositionFormat.byteAt data (address + b) = byte := by
  obtain ⟨hb, -⟩ := List.getElem?_eq_some_iff.1 hbyte
  rw [PositionFormat.byteAt, Array.getD_eq_getD_getElem?, h b hb, hbyte]
  rfl

end Bytes

/-! ## Words -/

/-- The bytes of a half-word, the low one first. -/
def halfWordBytes (v : UInt16) : List UInt8 :=
  [v.toUInt8, (v >>> 8).toUInt8]

/-- The bytes of a word, the low half first. -/
def wordBytes (v : UInt32) : List UInt8 :=
  halfWordBytes v.toUInt16 ++ halfWordBytes (v >>> 16).toUInt16

namespace PositionFormat

variable {data : Array UInt8} {address : Nat}

theorem or_shiftLeft_mod {low high k : Nat} (hlow : low < 2 ^ k)
    (hhigh : high < 2 ^ k) :
    low ||| high <<< k % 2 ^ (2 * k) = low + 2 ^ k * high := by
  have hlt : high <<< k < 2 ^ (2 * k) := by
    rw [Nat.shiftLeft_eq, Nat.two_mul, Nat.pow_add]
    exact Nat.mul_lt_mul_of_pos_right hhigh (Nat.two_pow_pos k)
  rw [Nat.mod_eq_of_lt hlt, Nat.or_comm, ← Nat.shiftLeft_add_eq_or_of_lt hlow,
    Nat.shiftLeft_eq, Nat.add_comm, Nat.mul_comm]

/-- The parts of a half-word do not overlap. -/
theorem toNat_halfWordAt (data : Array UInt8) (address : Nat) :
    (halfWordAt data address).toNat
      = (byteAt data address).toNat
        + 2 ^ 8 * (byteAt data (address + 1)).toNat := by
  unfold halfWordAt
  rw [UInt16.toNat_or, UInt16.toNat_shiftLeft, UInt8.toNat_toUInt16,
    UInt8.toNat_toUInt16]
  exact or_shiftLeft_mod (k := 8) (UInt8.toNat_lt _) (UInt8.toNat_lt _)

/-- Nor do the parts of a word. -/
theorem toNat_wordAt (data : Array UInt8) (address : Nat) :
    (wordAt data address).toNat
      = (halfWordAt data address).toNat
        + 2 ^ 16 * (halfWordAt data (address + 2)).toNat := by
  unfold wordAt
  rw [UInt32.toNat_or, UInt32.toNat_shiftLeft, UInt16.toNat_toUInt32,
    UInt16.toNat_toUInt32]
  exact or_shiftLeft_mod (k := 16) (UInt16.toNat_lt _) (UInt16.toNat_lt _)

/-- A half-word is read as it was stored. -/
theorem halfWordAt_of_hasBytes {v : UInt16}
    (h : HasBytes data address (halfWordBytes v)) :
    halfWordAt data address = v := by
  have hlow : byteAt data address = v.toUInt8 := h.byteAt_eq (b := 0) rfl
  have hhigh : byteAt data (address + 1) = (v >>> 8).toUInt8 :=
    h.byteAt_eq (b := 1) rfl
  have hshift : (v >>> 8).toNat = v.toNat / 2 ^ 8 := by
    rw [UInt16.toNat_shiftRight, Nat.shiftRight_eq_div_pow]
    rfl
  refine UInt16.toNat_inj.1 ?_
  rw [toNat_halfWordAt, hlow, hhigh, UInt16.toNat_toUInt8, UInt16.toNat_toUInt8,
    hshift]
  have := v.toNat_lt
  omega

/-- A word is read as it was stored. -/
theorem wordAt_of_hasBytes {v : UInt32}
    (h : HasBytes data address (wordBytes v)) :
    wordAt data address = v := by
  obtain ⟨hlow, hhigh⟩ := h.of_append
  have hlow : halfWordAt data address = v.toUInt16 :=
    halfWordAt_of_hasBytes hlow
  have hhigh : halfWordAt data (address + 2) = (v >>> 16).toUInt16 :=
    halfWordAt_of_hasBytes hhigh
  have hshift : (v >>> 16).toNat = v.toNat / 2 ^ 16 := by
    rw [UInt32.toNat_shiftRight, Nat.shiftRight_eq_div_pow]
    rfl
  -- the two half-words make up the word as numbers
  refine UInt32.toNat_inj.1 ?_
  rw [toNat_wordAt, hlow, hhigh, UInt32.toNat_toUInt16, UInt32.toNat_toUInt16,
    hshift]
  have := v.toNat_lt
  omega

/-! ## Components -/

open Binary32

/-- How many binary digits of an integer component are behind the point. -/
def digits (format : PositionFormat) (through : Bool) : Nat :=
  if through then 0
  else
    match format with
    | int8 => 7
    | int16 => 15
    | none | float32 => 0

/-- The unit of a format is a power of two. -/
theorem unit_eq_fraction (format : PositionFormat) (through : Bool) :
    format.unit through = fraction 1 (format.digits through) := by
  have hinverse (k : Nat) (hk : k ≤ 23) :
      1 / fraction (2 ^ k : Nat) 0 = fraction 1 k := by
    have hdiv := fraction_div (n := 1) (j := 0) (by decide) hk (by omega)
    rw [Nat.zero_add] at hdiv
    exact hdiv
  -- screen coordinates have the unit one, the others one over the range
  cases through with
  | true => rfl
  | false =>
    cases format with
    | none | float32 => rfl
    | int8 => exact hinverse 7 (by decide)
    | int16 => exact hinverse 15 (by decide)

/-- The bytes that a signed byte has as a component in a format. Where positions
are not screen coordinates, a half-word has to be larger, and a number has to be
the fraction itself. -/
def encodeInt8 (format : PositionFormat) (through : Bool) (v : Int8) :
    List UInt8 :=
  match format with
  | none => []
  | int8 => [v.toUInt8]
  | int16 => halfWordBytes (if through then v.toInt16 else 256 * v.toInt16).toUInt16
  | float32 =>
    wordBytes (if through then ofInt8 v else ofInt8 v / 128).toBits

/-- The bytes that a signed half-word has as a component in a format that has room
for it. -/
def encodeInt16 (format : PositionFormat) (through : Bool) (v : Int16) :
    List UInt8 :=
  match format with
  | none | int8 => []
  | int16 => halfWordBytes v.toUInt16
  | float32 =>
    wordBytes (if through then ofInt16 v else ofInt16 v / 32768).toBits

/-- Whether components are stored so that reading them in a format gives certain
values, which need not depend on the format. -/
structure Encodes {α : Type} (format : PositionFormat) (through : Bool)
    (encode : α → List UInt8) (value : α → Float32) : Prop where
  length_eq : ∀ a, (encode a).length = format.componentSize
  componentAt_eq : ∀ {a : α} {data : Array UInt8} {address : Nat},
    HasBytes data address (encode a) →
      format.componentAt through data address = value a

theorem natAbs_toInt8_lt (v : Int8) : v.toInt.natAbs < 2 ^ 24 := by
  have hlo := v.le_toInt
  have hhi := v.toInt_lt
  omega

theorem natAbs_toInt16_lt (v : Int16) : v.toInt.natAbs < 2 ^ 24 := by
  have hlo := v.le_toInt
  have hhi := v.toInt_lt
  omega

theorem ofInt8_eq_fraction (v : Int8) : ofInt8 v = fraction v.toInt 0 := by
  rw [← Int8.toInt_toInt32]
  refine ofInt32_eq_fraction ?_
  rw [Int8.toInt_toInt32]
  exact natAbs_toInt8_lt v

theorem ofInt16_eq_fraction (v : Int16) : ofInt16 v = fraction v.toInt 0 := by
  rw [← Int16.toInt_toInt32]
  refine ofInt32_eq_fraction ?_
  rw [Int16.toInt_toInt32]
  exact natAbs_toInt16_lt v

/-- An integer component is a fraction of the range. -/
theorem fraction_mul_unit (format : PositionFormat) (through : Bool) {n : Int}
    (hn : n.natAbs < 2 ^ 24) :
    fraction n 0 * format.unit through
      = fraction n (format.digits through) := by
  have hdigits : format.digits through ≤ 15 := by
    cases through <;> cases format <;> decide
  rw [unit_eq_fraction, fraction_mul hn (by omega), Nat.zero_add]

/-- So is the number that is stored in its place. -/
theorem ofBits_fraction_div (format : PositionFormat) (through : Bool) {n : Int}
    (hn : n.natAbs < 2 ^ 24) :
    Float32.ofBits (if through then fraction n 0
        else fraction n 0 / fraction (2 ^ format.digits false : Nat) 0).toBits
      = fraction n (format.digits through) := by
  cases through with
  | true => exact ofBits_toBits_fraction hn (by decide)
  | false =>
    have hdigits : format.digits false ≤ 15 := by cases format <;> decide
    rw [if_neg Bool.false_ne_true, fraction_div hn (by omega) (by omega),
      Nat.zero_add]
    exact ofBits_toBits_fraction hn (by omega)

/-- **Signed bytes** in each of the formats. -/
theorem encodes_encodeInt8 (through : Bool) {format : PositionFormat}
    (h : format ∈ [int8, int16, float32]) :
    format.Encodes through (format.encodeInt8 through)
      fun v => fraction v.toInt (int8.digits through) := by
  cases format with
  | none => exact absurd h (by decide)
  | int8 =>
    refine ⟨fun _ => rfl, fun {v data address} hbytes => ?_⟩
    have hbyte : byteAt data address = v.toUInt8 :=
      hbytes.byteAt_eq (b := 0) rfl
    show ofInt8 _ * int8.unit through = _
    rw [hbyte, Int8.toInt8_toUInt8, ofInt8_eq_fraction,
      fraction_mul_unit int8 through (natAbs_toInt8_lt v)]
  | int16 =>
    refine ⟨fun _ => rfl, fun {v data address} hbytes => ?_⟩
    have hhalf := halfWordAt_of_hasBytes hbytes
    show ofInt16 _ * int16.unit through = _
    rw [hhalf, Int16.toInt16_toUInt16, ofInt16_eq_fraction]
    cases through with
    | true =>
      have hsame : v.toInt16.toInt = v.toInt := Int8.toInt_toInt16 v
      rw [if_pos rfl, hsame, fraction_mul_unit int16 true (natAbs_toInt8_lt v)]
      rfl
    | false =>
      -- what is behind the point of a byte is there with eight zeros
      have hlo := v.le_toInt
      have hhi := v.toInt_lt
      have hlarger : (256 * v.toInt16).toInt = 2 ^ 8 * v.toInt := by
        have h256 : (256 : Int16).toInt = 2 ^ 8 := rfl
        rw [Int16.toInt_mul, Int8.toInt_toInt16, h256]
        exact Int.bmod_eq_of_le (by omega) (by omega)
      have hlarge : (2 ^ 8 * v.toInt).natAbs < 2 ^ 24 := by omega
      rw [if_neg Bool.false_ne_true, hlarger,
        fraction_mul_unit int16 false hlarge]
      exact fraction_two_pow_mul hlarge
  | float32 =>
    refine ⟨fun _ => rfl, fun {v data address} hbytes => ?_⟩
    have hword := wordAt_of_hasBytes hbytes
    show Float32.ofBits _ = _
    rw [hword, ofInt8_eq_fraction]
    exact ofBits_fraction_div int8 through (natAbs_toInt8_lt v)

/-- **Signed half-words** in the formats that have room for them. -/
theorem encodes_encodeInt16 (through : Bool) {format : PositionFormat}
    (h : format ∈ [int16, float32]) :
    format.Encodes through (format.encodeInt16 through)
      fun v => fraction v.toInt (int16.digits through) := by
  -- half-words and floats of the same fraction are read alike
  cases format with
  | none | int8 => exact absurd h (by decide)
  | int16 =>
    refine ⟨fun _ => rfl, fun {v data address} hbytes => ?_⟩
    have hhalf := halfWordAt_of_hasBytes hbytes
    show ofInt16 _ * int16.unit through = _
    rw [hhalf, Int16.toInt16_toUInt16, ofInt16_eq_fraction,
      fraction_mul_unit int16 through (natAbs_toInt16_lt v)]
  | float32 =>
    refine ⟨fun _ => rfl, fun {v data address} hbytes => ?_⟩
    have hword := wordAt_of_hasBytes hbytes
    show Float32.ofBits _ = _
    rw [hword, ofInt16_eq_fraction]
    exact ofBits_fraction_div int16 through (natAbs_toInt16_lt v)

end PositionFormat

/-! ## Positions -/

/-- The bytes of a whole point. -/
theorem PositionFormat.Encodes.length_flatMap {α : Type}
    {format : PositionFormat} {through : Bool} {encode : α → List UInt8}
    {value : α → Float32} (h : format.Encodes through encode value)
    (point : Triple α) :
    (point.toList.flatMap encode).length = format.size := by
  simp only [Triple.toList, List.length_flatMap, List.map_cons, List.map_nil,
    h.length_eq, List.sum_cons, List.sum_nil]
  unfold size
  omega

namespace VertexLayout

open PositionFormat

/-- Where the bytes of a point are, its position is read as it was stored. -/
theorem positionAt_of_hasBytes {α : Type} {format : PositionFormat}
    {through : Bool} {encode : α → List UInt8} {value : α → Float32}
    (hformat : format.Encodes through encode value) {layout : VertexLayout}
    {data : Array UInt8} {i : Nat} {point : Triple α}
    (h : HasBytes data (layout.address format i 0)
      (point.toList.flatMap encode)) :
    layout.positionAt format through data i
      = ⟨value point.first, value point.second, value point.third⟩ := by
  have hsize := hformat.length_eq
  -- the three components follow each other, each as long as the format says
  obtain ⟨hfirst, hrest⟩ := h.of_append
  obtain ⟨hsecond, hrest⟩ := hrest.of_append
  obtain ⟨hthird, -⟩ := hrest.of_append
  rw [hsize] at hsecond hthird
  rw [hsize] at hthird
  have haddress (j : Nat) : layout.address format i j
      = layout.address format i 0 + j * format.componentSize := by
    unfold address
    rw [Nat.zero_mul, Nat.add_zero]
  have hplace : layout.address format i 0 + format.componentSize
      = layout.address format i 1 := by rw [haddress 1, Nat.one_mul]
  have hplace' : layout.address format i 1 + format.componentSize
      = layout.address format i 2 := by rw [haddress 1, haddress 2]; omega
  rw [hplace] at hsecond hthird
  rw [hplace'] at hthird
  exact congr (congrArg₂ Vec3.mk (hformat.componentAt_eq hfirst)
    (hformat.componentAt_eq hsecond)) (hformat.componentAt_eq hthird)

/-- Whether data has some points as the positions of its first vertices, in a
format and in the places of a layout. What is between them and around them does
not matter, and where strides are short they may overlap. -/
def Holds {α : Type} (layout : VertexLayout) (format : PositionFormat)
    (encode : α → List UInt8) (data : Array UInt8) (points : List (Triple α)) :
    Prop :=
  ∀ (i : Nat) (h : i < points.length),
    HasBytes data (layout.address format i 0) (points[i].toList.flatMap encode)

instance {α : Type} (layout : VertexLayout) (format : PositionFormat)
    (encode : α → List UInt8) (data : Array UInt8) (points : List (Triple α)) :
    Decidable (layout.Holds format encode data points) :=
  inferInstanceAs (Decidable (∀ (i : Nat) (_ : i < points.length), _))

/-- Any points can be stored, one after another and without gaps. -/
theorem holds_packed {α : Type} {format : PositionFormat} {through : Bool}
    {encode : α → List UInt8} {value : α → Float32}
    (hformat : format.Encodes through encode value)
    (points : List (Triple α)) :
    Holds (packed format) format encode
      (points.flatMap fun point => point.toList.flatMap encode).toArray
      points := by
  intro i hi b hb
  have haddress : (packed format).address format i 0 + b
      = i * format.size + b := by
    unfold address packed
    rw [Nat.zero_mul]
    rfl
  rw [hformat.length_flatMap] at hb
  rw [haddress, List.getElem?_toArray,
    getElem?_flatMap_of_length hformat.length_flatMap points i hb,
    List.getElem?_eq_getElem hi]
  rfl

end VertexLayout

/-! ## Draws of the same positions -/

namespace Draw

/-- The draw of positions in a format. -/
def inFormat (draw : Draw) (format : PositionFormat) : Draw :=
  { draw with type := { draw.type with position := format } }

/-- What a draw that has vertices lacks of its data. -/
def shortage? (draw : Draw) (layout : VertexLayout) (data : Array UInt8) :
    Option DataShortage :=
  if 0 < draw.vertices ∧ data.size < draw.neededBytes layout then
    some ⟨draw.neededBytes layout, data.size⟩
  else none

variable {draw : Draw} {format format' : PositionFormat}
  {layout layout' : VertexLayout} {data data' : Array UInt8}
  {state : RenderState}

theorem check_inFormat (registers : DepthRegisters)
    (h : format' = .none ↔ format = .none) :
    (draw.inFormat format').check registers
      = (draw.inFormat format).check registers := by
  unfold check inFormat
  simp only [h]
  rfl

theorem skipReason?_inFormat (registers : DepthRegisters)
    (h : format' = .none ↔ format = .none) :
    (draw.inFormat format').skipReason? registers
      = (draw.inFormat format).skipReason? registers := by
  unfold skipReason? inFormat
  simp only [h]

theorem fate_eq_of_shortage? (capacity : Nat) :
    draw.fate layout state data capacity
      = match draw.skipReason? state.registers with
        | some reason => .skipped reason
        | none =>
          if capacity < draw.vertices then
            .refused (.scratchTooSmall draw.vertices capacity)
          else
            match draw.shortage? layout data with
            | some shortage => .refused (.vertexData shortage)
            | none =>
              if ¬ draw.type.through
                  ∧ ¬ ∃ i < draw.vertices,
                    0 < draw.clipW layout state.camera data i then
                .skipped .allBehindCamera
              else .drawn := by
  unfold fate shortage?
  cases draw.skipReason? state.registers with
  | some reason => rfl
  | none =>
    dsimp only
    split
    · rfl
    · split <;> rfl

/-- **The same positions** make the same draw, in whatever format they are and
wherever they come from. -/
theorem agrees_run_inFormat (hnone : format' = .none ↔ format = .none)
    (hshort : (draw.inFormat format').shortage? layout' data'
      = (draw.inFormat format).shortage? layout data)
    (hposition : ∀ i < draw.vertices,
      layout'.positionAt format' draw.type.through data' i
        = layout.positionAt format draw.type.through data i)
    (r : Rasterizer) (scissor : Region) (scratch : Scratch) (s : Surface) :
    ((draw.inFormat format').run r scissor layout' state data' scratch s).Agrees
      ((draw.inFormat format).run r scissor layout state data scratch s) := by
  -- the camera sees the same positions, whichever format they are read from
  have hfront : (∃ i < draw.vertices,
        0 < (draw.inFormat format').clipW layout' state.camera data' i)
      ↔ ∃ i < draw.vertices,
        0 < (draw.inFormat format).clipW layout state.camera data i := by
    refine exists_congr fun i => and_congr_right fun hi => ?_
    have hclip : (draw.inFormat format').clipW layout' state.camera data' i
        = (draw.inFormat format).clipW layout state.camera data i :=
      congrArg (fun p => (state.camera.clipPosition p).w) (hposition i hi)
    rw [hclip]
  refine agrees_run r scissor s rfl rfl rfl (check_inFormat _ hnone) ?_ ?_
  · -- the fates agree question by question
    rw [fate_eq_of_shortage?, fate_eq_of_shortage?,
      skipReason?_inFormat _ hnone, hshort]
    cases (draw.inFormat format).skipReason? state.registers with
    | some reason => rfl
    | none =>
      cases (draw.inFormat format).shortage? layout data with
      | some shortage => rfl
      | none =>
        exact if_congr Iff.rfl rfl
          (if_congr (and_congr Iff.rfl (not_congr hfront)) rfl rfl)
  · intro i hi
    show (if _ then ScreenVertex.ofPosition _ else _) = _
    exact congrArg (fun p => if draw.type.through then .ofPosition p
      else state.camera.project p) (hposition i hi)

/-- Data that has a position for each vertex is long enough. -/
theorem shortage?_of_holds {α : Type} {through : Bool}
    {encode : α → List UInt8} {value : α → Float32} {points : List (Triple α)}
    (hnone : format ≠ .none) (hformat : format.Encodes through encode value)
    (hlength : points.length = draw.vertices)
    (h : layout.Holds format encode data points) :
    (draw.inFormat format).shortage? layout data = none := by
  refine if_neg ?_
  rintro ⟨hpos, hshort⟩
  -- the data reaches to the last byte of the last position
  have hpos : 0 < points.length := by
    rw [hlength]
    exact hpos
  have hlast : points.length - 1 < points.length := by omega
  have hbytes := h _ hlast
  generalize points[points.length - 1] = point at hbytes
  have hsize : (point.toList.flatMap encode).length
      = 3 * format.componentSize := hformat.length_flatMap point
  have hcomponent : 0 < format.componentSize := by
    cases format with
    | none => exact absurd rfl hnone
    | int8 | int16 | float32 => decide
  have hle := hbytes.le_size (by omega)
  have hneeded : (draw.inFormat format).neededBytes layout
      ≤ (draw.vertices - 1) * layout.stride + layout.positionOffset
        + 3 * format.componentSize := Nat.min_le_left ..
  unfold VertexLayout.address at hle
  rw [hsize, hlength] at hle
  omega

/-- **Data that holds the same points**, in two formats that encode them. -/
theorem agrees_run_of_holds {α : Type} {encode encode' : α → List UInt8}
    {value : α → Float32} {points : List (Triple α)}
    (hnone : format ≠ .none) (hnone' : format' ≠ .none)
    (hformat : format.Encodes draw.type.through encode value)
    (hformat' : format'.Encodes draw.type.through encode' value)
    (hlength : points.length = draw.vertices)
    (h : layout.Holds format encode data points)
    (h' : layout'.Holds format' encode' data' points)
    (r : Rasterizer) (scissor : Region) (scratch : Scratch) (s : Surface) :
    ((draw.inFormat format').run r scissor layout' state data' scratch s).Agrees
      ((draw.inFormat format).run r scissor layout state data scratch s) := by
  refine agrees_run_inFormat (iff_of_false hnone' hnone) ?_ ?_ r scissor
    scratch s
  · rw [shortage?_of_holds hnone hformat hlength h,
      shortage?_of_holds hnone' hformat' hlength h']
  · intro i hi
    have hi : i < points.length := by
      rw [hlength]
      exact hi
    rw [VertexLayout.positionAt_of_hasBytes hformat (h i hi),
      VertexLayout.positionAt_of_hasBytes hformat' (h' i hi)]

/-- **The format of positions** makes no difference. Points of signed bytes give
the same draw in each of the three formats, and points of signed half-words in
the two that have room for them: with the same outcome, on the same surface,
counted alike and with the same said about it. Positions that are not screen
coordinates are fractions of the range, the others are whole numbers. Strides and
offsets can be different, and what else is in the data can be anything: of any
draw, the bytes of its positions are all that matters. -/
theorem run_encoded (draw : Draw) (r : Rasterizer) (scissor : Region)
    (state : RenderState) (scratch : Scratch) (s : Surface) :
    let run (format : PositionFormat) (layout : VertexLayout)
        (data : Array UInt8) : Result :=
      (draw.inFormat format).run r scissor layout state data scratch s
    (∀ points : List (Triple Int8), points.length = draw.vertices →
        ∀ format ∈ [.int8, .int16, .float32],
        ∀ format' ∈ [.int8, .int16, .float32],
        ∀ (layout layout' : VertexLayout) (data data' : Array UInt8),
          layout.Holds format (format.encodeInt8 draw.type.through) data
              points →
            layout'.Holds format' (format'.encodeInt8 draw.type.through) data'
              points →
            (run format' layout' data').Agrees (run format layout data))
      ∧ (∀ points : List (Triple Int16), points.length = draw.vertices →
        ∀ format ∈ [.int16, .float32], ∀ format' ∈ [.int16, .float32],
        ∀ (layout layout' : VertexLayout) (data data' : Array UInt8),
          layout.Holds format (format.encodeInt16 draw.type.through) data
              points →
            layout'.Holds format' (format'.encodeInt16 draw.type.through) data'
              points →
            (run format' layout' data').Agrees (run format layout data))
      ∧ ∀ (format : PositionFormat) (layout : VertexLayout)
        (data data' : Array UInt8),
          (∀ i < draw.vertices, layout.positionBytes format data' i
            = layout.positionBytes format data i) →
          (data'.size = data.size
            ∨ (draw.inFormat format).neededBytes layout ≤ data.size
              ∧ (draw.inFormat format).neededBytes layout ≤ data'.size) →
          (run format layout data').Agrees (run format layout data) := by
  intro run
  have hnone {format : PositionFormat}
      (h : format ∈ [.int8, .int16, .float32]) : format ≠ .none := by
    rintro rfl
    exact absurd h (by decide)
  refine ⟨?_, ?_, ?_⟩
  · intro points hlength format hformat format' hformat' layout layout' data
      data' h h'
    exact agrees_run_of_holds (hnone hformat) (hnone hformat')
      (PositionFormat.encodes_encodeInt8 _ hformat)
      (PositionFormat.encodes_encodeInt8 _ hformat') hlength h h' r scissor
      scratch s
  · intro points hlength format hformat format' hformat' layout layout' data
      data' h h'
    exact agrees_run_of_holds (hnone (List.mem_cons_of_mem _ hformat))
      (hnone (List.mem_cons_of_mem _ hformat'))
      (PositionFormat.encodes_encodeInt16 _ hformat)
      (PositionFormat.encodes_encodeInt16 _ hformat') hlength h h' r scissor
      scratch s
  · intro format layout data data' hbytes hsize
    refine agrees_run_inFormat Iff.rfl ?_ ?_ r scissor scratch s
    · unfold shortage?
      -- data of the same size is short of the same, or long enough
      rcases hsize with hsize | ⟨hlong, hlong'⟩
      · rw [hsize]
      · rw [if_neg fun h => Nat.not_lt.2 hlong' h.2,
          if_neg fun h => Nat.not_lt.2 hlong h.2]
    · intro i hi
      exact VertexLayout.positionAt_congr (hbytes i hi) _

/-- A triangle of signed bytes, and the same one of half-words and of numbers,
between other bytes. -/
theorem run_encoded_triangle :
    let draw : Draw := ⟨.triangles, 3, {}, .clockwise⟩
    let camera : Camera := { viewport := ⟨.zero, ⟨16, 16, 10⟩⟩ }
    let state : RenderState := ⟨{ test := .less }, camera⟩
    let scratch : Scratch := .ofCapacity 3
    let s : Surface := .blank 4 4
    let run (format : PositionFormat) (layout : VertexLayout)
        (data : Array UInt8) : Result :=
      (draw.inFormat format).run .standard s.bounds layout state data scratch s
    let bytes : List (Triple Int8) := [⟨0, 0, 64⟩, ⟨0, 32, 64⟩, ⟨32, 0, 64⟩]
    let halfWords : List (Triple Int16) :=
      [⟨0, 0, 16384⟩, ⟨0, 8192, 16384⟩, ⟨8192, 0, 16384⟩]
    let data8 : Array UInt8 := #[0, 0, 64, 0, 32, 64, 32, 0, 64]
    let data16 : Array UInt8 :=
      #[7, 0, 0, 0, 0, 0, 64, 7, 0, 0, 0, 32, 0, 64, 7, 0, 32, 0, 0, 0, 64]
    let data32 : Array UInt8 :=
      #[0, 0, 0, 0, 0, 0, 0, 0, 0, 0, 0, 63, 0, 0, 0, 0, 0, 0, 128, 62, 0, 0, 0,
        63, 0, 0, 128, 62, 0, 0, 0, 0, 0, 0, 0, 63]
    VertexLayout.Holds ⟨3, 0⟩ .int8 (PositionFormat.int8.encodeInt8 false) data8
        bytes
      ∧ VertexLayout.Holds ⟨12, 0⟩ .float32
        (PositionFormat.float32.encodeInt8 false) data32 bytes
      ∧ VertexLayout.Holds ⟨7, 1⟩ .int16
        (PositionFormat.int16.encodeInt16 false) data16 halfWords
      ∧ VertexLayout.Holds ⟨12, 0⟩ .float32
        (PositionFormat.float32.encodeInt16 false) data32 halfWords
      ∧ (run .int8 ⟨3, 0⟩ data8).outcome
        = .ok (.drawn { triangles := 1, pixelsWritten := 13 })
      ∧ (run .float32 ⟨12, 0⟩ data32).Agrees (run .int8 ⟨3, 0⟩ data8)
      ∧ (run .int16 ⟨7, 1⟩ data16).Agrees (run .float32 ⟨12, 0⟩ data32)
      ∧ (run .int8 ⟨3, 0⟩ (data8.push 7)).Agrees (run .int8 ⟨3, 0⟩ data8) := by
  intro draw camera state scratch s run bytes halfWords data8 data16 data32
  have houtcome : (run .int8 ⟨3, 0⟩ data8).outcome
      = .ok (.drawn { triangles := 1, pixelsWritten := 13 }) := by
    decide +kernel
  have h8 : VertexLayout.Holds ⟨3, 0⟩ .int8
      (PositionFormat.int8.encodeInt8 false) data8 bytes :=
    VertexLayout.holds_packed
      (PositionFormat.encodes_encodeInt8 false (by decide)) bytes
  have h8' : VertexLayout.Holds ⟨12, 0⟩ .float32
      (PositionFormat.float32.encodeInt8 false) data32 bytes := by
    decide +kernel
  have h16 : VertexLayout.Holds ⟨7, 1⟩ .int16
      (PositionFormat.int16.encodeInt16 false) data16 halfWords := by
    decide +kernel
  have h16' : VertexLayout.Holds ⟨12, 0⟩ .float32
      (PositionFormat.float32.encodeInt16 false) data32 halfWords := by
    decide +kernel
  obtain ⟨hbytes, hhalfWords, hanything⟩ :=
    draw.run_encoded .standard s.bounds state scratch s
  refine ⟨h8, h8', h16, h16', houtcome, ?_, ?_, ?_⟩
  · exact hbytes bytes rfl .int8 (by decide) .float32 (by decide) ⟨3, 0⟩ ⟨12, 0⟩
      data8 data32 h8 h8'
  · exact hhalfWords halfWords rfl .float32 (by decide) .int16 (by decide)
      ⟨12, 0⟩ ⟨7, 1⟩ data32 data16 h16' h16
  · exact hanything .int8 ⟨3, 0⟩ data8 (data8.push 7) (by decide +kernel)
      (.inr ⟨by decide, by decide⟩)

end Draw

end DepthPrepass
