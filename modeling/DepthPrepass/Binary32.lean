/-!
# Integers and single-precision numbers

Depth values and coordinates pass between fixed-width integers and binary32.
The conversions here are built from negation and the unsigned conversions
alone, because those are the ones whose meaning is fixed in the logic; a
signed word is its magnitude with a sign, and rounding to the nearest (ties
to even) does not depend on the sign.

* `ofInt32`: the nearest single-precision number to a signed word.
* `toInt32`: truncation toward zero, with the two ends of the range for
  values beyond them and zero for NaN.
-/

namespace DepthPrepass.Binary32

/-- The single-precision number nearest to a signed word, ties to even. The
magnitude of the least word does not fit a signed word, but it does fit the
unsigned one that it wraps to. -/
def ofInt32 (n : Int32) : Float32 :=
  if n < 0 then -(-n).toUInt32.toFloat32 else n.toUInt32.toFloat32

/-- The single-precision number equal to a signed byte. -/
def ofInt8 (n : Int8) : Float32 :=
  ofInt32 n.toInt32

/-- The single-precision number equal to a signed half-word. -/
def ofInt16 (n : Int16) : Float32 :=
  ofInt32 n.toInt32

/-- The magnitude of the least signed word: the first magnitude that a
non-negative signed word cannot hold. -/
def signedLimit : UInt32 := 0x80000000

/-- Truncate toward zero. A value beyond either end of the range becomes that
end, and NaN becomes zero. -/
def toInt32 (x : Float32) : Int32 :=
  if x < 0 then
    let magnitude := (-x).toUInt32
    if signedLimit ≤ magnitude then Int32.minValue else -magnitude.toInt32
  else
    let magnitude := x.toUInt32
    if signedLimit ≤ magnitude then Int32.maxValue else magnitude.toInt32

end DepthPrepass.Binary32
