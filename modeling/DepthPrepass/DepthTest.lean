/-!
# Depth tests

A depth test compares a candidate depth with the stored one. Candidates are
interpolated and so single-precision numbers; stored depths are converted to
that format for the comparison, which is exact for 16-bit values. Every
comparison with NaN fails, except `notEqual` and `always`.
-/

namespace DepthPrepass

/-- The eight depth tests, in register order. -/
inductive DepthTest where
  | never
  | always
  | equal
  | notEqual
  | less
  | lessEqual
  | greater
  | greaterEqual
deriving DecidableEq, Repr

namespace DepthTest

instance : Inhabited DepthTest := ⟨always⟩

/-- The test that a register selects. Only the low three bits count. -/
def ofBits (bits : UInt32) : DepthTest :=
  match (bits &&& 7).toNat with
  | 0 => never
  | 1 => always
  | 2 => equal
  | 3 => notEqual
  | 4 => less
  | 5 => lessEqual
  | 6 => greater
  | _ => greaterEqual

/-- Whether a candidate depth replaces the stored one. The candidate is the
left operand. -/
def passes : DepthTest → (candidate stored : Float32) → Bool
  | never, _, _ => false
  | always, _, _ => true
  | equal, c, s => c == s
  | notEqual, c, s => !(c == s)
  | less, c, s => c < s
  | lessEqual, c, s => c ≤ s
  | greater, c, s => s < c
  | greaterEqual, c, s => s ≤ c

/-- The test's name in messages. -/
def name : DepthTest → String
  | never => "Never"
  | always => "Always"
  | equal => "Equal"
  | notEqual => "NotEqual"
  | less => "Less"
  | lessEqual => "LessEqual"
  | greater => "Greater"
  | greaterEqual => "GreaterEqual"

end DepthTest

end DepthPrepass
