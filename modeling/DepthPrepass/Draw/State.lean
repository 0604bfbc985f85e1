import DepthPrepass.DepthTest
import DepthPrepass.Vertex.Screen

/-!
# Render state

The registers that bear on depth, and the camera. Clearing is drawing too: its
test always passes, but it may leave depth alone. Outside of clearing a draw
changes depth only if tests are on and writes are on.
-/

namespace DepthPrepass

/-- Why the registers rule out that a draw changes depth. -/
inductive DepthGate where
  | clearWithoutDepthWrite
  | depthTestDisabled
  | depthWriteDisabled
deriving DecidableEq, Repr

/-- The registers that bear on depth. -/
structure DepthRegisters where
  testEnabled : Bool := true
  writeEnabled : Bool := true
  clearMode : Bool := false
  /-- Whether clearing changes depth. -/
  clearDepthWrite : Bool := false
  test : DepthTest := .always
deriving DecidableEq, Repr

/-- All the state that a draw depends on. -/
structure RenderState where
  registers : DepthRegisters := {}
  camera : Camera := {}

namespace DepthGate

/-- The gate's name. -/
def name : DepthGate → String
  | clearWithoutDepthWrite => "ClearWithoutDepthWrite"
  | depthTestDisabled => "DepthTestDisabled"
  | depthWriteDisabled => "DepthWriteDisabled"

end DepthGate

namespace DepthRegisters

/-- The test that a draw runs with, or why it changes nothing. -/
def effectiveTest (r : DepthRegisters) : Except DepthGate DepthTest :=
  if r.clearMode then
    if r.clearDepthWrite then .ok .always
    else .error .clearWithoutDepthWrite
  else if !r.testEnabled then .error .depthTestDisabled
  else if !r.writeEnabled then .error .depthWriteDisabled
  else .ok r.test

end DepthRegisters

end DepthPrepass
