import CilBuffer.Opcode.Basic

/-!
# Sizes of markers

An encoder writes hidden instructions where exception regions open and close: a `leave` out of the
region it has written so far, and an `endfinally` at the end of a finally handler. The sizes given
here account for them. Definitions of labels and locals write nothing.
-/

namespace CilBuffer

/-- The bytes that one target adds to a switch table. -/
def switchTargetSize : Nat := 4

/-- A recorded action that carries no opcode of its own. -/
inductive Marker where
  | beginException
  | beginCatch
  | endException
  | endCatch
  | beginFinally
  | endFinally
  | defineLabel
  | markLabel
  | declareLocal
  deriving DecidableEq, Repr

/-- The bytes of the hidden instruction that an encoder writes at the marker. -/
def Marker.size : Marker → Nat
  | .beginCatch | .endException | .beginFinally => Opcode.leave.size
  | .endFinally => Opcode.endfinally.size
  | .beginException | .endCatch | .defineLabel | .markLabel | .declareLocal => 0

end CilBuffer
