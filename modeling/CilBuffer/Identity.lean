import CilBuffer.Opcode.Basic
import CilBuffer.Metadata.Type

/-!
# Identities

Labels, locals, exception blocks and replaceable opcodes are shared between the steps that mention
them. Two that look alike are kept apart by a serial number.
-/

namespace CilBuffer

/-- How a label comes into existence on a target. -/
inductive LabelOrigin where
  /-- It is defined, and placed by a mark of its own. -/
  | plain
  /-- It is the end of a protected region, and exists once the region is opened. -/
  | blockEnd
  deriving DecidableEq, Repr

structure Label where
  serial : Nat
  name : String
  origin : LabelOrigin
  deriving DecidableEq, Repr

structure ExceptionBlock where
  serial : Nat
  endName : String
  deriving DecidableEq, Repr

/-- The label that ends the region. A `leave` inside the region and its handlers jumps to it. -/
def ExceptionBlock.endLabel (block : ExceptionBlock) : Label :=
  ⟨block.serial, block.endName, .blockEnd⟩

structure Local where
  serial : Nat
  name : String
  slot : UInt16
  valueType : TypeRef
  deriving DecidableEq, Repr

/-- The opcode of a branch or switch, which can be replaced after the step is recorded. All copies
of a step share it. -/
structure OpcodeSlot where
  serial : Nat
  initial : Opcode
  deriving DecidableEq, Repr

end CilBuffer
