import CilBuffer.Identity
import CilBuffer.Recorder.Call

/-!
# Steps

A step is one recorded action: an instruction with its operand, a marker of an exception region, or
the definition or placement of a label or local. Of a step only the opcode of a branch or switch
can change later, so its size depends on the opcodes now in effect. The main statement is that a
step with an opcode takes at least one byte.
-/

namespace CilBuffer

/-- An operand as it was recorded, with the width and sign that it was given. -/
inductive Immediate where
  | none
  | byte (value : UInt8)
  | int16 (value : Int16)
  | int32 (value : Int32)
  | uint32 (value : UInt32)
  | int64 (value : Int64)
  | uint64 (value : UInt64)
  | single (value : Float32Bits)
  | double (value : Float64Bits)
  | method (method : MethodRef)
  | constructor (constructor : ConstructorRef)
  | type (type : TypeRef)
  | field (field : FieldRef)
  | string (text : String)
  | signature (site : CallSite)
  deriving DecidableEq, Repr

inductive Step where
  | instruction (op : Opcode) (operand : Immediate)
  /-- An instruction whose operand is a local. -/
  | access (op : Opcode) (localVar : Local)
  | branch (slot : OpcodeSlot) (target : Label)
  | switch (slot : OpcodeSlot) (targets : List Label)
  | beginException (block : ExceptionBlock)
  | beginCatch (exception : TypeRef)
  | endException
  | endCatch
  | beginFinally
  | endFinally
  | defineLabel (label : Label)
  | markLabel (label : Label)
  | declareLocal (localVar : Local)
  /-- The entry of a buffer. It reads like a marked label and is sent to no target. -/
  | anchor (label : Label)
  deriving DecidableEq, Repr

/-- The opcode in effect at each replaceable place. -/
abbrev Opcodes : Type := OpcodeSlot → Opcode

/-- The opcodes given when the steps were made. -/
def Opcodes.initial : Opcodes := OpcodeSlot.initial

namespace Step

/-- The replaceable opcode of a branch or switch. -/
def slot? : Step → Option OpcodeSlot
  | .branch slot _ | .switch slot _ => some slot
  | _ => none

/-- The opcode in effect. Markers and definitions have none. -/
def opcode? (current : Opcodes) : Step → Option Opcode
  | .instruction op _ | .access op _ => some op
  | .branch slot _ | .switch slot _ => some (current slot)
  | _ => none

def isAnchor : Step → Bool
  | .anchor _ => true
  | _ => false

/-- The bytes that the step takes once it is sent, with the opcodes in effect. -/
def size (current : Opcodes) : Step → Nat
  | .instruction op _ | .access op _ => op.size
  | .branch slot _ => (current slot).size
  | .switch slot targets => (current slot).size + switchTargetSize * targets.length
  | .beginException _ => Marker.beginException.size
  | .beginCatch _ => Marker.beginCatch.size
  | .endException => Marker.endException.size
  | .endCatch => Marker.endCatch.size
  | .beginFinally => Marker.beginFinally.size
  | .endFinally => Marker.endFinally.size
  | .defineLabel _ => Marker.defineLabel.size
  | .markLabel _ | .anchor _ => Marker.markLabel.size
  | .declareLocal _ => Marker.declareLocal.size

theorem size_pos_of_opcode? {current : Opcodes} {step : Step} {op : Opcode}
    (h : step.opcode? current = some op) : 0 < step.size current := by
  cases step with
  | instruction own _ => exact own.size_pos
  | access own _ => exact own.size_pos
  | branch slot _ => exact (current slot).size_pos
  | switch slot _ => exact Nat.lt_of_lt_of_le (current slot).size_pos (Nat.le_add_right ..)
  | _ => cases h

end Step

end CilBuffer
