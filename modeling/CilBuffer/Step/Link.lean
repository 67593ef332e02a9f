import CilBuffer.Step.Basic
import CilBuffer.Linker

/-!
# Sending a step to a target

A step resolves the labels and locals that it mentions and then makes its call, if it has one. The
opening of a region and the definitions make no call beyond the resolution, and the end of a
handler makes none, since a target closes it with the next handler or with the region.
-/

namespace CilBuffer

/-- The operand that is sent. An unsigned number of 32 or 64 bits is sent as the signed number with
the same bits. -/
def Immediate.operand : Immediate → Operand
  | .none => .none
  | .byte v => .byte v
  | .int16 v => .int16 v
  | .int32 v => .int32 v
  | .uint32 v => .int32 v.toInt32
  | .int64 v => .int64 v
  | .uint64 v => .int64 v.toInt64
  | .single v => .single v
  | .double v => .double v
  | .method m => .method m
  | .constructor c => .constructor c
  | .type t => .type t
  | .field f => .field f
  | .string s => .string s
  | .signature s => .signature s

namespace Linker

/-- The linker after a call that creates nothing. -/
def call (k : Linker) (f : Recorder → Recorder) : Linker := { k with recorder := f k.recorder }

def link (current : Opcodes) (k : Linker) : Step → Linker
  | .instruction op operand => k.call (·.instruction op operand.operand)
  | .access op localVar =>
    let (handle, k) := k.resolveLocal localVar
    k.call (·.instruction op (.localVar handle))
  | .branch slot target =>
    let (handle, k) := k.resolveLabel target
    k.call (·.instruction (current slot) (.label handle))
  | .switch slot targets =>
    let (handles, k) := k.resolveLabels targets
    k.call (·.instruction (current slot) (.labels handles))
  | .beginException block => (k.resolveLabel block.endLabel).2
  | .beginCatch exception => k.call (·.beginCatch exception)
  | .endException => k.call (·.endException)
  | .endCatch => k
  | .beginFinally => k.call (·.beginFinally)
  | .endFinally => k
  | .defineLabel label => (k.resolveLabel label).2
  | .markLabel label =>
    let (handle, k) := k.resolveLabel label
    k.call (·.markLabel handle)
  | .declareLocal localVar => (k.resolveLocal localVar).2
  | .anchor _ => k

def linkAll (current : Opcodes) (k : Linker) (steps : List Step) : Linker :=
  steps.foldl (link current) k

end Linker

end CilBuffer
