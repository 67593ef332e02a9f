import CilBuffer.Step.Basic

/-!
# Tags of steps

Facts about a step for the analysis of control flow and of the stack. They are fixed when the step
is made: a replaced opcode does not show in them.
-/

namespace CilBuffer

/-- What a call takes from the stack and leaves on it. -/
structure CallShape where
  returnType : TypeRef
  /-- The receiver of an instance method comes first. -/
  parameterTypes : List TypeRef
  deriving DecidableEq, Repr

structure Tags where
  /-- The region or declaration that the step marks. -/
  marker : Option Marker
  marksLabel : Option Label
  /-- The opcode given when the step was made. -/
  instruction : Option Opcode
  call : Option CallShape
  deriving DecidableEq, Repr

/-- The bit of a marker in a set of flags. A mark of a label has none. -/
def Marker.flag : Marker → UInt16
  | .defineLabel => 1
  | .beginException => 2
  | .endException => 4
  | .beginCatch => 8
  | .endCatch => 16
  | .beginFinally => 32
  | .endFinally => 64
  | .declareLocal => 128
  | .markLabel => 0

namespace Tags

/-- The set of flags, which holds one bit at most. -/
def flags (tags : Tags) : UInt16 := (tags.marker.map Marker.flag).getD 0

def definesLabel (tags : Tags) : Bool := tags.marker = some .defineLabel

def declaresLocal (tags : Tags) : Bool := tags.marker = some .declareLocal

end Tags

namespace Step

/-- The marker that the step is, an anchor being the mark of a label. -/
def marker? : Step → Option Marker
  | .beginException _ => some .beginException
  | .beginCatch _ => some .beginCatch
  | .endException => some .endException
  | .endCatch => some .endCatch
  | .beginFinally => some .beginFinally
  | .endFinally => some .endFinally
  | .defineLabel _ => some .defineLabel
  | .markLabel _ | .anchor _ => some .markLabel
  | .declareLocal _ => some .declareLocal
  | _ => none

def markedLabel? : Step → Option Label
  | .markLabel label | .anchor label => some label
  | _ => none

/-- The shape of a call, of a method or through a signature. -/
def callShape? : Step → Option CallShape
  | .instruction _ (.method method) => some ⟨method.returnType, method.stackParameters⟩
  | .instruction _ (.signature site) => some ⟨site.returnType, site.parameters⟩
  | _ => none

def tags (step : Step) : Tags where
  marker := step.marker?
  marksLabel := step.markedLabel?
  instruction := step.opcode? Opcodes.initial
  call := step.callShape?

end Step

end CilBuffer
