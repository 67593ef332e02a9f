import CilBuffer.Buffer.Describe
import CilBuffer.Step.Link

/-!
# Sessions

A session holds any number of buffers and recorders, the opcodes in effect, the bindings of labels
and locals, and one trace. Everything that is made gets a serial number of its own, and buffers and
recorders are known by it.
-/

namespace CilBuffer

/-- Buffers and recorders by number, and all that is shared between them. -/
structure Session where
  nextSerial : Nat
  opcodes : Opcodes
  bindings : Bindings
  buffers : Nat → Buffer
  recorders : Nat → Recorder
  trace : String

/-- The means to replace the opcode of one branch or switch. It belongs to the buffer that it was
obtained from, and makes the offsets of that buffer stale, wherever the step is by then. -/
structure OpcodeHandle where
  slot : OpcodeSlot
  buffer : Nat
  deriving DecidableEq, Repr

namespace Session

/-- Every buffer is empty, every recorder without calls, and nothing is bound. -/
def new : Session where
  nextSerial := 0
  opcodes := .initial
  bindings := .empty
  buffers := fun _ => .empty
  recorders := fun _ => .new
  trace := ""

/-- A serial number that nothing has yet. -/
def fresh (s : Session) : Nat × Session :=
  (s.nextSerial, { s with nextSerial := s.nextSerial + 1 })

def setBuffer (s : Session) (id : Nat) (b : Buffer) : Session :=
  { s with buffers := assign s.buffers id b }

/-- The bindings together with one of the recorders. -/
def linker (s : Session) (target : Nat) : Linker := ⟨target, s.bindings, s.recorders target⟩

/-- Takes over the bindings and the recorder. -/
def setLinker (s : Session) (k : Linker) : Session :=
  { s with bindings := k.bindings, recorders := assign s.recorders k.target k.recorder }

/-- A label that is defined on a target when it is first resolved there. -/
def newLabel (s : Session) (name : String) : Label × Session :=
  let (serial, s) := s.fresh
  (⟨serial, name, .plain⟩, s)

/-- A label without a name, for a number that is bound to no step. -/
def newBinder (s : Session) : Label × Session := s.newLabel ""

/-- A local that is declared on a target when it is first resolved there. -/
def newLocal (s : Session) (name : String) (slot : UInt16) (type : TypeRef) : Local × Session :=
  let (serial, s) := s.fresh
  (⟨serial, name, slot, type⟩, s)

/-- A protected region, with the name of the label at its end. -/
def newBlock (s : Session) (endName : String) : ExceptionBlock × Session :=
  let (serial, s) := s.fresh
  (⟨serial, endName⟩, s)

def newSlot (s : Session) (op : Opcode) : OpcodeSlot × Session :=
  let (serial, s) := s.fresh
  (⟨serial, op⟩, s)

def append (s : Session) (id : Nat) (step : Step) : Session :=
  s.setBuffer id ((s.buffers id).append step)

/-- A buffer that is empty or begins with an anchor of the given name. -/
def newBuffer (s : Session) (anchor : Option String) : Nat × Session :=
  let (id, s) := s.fresh
  match anchor with
  | none => (id, s)
  | some name =>
    let (label, s) := s.newLabel name
    (id, s.append id (.anchor label))

def newRecorder (s : Session) : Nat × Session := s.fresh

def setOpcode (s : Session) (handle : OpcodeHandle) (op : Opcode) : Session :=
  { s with opcodes := assign s.opcodes handle.slot op }.setBuffer handle.buffer
    (s.buffers handle.buffer).markStale

/-- Adds the text of the step to the trace and, if there is a target, sends the step to it. -/
def replay (s : Session) (step : Step) (target : Option Nat) : Session :=
  let s := { s with trace := s.trace ++ step.text s.opcodes }
  match target with
  | none => s
  | some target => s.setLinker ((s.linker target).link s.opcodes step)

/-- Sends all steps of a buffer to the target. The text is theirs, joined. -/
def flush (s : Session) (id target : Nat) : String × Session :=
  let steps := (s.buffers id).steps
  (String.join (steps.map (·.text s.opcodes)),
    s.setLinker ((s.linker target).linkAll s.opcodes steps))

@[simp] theorem buffers_setBuffer_same (s : Session) (id : Nat) (b : Buffer) :
    (s.setBuffer id b).buffers id = b :=
  assign_same ..

theorem buffers_setBuffer_of_ne (s : Session) {id other : Nat} (b : Buffer) (h : other ≠ id) :
    (s.setBuffer id b).buffers other = s.buffers other :=
  assign_of_ne _ _ h

end Session

end CilBuffer
