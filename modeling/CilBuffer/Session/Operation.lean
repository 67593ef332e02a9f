import CilBuffer.Session.Basic

/-!
# Operations

Everything that can be done in a session, each operation with a reply. A run is a list of
operations, carried out one after the other. An operation that is refused replies with the cause.
-/

namespace CilBuffer

/-- What is added to the end of a buffer. Where the step has an identity of its own, it is made on
the way. -/
inductive Emission where
  | step (step : Step)
  | branch (op : Opcode) (target : Label)
  | switch (op : Opcode) (targets : List Label)
  | beginException
  | defineLabel (name : String)
  | declareLocal (name : String) (slot : UInt16) (type : TypeRef)
  deriving DecidableEq, Repr

inductive Operation where
  | newLabel (name : String)
  | newLocal (name : String) (slot : UInt16) (type : TypeRef)
  | newBlock (endName : String)
  | newBinder
  | newSlot (op : Opcode)
  | newBuffer (anchor : Option String)
  | newRecorder
  | resolveLabel (label : Label) (target : Nat)
  | resolveLocal (localVar : Local) (target : Nat)
  | request (target : Nat) (request : Request)
  | append (buffer : Nat) (step : Step)
  | insert (buffer index : Nat) (step : Step)
  | remove (buffer index : Nat)
  | emit (buffer : Nat) (emission : Emission)
  | opcodeHandle (buffer index : Nat)
  | setOpcode (handle : OpcodeHandle) (op : Opcode)
  | cumulativeLength (buffer position : Nat)
  | byteDistance (buffer start stop : Nat)
  | replay (step : Step) (target : Option Nat)
  | clearTrace
  | flush (buffer target : Nat)
  | describe (buffer : Nat) (scopes : List LocalScope) (annotated : Bool)
  deriving DecidableEq, Repr

inductive Reply where
  | done
  | label (label : Label)
  | localVar (localVar : Local)
  | block (block : ExceptionBlock)
  | slot (slot : OpcodeSlot)
  | buffer (id : Nat)
  | recorder (target : Nat)
  /-- The number of a label or local on a target. -/
  | handle (handle : Option Nat)
  | opcodeHandle (handle : Option OpcodeHandle)
  | step (step : Step)
  | length (bytes : Nat)
  | distance (bytes : Int)
  | text (text : String)
  | lines (lines : List String)
  | refused (cause : BufferError)
  deriving DecidableEq, Repr

namespace Session

/-- The name of the end of a region that is opened at the end of a buffer. -/
def blockEndName (b : Buffer) : String := "block_end_" ++ b.length.repr

/-- Adds to the end of a buffer, and replies with what was made for it. -/
def emit (s : Session) (buffer : Nat) : Emission → Reply × Session
  | .step step => (.done, s.append buffer step)
  | .branch op target =>
    let (slot, s) := s.newSlot op
    (.opcodeHandle (some ⟨slot, buffer⟩), s.append buffer (.branch slot target))
  | .switch op targets =>
    let (slot, s) := s.newSlot op
    (.opcodeHandle (some ⟨slot, buffer⟩), s.append buffer (.switch slot targets))
  | .beginException =>
    let (block, s) := s.newBlock (blockEndName (s.buffers buffer))
    (.block block, s.append buffer (.beginException block))
  | .defineLabel name =>
    let (label, s) := s.newLabel name
    (.label label, s.append buffer (.defineLabel label))
  | .declareLocal name slot type =>
    let (localVar, s) := s.newLocal name slot type
    (.localVar localVar, s.append buffer (.declareLocal localVar))

def perform (s : Session) : Operation → Reply × Session
  | .newLabel name => (s.newLabel name).map .label id
  | .newLocal name slot type => (s.newLocal name slot type).map .localVar id
  | .newBlock endName => (s.newBlock endName).map .block id
  | .newBinder => s.newBinder.map .label id
  | .newSlot op => (s.newSlot op).map .slot id
  | .newBuffer anchor => (s.newBuffer anchor).map .buffer id
  | .newRecorder => s.newRecorder.map .recorder id
  | .resolveLabel label target =>
    let (handle, k) := (s.linker target).resolveLabel label
    (.handle (some handle.toNat), s.setLinker k)
  | .resolveLocal localVar target =>
    let (handle, k) := (s.linker target).resolveLocal localVar
    (.handle (some handle.toNat), s.setLinker k)
  | .request target request =>
    let (handle, recorder) := (s.recorders target).perform request
    (.handle handle, { s with recorders := assign s.recorders target recorder })
  | .append buffer step => (.done, s.append buffer step)
  | .insert buffer index step =>
    match (s.buffers buffer).insert index step with
    | .ok b => (.done, s.setBuffer buffer b)
    | .error cause => (.refused cause, s)
  | .remove buffer index =>
    match (s.buffers buffer).remove index with
    | .ok (step, b) => (.step step, s.setBuffer buffer b)
    | .error cause => (.refused cause, s)
  | .emit buffer emission => s.emit buffer emission
  | .opcodeHandle buffer index =>
    (.opcodeHandle (((s.buffers buffer).slotAt? index).map (⟨·, buffer⟩)), s)
  | .setOpcode handle op => (.done, s.setOpcode handle op)
  | .cumulativeLength buffer position =>
    match (s.buffers buffer).cumulativeLength s.opcodes position with
    | (.ok bytes, b) => (.length bytes, s.setBuffer buffer b)
    | (.error cause, b) => (.refused cause, s.setBuffer buffer b)
  | .byteDistance buffer start stop =>
    match (s.buffers buffer).byteDistance s.opcodes start stop with
    | (.ok bytes, b) => (.distance bytes, s.setBuffer buffer b)
    | (.error cause, b) => (.refused cause, s.setBuffer buffer b)
  | .replay step target => (.done, s.replay step target)
  | .clearTrace => (.done, { s with trace := "" })
  | .flush buffer target => (s.flush buffer target).map .text id
  | .describe buffer scopes annotated =>
    if annotated then
      match (s.buffers buffer).describe s.opcodes scopes with
      | .ok lines => (.lines lines, s)
      | .error cause => (.refused cause, s)
    else (.lines ((s.buffers buffer).lines s.opcodes), s)

/-- Carries out the operations in order. -/
def run (s : Session) : List Operation → List Reply × Session
  | [] => ([], s)
  | operation :: operations =>
    let (reply, s) := s.perform operation
    let (replies, s) := s.run operations
    (reply :: replies, s)

theorem run_append (s : Session) (xs ys : List Operation) :
    s.run (xs ++ ys) =
      ((s.run xs).1 ++ ((s.run xs).2.run ys).1, ((s.run xs).2.run ys).2) := by
  induction xs generalizing s with
  | nil => rfl
  | cons x xs ih => simp [run, ih]

theorem perform_describe (s : Session) (buffer : Nat) (scopes : List LocalScope)
    (annotated : Bool) : (s.perform (.describe buffer scopes annotated)).2 = s := by
  simp only [perform]
  split
  · split <;> rfl
  · rfl

end Session

end CilBuffer
