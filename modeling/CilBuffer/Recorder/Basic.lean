import CilBuffer.Recorder.Call

/-!
# Recorders

A recorder keeps the calls that it receives and counts the bytes that an encoder would write for
them. It numbers labels and locals from zero, each kind on its own, the ends of regions among the
labels. After the last number of a kind it goes on with zero, and what has that number already is
not looked for. The main statements say that a record touches the calls and the byte count alone.
-/

namespace CilBuffer

/-- The calls received so far, with the bytes and numbers that follow from them. -/
structure Recorder where
  calls : List Call
  codeSize : Nat
  nextLabel : LabelHandle
  nextLocal : LocalHandle
  /-- For each open region, the innermost first: its latest handler is a finally. -/
  openRegions : List Bool
  deriving DecidableEq, Repr

/-- What a target can be asked to do. -/
inductive Request where
  | instruction (op : Opcode) (operand : Operand)
  | beginException
  | beginCatch (exception : TypeRef)
  | beginFinally
  | endException
  | defineLabel
  | markLabel (handle : LabelHandle)
  | declareLocal (type : TypeRef)
  deriving DecidableEq, Repr

namespace Recorder

def new : Recorder := ⟨[], 0, 0, 0, []⟩

/-- One more call, of the given size. -/
def record (r : Recorder) (call : Call) (size : Nat) : Recorder :=
  { r with calls := r.calls ++ [call], codeSize := r.codeSize + size }

/-- The innermost open region gets a handler. -/
def setHandler (isFinally : Bool) : List Bool → List Bool
  | [] => []
  | _ :: outer => isFinally :: outer

/-- The bytes that the end of a region writes: a finally handler is closed with it. -/
def endSize : List Bool → Nat
  | true :: _ => Marker.endException.size + Marker.endFinally.size
  | _ => Marker.endException.size

/-- Receives an instruction, which takes the bytes of its opcode and operand. -/
def instruction (r : Recorder) (op : Opcode) (operand : Operand) : Recorder :=
  r.record (.instruction op operand) (instructionSize op operand)

/-- Opens a region. The number is that of the label at its end. -/
def beginException (r : Recorder) : LabelHandle × Recorder :=
  (r.nextLabel,
    { r with nextLabel := r.nextLabel + 1, openRegions := false :: r.openRegions }.record
      (.beginException r.nextLabel) Marker.beginException.size)

/-- Gives the innermost open region a handler for the exception. -/
def beginCatch (r : Recorder) (exception : TypeRef) : Recorder :=
  { r with openRegions := setHandler false r.openRegions }.record
    (.beginCatch exception) Marker.beginCatch.size

def beginFinally (r : Recorder) : Recorder :=
  { r with openRegions := setHandler true r.openRegions }.record
    .beginFinally Marker.beginFinally.size

/-- Closes the innermost open region. Without one the call is recorded all the same. -/
def endException (r : Recorder) : Recorder :=
  { r with openRegions := r.openRegions.tail }.record .endException (endSize r.openRegions)

/-- Creates a label. The number is the next of the labels. -/
def defineLabel (r : Recorder) : LabelHandle × Recorder :=
  (r.nextLabel,
    { r with nextLabel := r.nextLabel + 1 }.record
      (.defineLabel r.nextLabel) Marker.defineLabel.size)

/-- Places a label here. The number need not be one that was given out. -/
def markLabel (r : Recorder) (handle : LabelHandle) : Recorder :=
  r.record (.markLabel handle) Marker.markLabel.size

/-- Creates a local. The number is the next of the locals. -/
def declareLocal (r : Recorder) (type : TypeRef) : LocalHandle × Recorder :=
  (r.nextLocal,
    { r with nextLocal := r.nextLocal + 1 }.record
      (.declareLocal type r.nextLocal) Marker.declareLocal.size)

/-- Carries out a request. The number is that of the label or local it creates. -/
def perform (r : Recorder) : Request → Option Nat × Recorder
  | .instruction op operand => (none, r.instruction op operand)
  | .beginException => r.beginException.map (some ·.toNat) id
  | .beginCatch exception => (none, r.beginCatch exception)
  | .beginFinally => (none, r.beginFinally)
  | .endException => (none, r.endException)
  | .defineLabel => r.defineLabel.map (some ·.toNat) id
  | .markLabel handle => (none, r.markLabel handle)
  | .declareLocal type => (r.declareLocal type).map (some ·.toNat) id

def mnemonics (r : Recorder) : List String := r.calls.filterMap fun c => c.opcode?.map (·.mnemonic)

@[simp] theorem calls_record (r : Recorder) (call : Call) (size : Nat) :
    (r.record call size).calls = r.calls ++ [call] :=
  rfl

@[simp] theorem codeSize_record (r : Recorder) (call : Call) (size : Nat) :
    (r.record call size).codeSize = r.codeSize + size :=
  rfl

@[simp] theorem nextLabel_record (r : Recorder) (call : Call) (size : Nat) :
    (r.record call size).nextLabel = r.nextLabel :=
  rfl

@[simp] theorem nextLocal_record (r : Recorder) (call : Call) (size : Nat) :
    (r.record call size).nextLocal = r.nextLocal :=
  rfl

@[simp] theorem openRegions_record (r : Recorder) (call : Call) (size : Nat) :
    (r.record call size).openRegions = r.openRegions :=
  rfl

end Recorder

end CilBuffer
