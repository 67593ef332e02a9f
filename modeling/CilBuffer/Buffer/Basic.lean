import CilBuffer.Error
import CilBuffer.Offsets
import CilBuffer.Step.Basic

/-!
# Buffers

A buffer is a sequence of steps that can be edited at any place, with a table of the offsets at
which the steps begin. An edit empties the table, and the replacement of an opcode makes it stale.
The main statements say which indices the operations admit.
-/

namespace CilBuffer

/-- Recorded steps in order, with what is known of their offsets. -/
structure Buffer where
  steps : List Step
  offsets : OffsetTable
  deriving DecidableEq, Repr

namespace Buffer

/-- A buffer of the given steps, of which no offset is known. -/
def ofSteps (steps : List Step) : Buffer := ⟨steps, .empty⟩

def empty : Buffer := ofSteps []

def length (b : Buffer) : Nat := b.steps.length

def append (b : Buffer) (step : Step) : Buffer := ofSteps (b.steps ++ [step])

/-- Puts a step before the one at the index, or at the end if the index is the length. -/
def insert (b : Buffer) (index : Nat) (step : Step) : Except BufferError Buffer := do
  BufferError.checkIndex .insert index (.positions b.length)
  return ofSteps (b.steps.insertIdx index step)

def remove (b : Buffer) (index : Nat) : Except BufferError (Step × Buffer) :=
  match b.steps[index]? with
  | some step => .ok (step, ofSteps (b.steps.eraseIdx index))
  | none => .error (.indexOutOfRange .remove index (.elements b.length))

/-- The replaceable opcode of the step at the index, if there is one. -/
def slotAt? (b : Buffer) (index : Nat) : Option OpcodeSlot := b.steps[index]?.bind (·.slot?)

/-- An opcode of the buffer was replaced. -/
def markStale (b : Buffer) : Buffer := { b with offsets := { b.offsets with stale := true } }

/-- The sizes of the steps, with the opcodes in effect. -/
def sizes (b : Buffer) (current : Opcodes) : List Nat := b.steps.map (·.size current)

/-- The size of the first steps, as many as `position` says. -/
def cumulativeLength (b : Buffer) (current : Opcodes) (position : Nat) :
    Except BufferError Nat × Buffer :=
  match BufferError.checkIndex .offsetQuery position (.positions b.length) with
  | .error e => (.error e, b)
  | .ok () =>
    let (size, offsets) := b.offsets.lengthTo position (b.sizes current)
    (.ok size, { b with offsets })

/-- The bytes from the beginning of one step to the beginning of another, negative if the second
comes first. What the first question fills in stays if the second is refused. -/
def byteDistance (b : Buffer) (current : Opcodes) (start stop : Nat) :
    Except BufferError Int × Buffer :=
  match b.cumulativeLength current start with
  | (.error e, b) => (.error e, b)
  | (.ok below, b) =>
    match b.cumulativeLength current stop with
    | (.error e, b) => (.error e, b)
    | (.ok above, b) => (.ok (above - below), b)

theorem insert_of_le {b : Buffer} {index : Nat} (h : index ≤ b.length) (step : Step) :
    b.insert index step = .ok (ofSteps (b.steps.insertIdx index step)) := by
  have ok : BufferError.checkIndex .insert index (.positions b.length) = .ok () :=
    BufferError.checkIndex_eq_ok_iff.2 (ValidRange.contains_positions.2 h)
  simp [insert, ok, bind, Except.bind, pure, Except.pure]

theorem remove_of_lt {b : Buffer} {index : Nat} (h : index < b.length) :
    b.remove index = .ok (b.steps[index], ofSteps (b.steps.eraseIdx index)) := by
  have found : b.steps[index]? = some b.steps[index] := List.getElem?_eq_getElem h
  simp [remove, found]

theorem remove_of_ge {b : Buffer} {index : Nat} (h : b.length ≤ index) :
    b.remove index = .error (.indexOutOfRange .remove index (.elements b.length)) := by
  have missing : b.steps[index]? = none := List.getElem?_eq_none h
  simp [remove, missing]

theorem cumulativeLength_of_le {b : Buffer} {position : Nat} (h : position ≤ b.length)
    (current : Opcodes) :
    b.cumulativeLength current position =
      (.ok (b.offsets.lengthTo position (b.sizes current)).1,
        { b with offsets := (b.offsets.lengthTo position (b.sizes current)).2 }) := by
  have ok : BufferError.checkIndex .offsetQuery position (.positions b.length) = .ok () :=
    BufferError.checkIndex_eq_ok_iff.2 (ValidRange.contains_positions.2 h)
  simp only [cumulativeLength, ok]

theorem cumulativeLength_of_gt {b : Buffer} {position : Nat} (h : b.length < position)
    (current : Opcodes) :
    b.cumulativeLength current position =
      (.error (.indexOutOfRange .offsetQuery position (.positions b.length)), b) := by
  have out : ¬ (ValidRange.positions b.length).contains position = true := by
    rw [ValidRange.contains_positions]
    omega
  simp only [cumulativeLength, BufferError.checkIndex, if_neg out]

theorem byteDistance_of_start_gt {b : Buffer} {start : Nat} (h : b.length < start)
    (current : Opcodes) (stop : Nat) :
    b.byteDistance current start stop
      = (.error (.indexOutOfRange .offsetQuery start (.positions b.length)), b) := by
  simp only [byteDistance, cumulativeLength_of_gt h]

end Buffer

end CilBuffer
