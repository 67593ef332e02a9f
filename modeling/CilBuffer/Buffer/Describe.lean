import CilBuffer.Buffer.Basic
import CilBuffer.Scope
import CilBuffer.Step.Text
import CilBuffer.Opcode.Forms
import CilBuffer.Opcode.Lookup
import CilBuffer.Text.Blank

/-!
# Descriptions

A buffer is described by one line of text for each step. Where a line loads or stores a local by
its slot, the name of the local that holds the slot is added to it. The slot is read off the line:
its first word is an opcode, and its second word the number, unless the opcode fixes it. The main
statements say what a description without annotations is made of.
-/

namespace CilBuffer

/-- What a line says about a slot. -/
inductive Reading where
  | nothing
  | slot (slot : UInt16)
  /-- A number that is no slot. -/
  | invalid (operand : String)
  deriving DecidableEq, Repr

namespace Reading

/-- A word that does not look like a number says nothing: it names a local. -/
def ofOperand (word : List Char) : Reading :=
  if Text.isNumeric word then
    match Text.slotNumber? word with
    | some number => .slot number
    | none => .invalid (String.ofList word)
  else .nothing

/-- The slot of an opcode that is followed by the given words. -/
def ofOpcode (op : Opcode) (operands : List (List Char)) : Reading :=
  match op.slotAddress?, operands with
  | some (.fixed number), _ => .slot number
  | some .operand, word :: _ => ofOperand word
  | some .operand, [] => .nothing
  | none, _ => .nothing

/-- The slot that the line loads or stores. -/
def ofLine (line : String) : Reading :=
  match Text.words line.toList with
  | [] => .nothing
  | word :: operands =>
    match Opcode.ofMnemonic? (String.ofList word) with
    | some op => ofOpcode op operands
    | none => .nothing

end Reading

/-- The text of a step without the white space at its end. -/
def Step.line (current : Opcodes) (step : Step) : String :=
  String.ofList (Text.trimEnd (step.text current).toList)

/-- The line of the step at the index, with the name of the local that holds the slot of the
reading. Conflicts between any two active records are reported before a missing record is. -/
def Reading.annotate (reading : Reading) (scopes : List LocalScope) (index : Nat)
    (line : String) : Except BufferError String :=
  match reading with
  | .nothing => .ok line
  | .invalid operand => .error (.invalidSlot operand index)
  | .slot number =>
    let active := LocalScope.activeAt scopes index
    match LocalScope.conflict? active with
    | some (first, second) =>
      .error (.conflictingScopes second.slot index first.localVar.name second.localVar.name)
    | none =>
      match active.find? (·.slot = number) with
      | some scope => .ok (line ++ " // " ++ scope.localVar.name)
      | none => .error (.missingScope number index)

/-- The line with the name of the local whose slot it mentions. -/
def annotate (scopes : List LocalScope) (index : Nat) (line : String) :
    Except BufferError String :=
  (Reading.ofLine line).annotate scopes index line

/-- The lines annotated in order, the first at the given index. -/
def annotateFrom (scopes : List LocalScope) (index : Nat) :
    List String → Except BufferError (List String)
  | [] => .ok []
  | line :: lines => do
    let first ← annotate scopes index line
    let rest ← annotateFrom scopes (index + 1) lines
    return first :: rest

namespace Buffer

/-- One line a step, without annotations. -/
def lines (b : Buffer) (current : Opcodes) : List String := b.steps.map (·.line current)

/-- One line a step, with the name of each local that is addressed by its slot. -/
def describe (b : Buffer) (current : Opcodes) (scopes : List LocalScope) :
    Except BufferError (List String) :=
  annotateFrom scopes 0 (b.lines current)

theorem length_lines (b : Buffer) (current : Opcodes) :
    (b.lines current).length = b.length :=
  List.length_map ..

end Buffer

end CilBuffer
