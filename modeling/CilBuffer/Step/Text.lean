import CilBuffer.Step.Basic
import CilBuffer.Opcode.Forms
import CilBuffer.Binary.Text
import CilBuffer.Text.Numeral
import CilBuffer.Text.Quoted

/-!
# The text of a step

Each step adds a piece of text to a trace: most a line, a definition nothing, and an opcode that
modifies the next instruction no more than the beginning of that instruction's line. The main
statement is that definitions are the only steps without text.

The lines are irreducible: a comparison of long literals, character by character, is slow.
-/

namespace CilBuffer

namespace Immediate

/-- The operand as it is written after the opcode. -/
def text : Immediate → String
  | .none => ""
  | .byte v => v.toNat.repr
  | .int16 v => Text.ofInt v.toInt
  | .int32 v => Text.ofInt v.toInt
  | .uint32 v => v.toNat.repr
  | .int64 v => Text.ofInt v.toInt
  | .uint64 v => v.toNat.repr
  | .single v => v.text
  | .double v => v.text
  | .method m => m.text
  | .constructor c => c.text
  | .type t => t.name
  | .field f => f.text
  | .string s => Text.quoted s
  | .signature s => s.text

/-- The operand can belong to a prefix. -/
def isShort : Immediate → Bool
  | .byte _ | .int16 _ | .int32 _ => true
  | _ => false

end Immediate

/-- A line that holds an opcode and the text of its operand. -/
@[irreducible] def operandLine (op : Opcode) (operand : String) : String :=
  op.mnemonic ++ " " ++ operand ++ "\n"

/-- The text of an opcode with its operand. A prefix goes before the next instruction on the same
line, and takes its operand with it between itself and a full stop. -/
@[irreducible] def instructionText (op : Opcode) (operand : Immediate) : String :=
  if operand = .none then
    if op.isPrefix then op.mnemonic else op.mnemonic ++ "\n"
  else if op.isPrefix && operand.isShort then op.mnemonic ++ operand.text ++ "."
  else operandLine op operand.text

/-- A label on a line of its own, after an empty line. -/
@[irreducible] def placedLabelText (label : Label) : String := "\n" ++ label.name ++ ":\n"

@[irreducible] def catchText (exception : TypeRef) : String :=
  "--BeginCatchBlock(" ++ exception.name ++ ")--\n"

/-- The piece of text that the step adds to a trace. -/
def Step.text (current : Opcodes) : Step → String
  | .instruction op operand => instructionText op operand
  | .access op localVar => operandLine op localVar.name
  | .branch slot target => operandLine (current slot) target.name
  | .switch slot targets => operandLine (current slot) (", ".intercalate (targets.map (·.name)))
  | .beginException _ => "--BeginExceptionBlock--\n"
  | .beginCatch exception => catchText exception
  | .endException => "--EndExceptionBlock--\n"
  | .endCatch => "--EndCatchBlock--\n"
  | .beginFinally => "--BeginFinallyBlock--\n"
  | .endFinally => "--EndFinallyBlock--\n"
  | .defineLabel _ => ""
  | .markLabel label => placedLabelText label
  | .declareLocal _ => ""
  | .anchor label => placedLabelText label

theorem line_ne_empty (line : String) : line ++ "\n" ≠ "" := by simp

theorem operandLine_ne_empty (op : Opcode) (operand : String) : operandLine op operand ≠ "" := by
  unfold operandLine
  exact line_ne_empty _

theorem instructionText_ne_empty (op : Opcode) (operand : Immediate) :
    instructionText op operand ≠ "" := by
  unfold instructionText
  split
  · split <;> simp [op.mnemonic_ne_empty]
  · split
    · simp
    · exact operandLine_ne_empty op operand.text

theorem Step.text_eq_empty_iff {current : Opcodes} {step : Step} :
    step.text current = "" ↔
      (∃ label, step = .defineLabel label) ∨ ∃ localVar, step = .declareLocal localVar := by
  cases step <;>
    simp [Step.text, placedLabelText, catchText, instructionText_ne_empty, operandLine_ne_empty]

end CilBuffer
