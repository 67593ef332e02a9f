import CilBuffer.Opcode.Basic

/-!
# Families of opcodes

Prefixes, branches with their short and long displacement forms, and the opcodes that load or
store a local. The main statement is what a long form has more than its short one.
-/

namespace CilBuffer

/-- Where an opcode that loads or stores a local finds the slot number. -/
inductive SlotAddress where
  | fixed (slot : UInt16)
  | operand
  deriving DecidableEq, Repr

namespace Opcode

def isPrefix : Opcode → Bool
  | .unaligned | .volatile | .tail | .constrained | .no | .readonly => true
  | _ => false

def isBranch (op : Opcode) : Bool :=
  op.operand = .shortBranchTarget ∨ op.operand = .branchTarget

/-- The branch with a 32-bit displacement in place of an 8-bit one. -/
def longForm? : Opcode → Option Opcode
  | .brS => some .br
  | .brfalseS => some .brfalse
  | .brtrueS => some .brtrue
  | .beqS => some .beq
  | .bgeS => some .bge
  | .bgtS => some .bgt
  | .bleS => some .ble
  | .bltS => some .blt
  | .bneUnS => some .bneUn
  | .bgeUnS => some .bgeUn
  | .bgtUnS => some .bgtUn
  | .bleUnS => some .bleUn
  | .bltUnS => some .bltUn
  | .leaveS => some .leave
  | _ => none

/-- The branch with an 8-bit displacement in place of a 32-bit one. -/
def shortForm? (op : Opcode) : Option Opcode := all.find? (·.longForm? = some op)

/-- How the opcode addresses the local it loads or stores. Loading an address is not included. -/
def slotAddress? : Opcode → Option SlotAddress
  | .ldloc_0 | .stloc_0 => some (.fixed 0)
  | .ldloc_1 | .stloc_1 => some (.fixed 1)
  | .ldloc_2 | .stloc_2 => some (.fixed 2)
  | .ldloc_3 | .stloc_3 => some (.fixed 3)
  | .ldlocS | .stlocS | .ldloc | .stloc => some .operand
  | _ => none

/-- The long form is three bytes longer: four bytes of displacement in place of one. -/
theorem size_of_longForm? {short long : Opcode} (h : short.longForm? = some long) :
    long.size = short.size + 3 := by
  cases short <;> cases h <;> rfl

end Opcode

end CilBuffer
