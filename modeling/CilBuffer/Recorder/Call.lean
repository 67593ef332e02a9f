import CilBuffer.Opcode.Marker
import CilBuffer.Binary.Format
import CilBuffer.Metadata.Member
import CilBuffer.Metadata.Signature

/-!
# Recorded calls

The calls that a code generation target receives. Labels and locals appear as the numbers that the
target gave them. A number of a label has 32 bits, and one of a local 16.
-/

namespace CilBuffer

/-- The bits of the numbers of labels, or of locals. -/
abbrev handleWidth : Bool → Nat
  | true => 32
  | false => 16

/-- The number that a target gives to a label, or to a local. -/
abbrev Handle (isLabel : Bool) : Type := BitVec (handleWidth isLabel)

abbrev LabelHandle : Type := Handle true

abbrev LocalHandle : Type := Handle false

/-- The operand of an instruction as a target receives it. -/
inductive Operand where
  | none
  | byte (value : UInt8)
  | int16 (value : Int16)
  | int32 (value : Int32)
  | int64 (value : Int64)
  | single (value : Float32Bits)
  | double (value : Float64Bits)
  | method (method : MethodRef)
  | constructor (constructor : ConstructorRef)
  | type (type : TypeRef)
  | field (field : FieldRef)
  | string (text : String)
  | signature (site : CallSite)
  | label (handle : LabelHandle)
  | labels (handles : List LabelHandle)
  | localVar (handle : LocalHandle)
  deriving DecidableEq, Repr

/-- A call, with the number that it created or that it uses. -/
inductive Call where
  | instruction (op : Opcode) (operand : Operand)
  | beginException (endLabel : LabelHandle)
  | beginCatch (exception : TypeRef)
  | beginFinally
  | endException
  | defineLabel (handle : LabelHandle)
  | markLabel (handle : LabelHandle)
  | declareLocal (type : TypeRef) (handle : LocalHandle)
  deriving DecidableEq, Repr

/-- The bytes of an instruction: each target of a switch table adds to them. -/
def instructionSize (op : Opcode) : Operand → Nat
  | .labels handles => op.size + switchTargetSize * handles.length
  | _ => op.size

/-- The opcode of an instruction. Calls for regions, labels and locals have none. -/
def Call.opcode? : Call → Option Opcode
  | .instruction op _ => some op
  | _ => none

/-- Equality of operands, floating-point numbers compared as numbers. -/
def Operand.equals : Operand → Operand → Bool
  | .single x, .single y => x.number.equals y.number
  | .double x, .double y => x.number.equals y.number
  | x, y => x = y

/-- Equality of calls, floating-point numbers compared as numbers. -/
def Call.equals : Call → Call → Bool
  | .instruction op x, .instruction op' y => op = op' && x.equals y
  | x, y => x = y

def Call.equalLists (xs ys : List Call) : Bool :=
  xs.length = ys.length && (xs.zip ys).all fun pair => pair.1.equals pair.2

end CilBuffer
