/-!
# Opcodes

The opcodes of a stack machine: each has an encoded value, a mnemonic and a layout of the operand
that follows it. Values up to `0xFF` take one byte, the others two, the first of which is `0xFE`.
The main statement is that `all` lists every opcode.
-/

namespace CilBuffer

/-- The layout of the operand that follows an opcode in the encoded stream. -/
inductive OperandKind where
  | none
  | shortBranchTarget
  | branchTarget
  | shortInt
  | int
  | int64
  | shortReal
  | real
  /-- A metadata token of a method or constructor. -/
  | method
  | field
  | type
  | string
  /-- A metadata token of a stand-alone call signature. -/
  | signature
  /-- A metadata token of any kind. -/
  | token
  /-- An 8-bit local or argument index. -/
  | shortSlot
  /-- A 16-bit local or argument index. -/
  | slot
  /-- A count of targets, then one 32-bit displacement for each. -/
  | switch
  deriving DecidableEq, Repr

/-- Operand width in bytes. Of a switch table this is the count alone. -/
def OperandKind.size : OperandKind → Nat
  | .none => 0
  | .shortBranchTarget | .shortInt | .shortSlot => 1
  | .slot => 2
  | .branchTarget | .int | .shortReal | .method | .field | .type | .string | .signature | .token
  | .switch => 4
  | .int64 | .real => 8

inductive Opcode where
  | nop | break | ldarg_0 | ldarg_1 | ldarg_2 | ldarg_3 | ldloc_0 | ldloc_1 | ldloc_2 | ldloc_3
  | stloc_0 | stloc_1 | stloc_2 | stloc_3 | ldargS | ldargaS | stargS | ldlocS | ldlocaS | stlocS
  | ldnull | ldcI4_m1 | ldcI4_0 | ldcI4_1 | ldcI4_2 | ldcI4_3 | ldcI4_4 | ldcI4_5 | ldcI4_6
  | ldcI4_7 | ldcI4_8 | ldcI4S | ldcI4 | ldcI8 | ldcR4 | ldcR8 | dup | pop | jmp | call | calli
  | ret | brS | brfalseS | brtrueS | beqS | bgeS | bgtS | bleS | bltS | bneUnS | bgeUnS | bgtUnS
  | bleUnS | bltUnS | br | brfalse | brtrue | beq | bge | bgt | ble | blt | bneUn | bgeUn | bgtUn
  | bleUn | bltUn | switch | ldindI1 | ldindU1 | ldindI2 | ldindU2 | ldindI4 | ldindU4 | ldindI8
  | ldindI | ldindR4 | ldindR8 | ldindRef | stindRef | stindI1 | stindI2 | stindI4 | stindI8
  | stindR4 | stindR8 | add | sub | mul | div | divUn | rem | remUn | and | or | xor | shl | shr
  | shrUn | neg | not | convI1 | convI2 | convI4 | convI8 | convR4 | convR8 | convU4 | convU8
  | callvirt | cpobj | ldobj | ldstr | newobj | castclass | isinst | convRUn | unbox | throw
  | ldfld | ldflda | stfld | ldsfld | ldsflda | stsfld | stobj | convOvfI1Un | convOvfI2Un
  | convOvfI4Un | convOvfI8Un | convOvfU1Un | convOvfU2Un | convOvfU4Un | convOvfU8Un | convOvfIUn
  | convOvfUUn | box | newarr | ldlen | ldelema | ldelemI1 | ldelemU1 | ldelemI2 | ldelemU2
  | ldelemI4 | ldelemU4 | ldelemI8 | ldelemI | ldelemR4 | ldelemR8 | ldelemRef | stelemI
  | stelemI1 | stelemI2 | stelemI4 | stelemI8 | stelemR4 | stelemR8 | stelemRef | ldelem | stelem
  | unboxAny | convOvfI1 | convOvfU1 | convOvfI2 | convOvfU2 | convOvfI4 | convOvfU4 | convOvfI8
  | convOvfU8 | refanyval | ckfinite | mkrefany | ldtoken | convU2 | convU1 | convI | convOvfI
  | convOvfU | addOvf | addOvfUn | mulOvf | mulOvfUn | subOvf | subOvfUn | endfinally | leave
  | leaveS | stindI | convU | arglist | ceq | cgt | cgtUn | clt | cltUn | ldftn | ldvirtftn
  | ldarg | ldarga | starg | ldloc | ldloca | stloc | localloc | endfilter | unaligned | volatile
  | tail | initobj | constrained | cpblk | initblk | no | rethrow | sizeof | refanytype | readonly
  deriving DecidableEq, Repr

namespace Opcode

structure Row where
  value : UInt16
  mnemonic : String
  operand : OperandKind

def row : Opcode → Row
  | .nop => ⟨0x00, "nop", .none⟩
  | .break => ⟨0x01, "break", .none⟩
  | .ldarg_0 => ⟨0x02, "ldarg.0", .none⟩
  | .ldarg_1 => ⟨0x03, "ldarg.1", .none⟩
  | .ldarg_2 => ⟨0x04, "ldarg.2", .none⟩
  | .ldarg_3 => ⟨0x05, "ldarg.3", .none⟩
  | .ldloc_0 => ⟨0x06, "ldloc.0", .none⟩
  | .ldloc_1 => ⟨0x07, "ldloc.1", .none⟩
  | .ldloc_2 => ⟨0x08, "ldloc.2", .none⟩
  | .ldloc_3 => ⟨0x09, "ldloc.3", .none⟩
  | .stloc_0 => ⟨0x0A, "stloc.0", .none⟩
  | .stloc_1 => ⟨0x0B, "stloc.1", .none⟩
  | .stloc_2 => ⟨0x0C, "stloc.2", .none⟩
  | .stloc_3 => ⟨0x0D, "stloc.3", .none⟩
  | .ldargS => ⟨0x0E, "ldarg.s", .shortSlot⟩
  | .ldargaS => ⟨0x0F, "ldarga.s", .shortSlot⟩
  | .stargS => ⟨0x10, "starg.s", .shortSlot⟩
  | .ldlocS => ⟨0x11, "ldloc.s", .shortSlot⟩
  | .ldlocaS => ⟨0x12, "ldloca.s", .shortSlot⟩
  | .stlocS => ⟨0x13, "stloc.s", .shortSlot⟩
  | .ldnull => ⟨0x14, "ldnull", .none⟩
  | .ldcI4_m1 => ⟨0x15, "ldc.i4.m1", .none⟩
  | .ldcI4_0 => ⟨0x16, "ldc.i4.0", .none⟩
  | .ldcI4_1 => ⟨0x17, "ldc.i4.1", .none⟩
  | .ldcI4_2 => ⟨0x18, "ldc.i4.2", .none⟩
  | .ldcI4_3 => ⟨0x19, "ldc.i4.3", .none⟩
  | .ldcI4_4 => ⟨0x1A, "ldc.i4.4", .none⟩
  | .ldcI4_5 => ⟨0x1B, "ldc.i4.5", .none⟩
  | .ldcI4_6 => ⟨0x1C, "ldc.i4.6", .none⟩
  | .ldcI4_7 => ⟨0x1D, "ldc.i4.7", .none⟩
  | .ldcI4_8 => ⟨0x1E, "ldc.i4.8", .none⟩
  | .ldcI4S => ⟨0x1F, "ldc.i4.s", .shortInt⟩
  | .ldcI4 => ⟨0x20, "ldc.i4", .int⟩
  | .ldcI8 => ⟨0x21, "ldc.i8", .int64⟩
  | .ldcR4 => ⟨0x22, "ldc.r4", .shortReal⟩
  | .ldcR8 => ⟨0x23, "ldc.r8", .real⟩
  | .dup => ⟨0x25, "dup", .none⟩
  | .pop => ⟨0x26, "pop", .none⟩
  | .jmp => ⟨0x27, "jmp", .method⟩
  | .call => ⟨0x28, "call", .method⟩
  | .calli => ⟨0x29, "calli", .signature⟩
  | .ret => ⟨0x2A, "ret", .none⟩
  | .brS => ⟨0x2B, "br.s", .shortBranchTarget⟩
  | .brfalseS => ⟨0x2C, "brfalse.s", .shortBranchTarget⟩
  | .brtrueS => ⟨0x2D, "brtrue.s", .shortBranchTarget⟩
  | .beqS => ⟨0x2E, "beq.s", .shortBranchTarget⟩
  | .bgeS => ⟨0x2F, "bge.s", .shortBranchTarget⟩
  | .bgtS => ⟨0x30, "bgt.s", .shortBranchTarget⟩
  | .bleS => ⟨0x31, "ble.s", .shortBranchTarget⟩
  | .bltS => ⟨0x32, "blt.s", .shortBranchTarget⟩
  | .bneUnS => ⟨0x33, "bne.un.s", .shortBranchTarget⟩
  | .bgeUnS => ⟨0x34, "bge.un.s", .shortBranchTarget⟩
  | .bgtUnS => ⟨0x35, "bgt.un.s", .shortBranchTarget⟩
  | .bleUnS => ⟨0x36, "ble.un.s", .shortBranchTarget⟩
  | .bltUnS => ⟨0x37, "blt.un.s", .shortBranchTarget⟩
  | .br => ⟨0x38, "br", .branchTarget⟩
  | .brfalse => ⟨0x39, "brfalse", .branchTarget⟩
  | .brtrue => ⟨0x3A, "brtrue", .branchTarget⟩
  | .beq => ⟨0x3B, "beq", .branchTarget⟩
  | .bge => ⟨0x3C, "bge", .branchTarget⟩
  | .bgt => ⟨0x3D, "bgt", .branchTarget⟩
  | .ble => ⟨0x3E, "ble", .branchTarget⟩
  | .blt => ⟨0x3F, "blt", .branchTarget⟩
  | .bneUn => ⟨0x40, "bne.un", .branchTarget⟩
  | .bgeUn => ⟨0x41, "bge.un", .branchTarget⟩
  | .bgtUn => ⟨0x42, "bgt.un", .branchTarget⟩
  | .bleUn => ⟨0x43, "ble.un", .branchTarget⟩
  | .bltUn => ⟨0x44, "blt.un", .branchTarget⟩
  | .switch => ⟨0x45, "switch", .switch⟩
  | .ldindI1 => ⟨0x46, "ldind.i1", .none⟩
  | .ldindU1 => ⟨0x47, "ldind.u1", .none⟩
  | .ldindI2 => ⟨0x48, "ldind.i2", .none⟩
  | .ldindU2 => ⟨0x49, "ldind.u2", .none⟩
  | .ldindI4 => ⟨0x4A, "ldind.i4", .none⟩
  | .ldindU4 => ⟨0x4B, "ldind.u4", .none⟩
  | .ldindI8 => ⟨0x4C, "ldind.i8", .none⟩
  | .ldindI => ⟨0x4D, "ldind.i", .none⟩
  | .ldindR4 => ⟨0x4E, "ldind.r4", .none⟩
  | .ldindR8 => ⟨0x4F, "ldind.r8", .none⟩
  | .ldindRef => ⟨0x50, "ldind.ref", .none⟩
  | .stindRef => ⟨0x51, "stind.ref", .none⟩
  | .stindI1 => ⟨0x52, "stind.i1", .none⟩
  | .stindI2 => ⟨0x53, "stind.i2", .none⟩
  | .stindI4 => ⟨0x54, "stind.i4", .none⟩
  | .stindI8 => ⟨0x55, "stind.i8", .none⟩
  | .stindR4 => ⟨0x56, "stind.r4", .none⟩
  | .stindR8 => ⟨0x57, "stind.r8", .none⟩
  | .add => ⟨0x58, "add", .none⟩
  | .sub => ⟨0x59, "sub", .none⟩
  | .mul => ⟨0x5A, "mul", .none⟩
  | .div => ⟨0x5B, "div", .none⟩
  | .divUn => ⟨0x5C, "div.un", .none⟩
  | .rem => ⟨0x5D, "rem", .none⟩
  | .remUn => ⟨0x5E, "rem.un", .none⟩
  | .and => ⟨0x5F, "and", .none⟩
  | .or => ⟨0x60, "or", .none⟩
  | .xor => ⟨0x61, "xor", .none⟩
  | .shl => ⟨0x62, "shl", .none⟩
  | .shr => ⟨0x63, "shr", .none⟩
  | .shrUn => ⟨0x64, "shr.un", .none⟩
  | .neg => ⟨0x65, "neg", .none⟩
  | .not => ⟨0x66, "not", .none⟩
  | .convI1 => ⟨0x67, "conv.i1", .none⟩
  | .convI2 => ⟨0x68, "conv.i2", .none⟩
  | .convI4 => ⟨0x69, "conv.i4", .none⟩
  | .convI8 => ⟨0x6A, "conv.i8", .none⟩
  | .convR4 => ⟨0x6B, "conv.r4", .none⟩
  | .convR8 => ⟨0x6C, "conv.r8", .none⟩
  | .convU4 => ⟨0x6D, "conv.u4", .none⟩
  | .convU8 => ⟨0x6E, "conv.u8", .none⟩
  | .callvirt => ⟨0x6F, "callvirt", .method⟩
  | .cpobj => ⟨0x70, "cpobj", .type⟩
  | .ldobj => ⟨0x71, "ldobj", .type⟩
  | .ldstr => ⟨0x72, "ldstr", .string⟩
  | .newobj => ⟨0x73, "newobj", .method⟩
  | .castclass => ⟨0x74, "castclass", .type⟩
  | .isinst => ⟨0x75, "isinst", .type⟩
  | .convRUn => ⟨0x76, "conv.r.un", .none⟩
  | .unbox => ⟨0x79, "unbox", .type⟩
  | .throw => ⟨0x7A, "throw", .none⟩
  | .ldfld => ⟨0x7B, "ldfld", .field⟩
  | .ldflda => ⟨0x7C, "ldflda", .field⟩
  | .stfld => ⟨0x7D, "stfld", .field⟩
  | .ldsfld => ⟨0x7E, "ldsfld", .field⟩
  | .ldsflda => ⟨0x7F, "ldsflda", .field⟩
  | .stsfld => ⟨0x80, "stsfld", .field⟩
  | .stobj => ⟨0x81, "stobj", .type⟩
  | .convOvfI1Un => ⟨0x82, "conv.ovf.i1.un", .none⟩
  | .convOvfI2Un => ⟨0x83, "conv.ovf.i2.un", .none⟩
  | .convOvfI4Un => ⟨0x84, "conv.ovf.i4.un", .none⟩
  | .convOvfI8Un => ⟨0x85, "conv.ovf.i8.un", .none⟩
  | .convOvfU1Un => ⟨0x86, "conv.ovf.u1.un", .none⟩
  | .convOvfU2Un => ⟨0x87, "conv.ovf.u2.un", .none⟩
  | .convOvfU4Un => ⟨0x88, "conv.ovf.u4.un", .none⟩
  | .convOvfU8Un => ⟨0x89, "conv.ovf.u8.un", .none⟩
  | .convOvfIUn => ⟨0x8A, "conv.ovf.i.un", .none⟩
  | .convOvfUUn => ⟨0x8B, "conv.ovf.u.un", .none⟩
  | .box => ⟨0x8C, "box", .type⟩
  | .newarr => ⟨0x8D, "newarr", .type⟩
  | .ldlen => ⟨0x8E, "ldlen", .none⟩
  | .ldelema => ⟨0x8F, "ldelema", .type⟩
  | .ldelemI1 => ⟨0x90, "ldelem.i1", .none⟩
  | .ldelemU1 => ⟨0x91, "ldelem.u1", .none⟩
  | .ldelemI2 => ⟨0x92, "ldelem.i2", .none⟩
  | .ldelemU2 => ⟨0x93, "ldelem.u2", .none⟩
  | .ldelemI4 => ⟨0x94, "ldelem.i4", .none⟩
  | .ldelemU4 => ⟨0x95, "ldelem.u4", .none⟩
  | .ldelemI8 => ⟨0x96, "ldelem.i8", .none⟩
  | .ldelemI => ⟨0x97, "ldelem.i", .none⟩
  | .ldelemR4 => ⟨0x98, "ldelem.r4", .none⟩
  | .ldelemR8 => ⟨0x99, "ldelem.r8", .none⟩
  | .ldelemRef => ⟨0x9A, "ldelem.ref", .none⟩
  | .stelemI => ⟨0x9B, "stelem.i", .none⟩
  | .stelemI1 => ⟨0x9C, "stelem.i1", .none⟩
  | .stelemI2 => ⟨0x9D, "stelem.i2", .none⟩
  | .stelemI4 => ⟨0x9E, "stelem.i4", .none⟩
  | .stelemI8 => ⟨0x9F, "stelem.i8", .none⟩
  | .stelemR4 => ⟨0xA0, "stelem.r4", .none⟩
  | .stelemR8 => ⟨0xA1, "stelem.r8", .none⟩
  | .stelemRef => ⟨0xA2, "stelem.ref", .none⟩
  | .ldelem => ⟨0xA3, "ldelem", .type⟩
  | .stelem => ⟨0xA4, "stelem", .type⟩
  | .unboxAny => ⟨0xA5, "unbox.any", .type⟩
  | .convOvfI1 => ⟨0xB3, "conv.ovf.i1", .none⟩
  | .convOvfU1 => ⟨0xB4, "conv.ovf.u1", .none⟩
  | .convOvfI2 => ⟨0xB5, "conv.ovf.i2", .none⟩
  | .convOvfU2 => ⟨0xB6, "conv.ovf.u2", .none⟩
  | .convOvfI4 => ⟨0xB7, "conv.ovf.i4", .none⟩
  | .convOvfU4 => ⟨0xB8, "conv.ovf.u4", .none⟩
  | .convOvfI8 => ⟨0xB9, "conv.ovf.i8", .none⟩
  | .convOvfU8 => ⟨0xBA, "conv.ovf.u8", .none⟩
  | .refanyval => ⟨0xC2, "refanyval", .type⟩
  | .ckfinite => ⟨0xC3, "ckfinite", .none⟩
  | .mkrefany => ⟨0xC6, "mkrefany", .type⟩
  | .ldtoken => ⟨0xD0, "ldtoken", .token⟩
  | .convU2 => ⟨0xD1, "conv.u2", .none⟩
  | .convU1 => ⟨0xD2, "conv.u1", .none⟩
  | .convI => ⟨0xD3, "conv.i", .none⟩
  | .convOvfI => ⟨0xD4, "conv.ovf.i", .none⟩
  | .convOvfU => ⟨0xD5, "conv.ovf.u", .none⟩
  | .addOvf => ⟨0xD6, "add.ovf", .none⟩
  | .addOvfUn => ⟨0xD7, "add.ovf.un", .none⟩
  | .mulOvf => ⟨0xD8, "mul.ovf", .none⟩
  | .mulOvfUn => ⟨0xD9, "mul.ovf.un", .none⟩
  | .subOvf => ⟨0xDA, "sub.ovf", .none⟩
  | .subOvfUn => ⟨0xDB, "sub.ovf.un", .none⟩
  | .endfinally => ⟨0xDC, "endfinally", .none⟩
  | .leave => ⟨0xDD, "leave", .branchTarget⟩
  | .leaveS => ⟨0xDE, "leave.s", .shortBranchTarget⟩
  | .stindI => ⟨0xDF, "stind.i", .none⟩
  | .convU => ⟨0xE0, "conv.u", .none⟩
  | .arglist => ⟨0xFE00, "arglist", .none⟩
  | .ceq => ⟨0xFE01, "ceq", .none⟩
  | .cgt => ⟨0xFE02, "cgt", .none⟩
  | .cgtUn => ⟨0xFE03, "cgt.un", .none⟩
  | .clt => ⟨0xFE04, "clt", .none⟩
  | .cltUn => ⟨0xFE05, "clt.un", .none⟩
  | .ldftn => ⟨0xFE06, "ldftn", .method⟩
  | .ldvirtftn => ⟨0xFE07, "ldvirtftn", .method⟩
  | .ldarg => ⟨0xFE09, "ldarg", .slot⟩
  | .ldarga => ⟨0xFE0A, "ldarga", .slot⟩
  | .starg => ⟨0xFE0B, "starg", .slot⟩
  | .ldloc => ⟨0xFE0C, "ldloc", .slot⟩
  | .ldloca => ⟨0xFE0D, "ldloca", .slot⟩
  | .stloc => ⟨0xFE0E, "stloc", .slot⟩
  | .localloc => ⟨0xFE0F, "localloc", .none⟩
  | .endfilter => ⟨0xFE11, "endfilter", .none⟩
  | .unaligned => ⟨0xFE12, "unaligned.", .shortInt⟩
  | .volatile => ⟨0xFE13, "volatile.", .none⟩
  | .tail => ⟨0xFE14, "tail.", .none⟩
  | .initobj => ⟨0xFE15, "initobj", .type⟩
  | .constrained => ⟨0xFE16, "constrained.", .type⟩
  | .cpblk => ⟨0xFE17, "cpblk", .none⟩
  | .initblk => ⟨0xFE18, "initblk", .none⟩
  | .no => ⟨0xFE19, "no.", .shortInt⟩
  | .rethrow => ⟨0xFE1A, "rethrow", .none⟩
  | .sizeof => ⟨0xFE1C, "sizeof", .type⟩
  | .refanytype => ⟨0xFE1D, "refanytype", .none⟩
  | .readonly => ⟨0xFE1E, "readonly.", .none⟩

/-- Every opcode, in the order of the encoded values. -/
def all : List Opcode :=
  [.nop, .break, .ldarg_0, .ldarg_1, .ldarg_2, .ldarg_3, .ldloc_0, .ldloc_1, .ldloc_2, .ldloc_3,
   .stloc_0, .stloc_1, .stloc_2, .stloc_3, .ldargS, .ldargaS, .stargS, .ldlocS, .ldlocaS, .stlocS,
   .ldnull, .ldcI4_m1, .ldcI4_0, .ldcI4_1, .ldcI4_2, .ldcI4_3, .ldcI4_4, .ldcI4_5, .ldcI4_6,
   .ldcI4_7, .ldcI4_8, .ldcI4S, .ldcI4, .ldcI8, .ldcR4, .ldcR8, .dup, .pop, .jmp, .call, .calli,
   .ret, .brS, .brfalseS, .brtrueS, .beqS, .bgeS, .bgtS, .bleS, .bltS, .bneUnS, .bgeUnS, .bgtUnS,
   .bleUnS, .bltUnS, .br, .brfalse, .brtrue, .beq, .bge, .bgt, .ble, .blt, .bneUn, .bgeUn, .bgtUn,
   .bleUn, .bltUn, .switch, .ldindI1, .ldindU1, .ldindI2, .ldindU2, .ldindI4, .ldindU4, .ldindI8,
   .ldindI, .ldindR4, .ldindR8, .ldindRef, .stindRef, .stindI1, .stindI2, .stindI4, .stindI8,
   .stindR4, .stindR8, .add, .sub, .mul, .div, .divUn, .rem, .remUn, .and, .or, .xor, .shl, .shr,
   .shrUn, .neg, .not, .convI1, .convI2, .convI4, .convI8, .convR4, .convR8, .convU4, .convU8,
   .callvirt, .cpobj, .ldobj, .ldstr, .newobj, .castclass, .isinst, .convRUn, .unbox, .throw,
   .ldfld, .ldflda, .stfld, .ldsfld, .ldsflda, .stsfld, .stobj, .convOvfI1Un, .convOvfI2Un,
   .convOvfI4Un, .convOvfI8Un, .convOvfU1Un, .convOvfU2Un, .convOvfU4Un, .convOvfU8Un,
   .convOvfIUn, .convOvfUUn, .box, .newarr, .ldlen, .ldelema, .ldelemI1, .ldelemU1, .ldelemI2,
   .ldelemU2, .ldelemI4, .ldelemU4, .ldelemI8, .ldelemI, .ldelemR4, .ldelemR8, .ldelemRef,
   .stelemI, .stelemI1, .stelemI2, .stelemI4, .stelemI8, .stelemR4, .stelemR8, .stelemRef,
   .ldelem, .stelem, .unboxAny, .convOvfI1, .convOvfU1, .convOvfI2, .convOvfU2, .convOvfI4,
   .convOvfU4, .convOvfI8, .convOvfU8, .refanyval, .ckfinite, .mkrefany, .ldtoken, .convU2,
   .convU1, .convI, .convOvfI, .convOvfU, .addOvf, .addOvfUn, .mulOvf, .mulOvfUn, .subOvf,
   .subOvfUn, .endfinally, .leave, .leaveS, .stindI, .convU, .arglist, .ceq, .cgt, .cgtUn, .clt,
   .cltUn, .ldftn, .ldvirtftn, .ldarg, .ldarga, .starg, .ldloc, .ldloca, .stloc, .localloc,
   .endfilter, .unaligned, .volatile, .tail, .initobj, .constrained, .cpblk, .initblk, .no,
   .rethrow, .sizeof, .refanytype, .readonly]

/-- The encoded value, with the escape byte of a two-byte opcode on top. -/
def value (op : Opcode) : UInt16 := op.row.value

/-- The assembler's name of the opcode. -/
def mnemonic (op : Opcode) : String := op.row.mnemonic

def operand (op : Opcode) : OperandKind := op.row.operand

def opcodeSize (op : Opcode) : Nat := if 0xFF < op.value then 2 else 1

/-- The bytes of opcode and operand together, the targets of a switch not included. -/
def size (op : Opcode) : Nat := op.opcodeSize + op.operand.size

/-- Mnemonic and value, the value in upper-case hexadecimal digits, two at least. -/
def textWithValue (op : Opcode) : String :=
  let digits := (Nat.toDigits 16 op.value.toNat).map Char.toUpper
  op.mnemonic ++ "(0x" ++ String.ofList (List.replicate (2 - digits.length) '0' ++ digits) ++ ")"

theorem mem_all (op : Opcode) : op ∈ all :=
  List.mem_of_getElem? (i := op.ctorIdx) (by cases op <;> rfl)

theorem mnemonic_ne_empty (op : Opcode) : op.mnemonic ≠ "" := by
  cases op <;> decide

theorem opcodeSize_pos (op : Opcode) : 0 < op.opcodeSize := by
  unfold opcodeSize; split <;> decide

theorem size_pos (op : Opcode) : 0 < op.size :=
  Nat.lt_of_lt_of_le op.opcodeSize_pos (Nat.le_add_right ..)

end Opcode

end CilBuffer
