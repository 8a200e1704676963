import CilCodec.Opcode.Basic

/-!
# The table of opcodes

The defined opcodes in two pages of slots: one for opcodes of a single byte and one for the byte
after the escape. The main statements say that a slot holds its own byte, and that what it defines
is a row of its page.
-/
namespace CilCodec

structure Opcode.Row where
  value : UInt8
  mnemonic : String
  kind : OperandKind
  flow : Flow

namespace Opcode

/-- The first byte of every two-byte opcode. -/
def escape : UInt8 := 0xFE

def singleByteRows : List Row := [
  ⟨0x00, "nop", .inlineNone, .sequential⟩,
  ⟨0x01, "break", .inlineNone, .sequential⟩,
  ⟨0x02, "ldarg.0", .inlineNone, .sequential⟩,
  ⟨0x03, "ldarg.1", .inlineNone, .sequential⟩,
  ⟨0x04, "ldarg.2", .inlineNone, .sequential⟩,
  ⟨0x05, "ldarg.3", .inlineNone, .sequential⟩,
  ⟨0x06, "ldloc.0", .inlineNone, .sequential⟩,
  ⟨0x07, "ldloc.1", .inlineNone, .sequential⟩,
  ⟨0x08, "ldloc.2", .inlineNone, .sequential⟩,
  ⟨0x09, "ldloc.3", .inlineNone, .sequential⟩,
  ⟨0x0A, "stloc.0", .inlineNone, .sequential⟩,
  ⟨0x0B, "stloc.1", .inlineNone, .sequential⟩,
  ⟨0x0C, "stloc.2", .inlineNone, .sequential⟩,
  ⟨0x0D, "stloc.3", .inlineNone, .sequential⟩,
  ⟨0x0E, "ldarg.s", .shortInlineVar, .sequential⟩,
  ⟨0x0F, "ldarga.s", .shortInlineVar, .sequential⟩,
  ⟨0x10, "starg.s", .shortInlineVar, .sequential⟩,
  ⟨0x11, "ldloc.s", .shortInlineVar, .sequential⟩,
  ⟨0x12, "ldloca.s", .shortInlineVar, .sequential⟩,
  ⟨0x13, "stloc.s", .shortInlineVar, .sequential⟩,
  ⟨0x14, "ldnull", .inlineNone, .sequential⟩,
  ⟨0x15, "ldc.i4.m1", .inlineNone, .sequential⟩,
  ⟨0x16, "ldc.i4.0", .inlineNone, .sequential⟩,
  ⟨0x17, "ldc.i4.1", .inlineNone, .sequential⟩,
  ⟨0x18, "ldc.i4.2", .inlineNone, .sequential⟩,
  ⟨0x19, "ldc.i4.3", .inlineNone, .sequential⟩,
  ⟨0x1A, "ldc.i4.4", .inlineNone, .sequential⟩,
  ⟨0x1B, "ldc.i4.5", .inlineNone, .sequential⟩,
  ⟨0x1C, "ldc.i4.6", .inlineNone, .sequential⟩,
  ⟨0x1D, "ldc.i4.7", .inlineNone, .sequential⟩,
  ⟨0x1E, "ldc.i4.8", .inlineNone, .sequential⟩,
  ⟨0x1F, "ldc.i4.s", .shortInlineI, .sequential⟩,
  ⟨0x20, "ldc.i4", .inlineI, .sequential⟩,
  ⟨0x21, "ldc.i8", .inlineI8, .sequential⟩,
  ⟨0x22, "ldc.r4", .shortInlineR, .sequential⟩,
  ⟨0x23, "ldc.r8", .inlineR, .sequential⟩,
  ⟨0x25, "dup", .inlineNone, .sequential⟩,
  ⟨0x26, "pop", .inlineNone, .sequential⟩,
  ⟨0x27, "jmp", .inlineMethod, .exit⟩,
  ⟨0x28, "call", .inlineMethod, .call⟩,
  ⟨0x29, "calli", .inlineSig, .call⟩,
  ⟨0x2A, "ret", .inlineNone, .exit⟩,
  ⟨0x2B, "br.s", .shortInlineBrTarget, .unconditionalBranch⟩,
  ⟨0x2C, "brfalse.s", .shortInlineBrTarget, .conditionalBranch⟩,
  ⟨0x2D, "brtrue.s", .shortInlineBrTarget, .conditionalBranch⟩,
  ⟨0x2E, "beq.s", .shortInlineBrTarget, .conditionalBranch⟩,
  ⟨0x2F, "bge.s", .shortInlineBrTarget, .conditionalBranch⟩,
  ⟨0x30, "bgt.s", .shortInlineBrTarget, .conditionalBranch⟩,
  ⟨0x31, "ble.s", .shortInlineBrTarget, .conditionalBranch⟩,
  ⟨0x32, "blt.s", .shortInlineBrTarget, .conditionalBranch⟩,
  ⟨0x33, "bne.un.s", .shortInlineBrTarget, .conditionalBranch⟩,
  ⟨0x34, "bge.un.s", .shortInlineBrTarget, .conditionalBranch⟩,
  ⟨0x35, "bgt.un.s", .shortInlineBrTarget, .conditionalBranch⟩,
  ⟨0x36, "ble.un.s", .shortInlineBrTarget, .conditionalBranch⟩,
  ⟨0x37, "blt.un.s", .shortInlineBrTarget, .conditionalBranch⟩,
  ⟨0x38, "br", .inlineBrTarget, .unconditionalBranch⟩,
  ⟨0x39, "brfalse", .inlineBrTarget, .conditionalBranch⟩,
  ⟨0x3A, "brtrue", .inlineBrTarget, .conditionalBranch⟩,
  ⟨0x3B, "beq", .inlineBrTarget, .conditionalBranch⟩,
  ⟨0x3C, "bge", .inlineBrTarget, .conditionalBranch⟩,
  ⟨0x3D, "bgt", .inlineBrTarget, .conditionalBranch⟩,
  ⟨0x3E, "ble", .inlineBrTarget, .conditionalBranch⟩,
  ⟨0x3F, "blt", .inlineBrTarget, .conditionalBranch⟩,
  ⟨0x40, "bne.un", .inlineBrTarget, .conditionalBranch⟩,
  ⟨0x41, "bge.un", .inlineBrTarget, .conditionalBranch⟩,
  ⟨0x42, "bgt.un", .inlineBrTarget, .conditionalBranch⟩,
  ⟨0x43, "ble.un", .inlineBrTarget, .conditionalBranch⟩,
  ⟨0x44, "blt.un", .inlineBrTarget, .conditionalBranch⟩,
  ⟨0x45, "switch", .inlineSwitch, .switch⟩,
  ⟨0x46, "ldind.i1", .inlineNone, .sequential⟩,
  ⟨0x47, "ldind.u1", .inlineNone, .sequential⟩,
  ⟨0x48, "ldind.i2", .inlineNone, .sequential⟩,
  ⟨0x49, "ldind.u2", .inlineNone, .sequential⟩,
  ⟨0x4A, "ldind.i4", .inlineNone, .sequential⟩,
  ⟨0x4B, "ldind.u4", .inlineNone, .sequential⟩,
  ⟨0x4C, "ldind.i8", .inlineNone, .sequential⟩,
  ⟨0x4D, "ldind.i", .inlineNone, .sequential⟩,
  ⟨0x4E, "ldind.r4", .inlineNone, .sequential⟩,
  ⟨0x4F, "ldind.r8", .inlineNone, .sequential⟩,
  ⟨0x50, "ldind.ref", .inlineNone, .sequential⟩,
  ⟨0x51, "stind.ref", .inlineNone, .sequential⟩,
  ⟨0x52, "stind.i1", .inlineNone, .sequential⟩,
  ⟨0x53, "stind.i2", .inlineNone, .sequential⟩,
  ⟨0x54, "stind.i4", .inlineNone, .sequential⟩,
  ⟨0x55, "stind.i8", .inlineNone, .sequential⟩,
  ⟨0x56, "stind.r4", .inlineNone, .sequential⟩,
  ⟨0x57, "stind.r8", .inlineNone, .sequential⟩,
  ⟨0x58, "add", .inlineNone, .sequential⟩,
  ⟨0x59, "sub", .inlineNone, .sequential⟩,
  ⟨0x5A, "mul", .inlineNone, .sequential⟩,
  ⟨0x5B, "div", .inlineNone, .sequential⟩,
  ⟨0x5C, "div.un", .inlineNone, .sequential⟩,
  ⟨0x5D, "rem", .inlineNone, .sequential⟩,
  ⟨0x5E, "rem.un", .inlineNone, .sequential⟩,
  ⟨0x5F, "and", .inlineNone, .sequential⟩,
  ⟨0x60, "or", .inlineNone, .sequential⟩,
  ⟨0x61, "xor", .inlineNone, .sequential⟩,
  ⟨0x62, "shl", .inlineNone, .sequential⟩,
  ⟨0x63, "shr", .inlineNone, .sequential⟩,
  ⟨0x64, "shr.un", .inlineNone, .sequential⟩,
  ⟨0x65, "neg", .inlineNone, .sequential⟩,
  ⟨0x66, "not", .inlineNone, .sequential⟩,
  ⟨0x67, "conv.i1", .inlineNone, .sequential⟩,
  ⟨0x68, "conv.i2", .inlineNone, .sequential⟩,
  ⟨0x69, "conv.i4", .inlineNone, .sequential⟩,
  ⟨0x6A, "conv.i8", .inlineNone, .sequential⟩,
  ⟨0x6B, "conv.r4", .inlineNone, .sequential⟩,
  ⟨0x6C, "conv.r8", .inlineNone, .sequential⟩,
  ⟨0x6D, "conv.u4", .inlineNone, .sequential⟩,
  ⟨0x6E, "conv.u8", .inlineNone, .sequential⟩,
  ⟨0x6F, "callvirt", .inlineMethod, .call⟩,
  ⟨0x70, "cpobj", .inlineType, .sequential⟩,
  ⟨0x71, "ldobj", .inlineType, .sequential⟩,
  ⟨0x72, "ldstr", .inlineString, .sequential⟩,
  ⟨0x73, "newobj", .inlineMethod, .call⟩,
  ⟨0x74, "castclass", .inlineType, .sequential⟩,
  ⟨0x75, "isinst", .inlineType, .sequential⟩,
  ⟨0x76, "conv.r.un", .inlineNone, .sequential⟩,
  ⟨0x79, "unbox", .inlineType, .sequential⟩,
  ⟨0x7A, "throw", .inlineNone, .throw⟩,
  ⟨0x7B, "ldfld", .inlineField, .sequential⟩,
  ⟨0x7C, "ldflda", .inlineField, .sequential⟩,
  ⟨0x7D, "stfld", .inlineField, .sequential⟩,
  ⟨0x7E, "ldsfld", .inlineField, .sequential⟩,
  ⟨0x7F, "ldsflda", .inlineField, .sequential⟩,
  ⟨0x80, "stsfld", .inlineField, .sequential⟩,
  ⟨0x81, "stobj", .inlineType, .sequential⟩,
  ⟨0x82, "conv.ovf.i1.un", .inlineNone, .sequential⟩,
  ⟨0x83, "conv.ovf.i2.un", .inlineNone, .sequential⟩,
  ⟨0x84, "conv.ovf.i4.un", .inlineNone, .sequential⟩,
  ⟨0x85, "conv.ovf.i8.un", .inlineNone, .sequential⟩,
  ⟨0x86, "conv.ovf.u1.un", .inlineNone, .sequential⟩,
  ⟨0x87, "conv.ovf.u2.un", .inlineNone, .sequential⟩,
  ⟨0x88, "conv.ovf.u4.un", .inlineNone, .sequential⟩,
  ⟨0x89, "conv.ovf.u8.un", .inlineNone, .sequential⟩,
  ⟨0x8A, "conv.ovf.i.un", .inlineNone, .sequential⟩,
  ⟨0x8B, "conv.ovf.u.un", .inlineNone, .sequential⟩,
  ⟨0x8C, "box", .inlineType, .sequential⟩,
  ⟨0x8D, "newarr", .inlineType, .sequential⟩,
  ⟨0x8E, "ldlen", .inlineNone, .sequential⟩,
  ⟨0x8F, "ldelema", .inlineType, .sequential⟩,
  ⟨0x90, "ldelem.i1", .inlineNone, .sequential⟩,
  ⟨0x91, "ldelem.u1", .inlineNone, .sequential⟩,
  ⟨0x92, "ldelem.i2", .inlineNone, .sequential⟩,
  ⟨0x93, "ldelem.u2", .inlineNone, .sequential⟩,
  ⟨0x94, "ldelem.i4", .inlineNone, .sequential⟩,
  ⟨0x95, "ldelem.u4", .inlineNone, .sequential⟩,
  ⟨0x96, "ldelem.i8", .inlineNone, .sequential⟩,
  ⟨0x97, "ldelem.i", .inlineNone, .sequential⟩,
  ⟨0x98, "ldelem.r4", .inlineNone, .sequential⟩,
  ⟨0x99, "ldelem.r8", .inlineNone, .sequential⟩,
  ⟨0x9A, "ldelem.ref", .inlineNone, .sequential⟩,
  ⟨0x9B, "stelem.i", .inlineNone, .sequential⟩,
  ⟨0x9C, "stelem.i1", .inlineNone, .sequential⟩,
  ⟨0x9D, "stelem.i2", .inlineNone, .sequential⟩,
  ⟨0x9E, "stelem.i4", .inlineNone, .sequential⟩,
  ⟨0x9F, "stelem.i8", .inlineNone, .sequential⟩,
  ⟨0xA0, "stelem.r4", .inlineNone, .sequential⟩,
  ⟨0xA1, "stelem.r8", .inlineNone, .sequential⟩,
  ⟨0xA2, "stelem.ref", .inlineNone, .sequential⟩,
  ⟨0xA3, "ldelem", .inlineType, .sequential⟩,
  ⟨0xA4, "stelem", .inlineType, .sequential⟩,
  ⟨0xA5, "unbox.any", .inlineType, .sequential⟩,
  ⟨0xB3, "conv.ovf.i1", .inlineNone, .sequential⟩,
  ⟨0xB4, "conv.ovf.u1", .inlineNone, .sequential⟩,
  ⟨0xB5, "conv.ovf.i2", .inlineNone, .sequential⟩,
  ⟨0xB6, "conv.ovf.u2", .inlineNone, .sequential⟩,
  ⟨0xB7, "conv.ovf.i4", .inlineNone, .sequential⟩,
  ⟨0xB8, "conv.ovf.u4", .inlineNone, .sequential⟩,
  ⟨0xB9, "conv.ovf.i8", .inlineNone, .sequential⟩,
  ⟨0xBA, "conv.ovf.u8", .inlineNone, .sequential⟩,
  ⟨0xC2, "refanyval", .inlineType, .sequential⟩,
  ⟨0xC3, "ckfinite", .inlineNone, .sequential⟩,
  ⟨0xC6, "mkrefany", .inlineType, .sequential⟩,
  ⟨0xD0, "ldtoken", .inlineTok, .sequential⟩,
  ⟨0xD1, "conv.u2", .inlineNone, .sequential⟩,
  ⟨0xD2, "conv.u1", .inlineNone, .sequential⟩,
  ⟨0xD3, "conv.i", .inlineNone, .sequential⟩,
  ⟨0xD4, "conv.ovf.i", .inlineNone, .sequential⟩,
  ⟨0xD5, "conv.ovf.u", .inlineNone, .sequential⟩,
  ⟨0xD6, "add.ovf", .inlineNone, .sequential⟩,
  ⟨0xD7, "add.ovf.un", .inlineNone, .sequential⟩,
  ⟨0xD8, "mul.ovf", .inlineNone, .sequential⟩,
  ⟨0xD9, "mul.ovf.un", .inlineNone, .sequential⟩,
  ⟨0xDA, "sub.ovf", .inlineNone, .sequential⟩,
  ⟨0xDB, "sub.ovf.un", .inlineNone, .sequential⟩,
  ⟨0xDC, "endfinally", .inlineNone, .endFinally⟩,
  ⟨0xDD, "leave", .inlineBrTarget, .leave⟩,
  ⟨0xDE, "leave.s", .shortInlineBrTarget, .leave⟩,
  ⟨0xDF, "stind.i", .inlineNone, .sequential⟩,
  ⟨0xE0, "conv.u", .inlineNone, .sequential⟩]

def escapedRows : List Row := [
  ⟨0x00, "arglist", .inlineNone, .sequential⟩,
  ⟨0x01, "ceq", .inlineNone, .sequential⟩,
  ⟨0x02, "cgt", .inlineNone, .sequential⟩,
  ⟨0x03, "cgt.un", .inlineNone, .sequential⟩,
  ⟨0x04, "clt", .inlineNone, .sequential⟩,
  ⟨0x05, "clt.un", .inlineNone, .sequential⟩,
  ⟨0x06, "ldftn", .inlineMethod, .sequential⟩,
  ⟨0x07, "ldvirtftn", .inlineMethod, .sequential⟩,
  ⟨0x09, "ldarg", .inlineVar, .sequential⟩,
  ⟨0x0A, "ldarga", .inlineVar, .sequential⟩,
  ⟨0x0B, "starg", .inlineVar, .sequential⟩,
  ⟨0x0C, "ldloc", .inlineVar, .sequential⟩,
  ⟨0x0D, "ldloca", .inlineVar, .sequential⟩,
  ⟨0x0E, "stloc", .inlineVar, .sequential⟩,
  ⟨0x0F, "localloc", .inlineNone, .sequential⟩,
  ⟨0x11, "endfilter", .inlineNone, .exit⟩,
  ⟨0x12, "unaligned.", .shortInlineI, .sequential⟩,
  ⟨0x13, "volatile.", .inlineNone, .sequential⟩,
  ⟨0x14, "tail.", .inlineNone, .sequential⟩,
  ⟨0x15, "initobj", .inlineType, .sequential⟩,
  ⟨0x16, "constrained.", .inlineType, .sequential⟩,
  ⟨0x17, "cpblk", .inlineNone, .sequential⟩,
  ⟨0x18, "initblk", .inlineNone, .sequential⟩,
  ⟨0x19, "no.", .shortInlineI, .sequential⟩,
  ⟨0x1A, "rethrow", .inlineNone, .throw⟩,
  ⟨0x1C, "sizeof", .inlineType, .sequential⟩,
  ⟨0x1D, "refanytype", .inlineNone, .sequential⟩,
  ⟨0x1E, "readonly.", .inlineNone, .sequential⟩]

/-- The opcode of a row, on the page whose opcodes begin with `lead`. -/
def Row.opcode (r : Row) (lead : UInt8) : Opcode := ⟨r.mnemonic, lead, r.value, r.kind, r.flow⟩

/-- The placeholder of a slot without an opcode: no name and no operand. -/
def placeholder (lead value : UInt8) : Opcode := ⟨"", lead, value, .inlineNone, .sequential⟩

def slotOf (lead : UInt8) (rows : List Row) (value : UInt8) : Opcode :=
  match rows.find? (·.value == value) with
  | some r => r.opcode lead
  | none => placeholder lead value

def singleByte (b : UInt8) : Opcode := slotOf 0 singleByteRows b

def escaped (b : UInt8) : Opcode := slotOf escape escapedRows b

@[simp] theorem slotOf_value (lead : UInt8) (rows : List Row) (b : UInt8) :
    (slotOf lead rows b).value = b := by
  unfold slotOf
  split
  · next r h => simpa [Row.opcode] using List.find?_some h
  · rfl

@[simp] theorem slotOf_lead (lead : UInt8) (rows : List Row) (b : UInt8) :
    (slotOf lead rows b).lead = lead := by
  unfold slotOf
  split <;> rfl

theorem slotOf_of_isDefined {lead : UInt8} {rows : List Row} {b : UInt8}
    (h : (slotOf lead rows b).isDefined = true) : ∃ r ∈ rows, slotOf lead rows b = r.opcode lead := by
  unfold slotOf at h ⊢
  split at h
  · next r hr => exact ⟨r, List.mem_of_find?_eq_some hr, rfl⟩
  · simp [placeholder, isDefined] at h

/-- The defined opcodes in ascending order of their codes. -/
def defined : List Opcode :=
  singleByteRows.map (·.opcode 0) ++ escapedRows.map (·.opcode escape)

theorem isDefined_of_mem_defined {o : Opcode} (h : o ∈ defined) : o.isDefined = true := by
  have all : defined.all isDefined = true := by decide +kernel
  exact List.all_eq_true.1 all o h

def ofMnemonic? (name : String) : Option Opcode :=
  defined.find? (·.mnemonic == name)

theorem ofMnemonic?_eq_some {name : String} {o : Opcode} (h : ofMnemonic? name = some o) :
    o ∈ defined ∧ o.mnemonic = name := by
  unfold ofMnemonic? at h
  exact ⟨List.mem_of_find?_eq_some h, by simpa using List.find?_some h⟩

end Opcode
end CilCodec
