import CilCodec.Operand.Misfit

/-!
# Errors

Why bytes cannot be read as instructions, or instructions not be written as bytes. An error of
reading knows the offset it is about, and can be moved to the start of its instruction, which does
not change whether reading may go on behind it.
-/
namespace CilCodec

inductive Fault where
  | misfit (misfit : Misfit)
  /-- A fault with a description of its own, and the place in a source text that reported it. -/
  | reported (message file : String) (line : UInt32)
  deriving DecidableEq

inductive Error where
  /-- Fewer bytes are left than an opcode, an operand or a read needs. -/
  | truncated (offset needed available : Nat)
  /-- The table has no opcode for this byte, after the byte `lead` unless that is zero. -/
  | unknownOpcode (offset : Nat) (lead value : UInt8)
  /-- No stream holds operands of this kind. -/
  | unsupportedOperand (offset : Nat) (kind : OperandKind)
  /-- A jump table declares more targets than the configured limit. -/
  | switchTooLarge (offset count limit : Nat)
  | malformed (fault : Fault)
  /-- No defined opcode has this name. -/
  | invalidMnemonic (name : String)
  deriving DecidableEq

namespace Error

def offset? : Error → Option Nat
  | truncated offset .. | unknownOpcode offset .. | unsupportedOperand offset _
  | switchTooLarge offset .. => some offset
  | malformed _ | invalidMnemonic _ => none

/-- Tells whether reading may go on behind the first byte of the failed instruction. After a
truncation nothing says where an instruction would start. -/
def isRecoverable : Error → Bool
  | unknownOpcode .. | unsupportedOperand .. => true
  | _ => false

/-- The same error, at the start of the instruction that could not be read. -/
def anchoredAt (start : Nat) : Error → Error
  | truncated _ needed available => truncated start needed available
  | unknownOpcode _ lead value => unknownOpcode start lead value
  | unsupportedOperand _ kind => unsupportedOperand start kind
  | switchTooLarge _ count limit => switchTooLarge start count limit
  | e => e

theorem isRecoverable_anchoredAt (start : Nat) (e : Error) :
    (e.anchoredAt start).isRecoverable = e.isRecoverable := by
  cases e <;> rfl

end Error
end CilCodec
