import CilCodec.Metadata.Symbol
import CilCodec.Opcode.Basic
import CilCodec.Operand.Basic
import CilCodec.Word

/-!
# Instructions

An opcode with its operand, where it stands in its body, what became of its token, and the absolute
targets of its deltas.
-/
namespace CilCodec

inductive Resolution where
  /-- The operand is no token, or nobody was asked. -/
  | notAttempted
  /-- A resolver was asked and knew no symbol. -/
  | unresolved
  | resolved (symbol : Symbol)
  deriving DecidableEq

def Resolution.isResolved : Resolution → Bool
  | resolved _ => true
  | _ => false

structure Instruction where
  /-- Where the first byte of the opcode stands in the body. -/
  offset : Nat
  /-- Bytes of the opcode and the operand. -/
  size : Nat
  opcode : Opcode
  operand : Operand
  resolution : Resolution
  /-- Absolute offsets of the branch targets. -/
  targets : List Nat
  deriving DecidableEq

/-- The absolute targets of the operand's deltas behind an instruction that ends at `next`; a delta
that leads in front of the body has none. -/
def Operand.targets (next : Nat) (x : Operand) : List Nat :=
  x.deltas.filterMap fun delta => Word.displaced? next delta.toInt

namespace Instruction

def mnemonic (i : Instruction) : String := i.opcode.mnemonic

def next (i : Instruction) : Nat := i.offset + i.size

def withOperand (i : Instruction) (x : Operand) : Instruction := { i with operand := x }

end Instruction
end CilCodec
