import CilCodec.Encoder

/-!
# Patches

Replacing operands of decoded instructions, which keep everything else: their offsets and the
targets of their old operands.
-/
namespace CilCodec

structure Patch where
  index : Nat
  operand : Operand

def Patch.apply (p : Patch) (instructions : List Instruction) : List Instruction :=
  instructions.modify p.index (·.withOperand p.operand)

/-- Applies patches in order; of two at one index the later stays. -/
def applyPatches (patches : List Patch) (instructions : List Instruction) : List Instruction :=
  patches.foldl (fun is p => p.apply is) instructions

theorem Patch.length_apply (p : Patch) (instructions : List Instruction) :
    (p.apply instructions).length = instructions.length := by
  simp [apply]

end CilCodec
