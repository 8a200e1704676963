import CilCodec.Operand.Text

/-!
# Misfits

Why an operand cannot be written after an opcode.
-/
namespace CilCodec

inductive Misfit where
  /-- The operand has not the shape that the opcode's kind wants. -/
  | shape (operand : Operand) (mnemonic : String) (kind : OperandKind)
  /-- The index needs more than the byte that the opcode leaves for it. -/
  | slot (mnemonic : String) (index : UInt16)
  /-- The delta needs more than the byte that the opcode leaves for it. -/
  | branch (mnemonic : String) (delta : Int32)
  /-- The jump table has more entries than its count can say. -/
  | tableSize
  deriving DecidableEq

def Misfit.message : Misfit → String
  | shape operand mnemonic kind =>
    "operand " ++ operand.detail ++ " does not match " ++ mnemonic ++ " (" ++ kind.name ++ ")"
  | slot mnemonic index =>
    mnemonic ++ " cannot address variable " ++ Numeral.decimal index.toNat
  | branch mnemonic delta =>
    mnemonic ++ " cannot branch by " ++ Numeral.decimal delta.toInt
  | tableSize => "switch has too many targets"

end CilCodec
