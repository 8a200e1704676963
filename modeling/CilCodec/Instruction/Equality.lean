import CilCodec.FloatFormat
import CilCodec.Instruction.Basic

/-!
# Equality of instructions as values

Instructions compared with their floating-point constants as numbers: a NaN differs from itself and
the two zeros are equal. The rest is compared as it stands.
-/
namespace CilCodec

def Immediate.equal : Immediate → Immediate → Bool
  | float32 a, float32 b => FloatFormat.single.sameNumber a.toNat b.toNat
  | float64 a, float64 b => FloatFormat.double.sameNumber a.toNat b.toNat
  | a, b => a == b

def Operand.equal : Operand → Operand → Bool
  | immediate a, immediate b => a.equal b
  | a, b => a == b

def Instruction.equal (i j : Instruction) : Bool :=
  i.offset == j.offset && i.size == j.size && i.opcode == j.opcode && i.operand.equal j.operand &&
    i.resolution == j.resolution && i.targets == j.targets

def equalInstructions : List Instruction → List Instruction → Bool
  | [], [] => true
  | i :: is, j :: js => i.equal j && equalInstructions is js
  | _, _ => false

/-- Compares two attempts at reading a body: lists by value, errors by their cause. -/
def equalResults {ε : Type} [BEq ε] :
    Except ε (List Instruction) → Except ε (List Instruction) → Bool
  | .ok is, .ok js => equalInstructions is js
  | .error e, .error f => e == f
  | _, _ => false

end CilCodec
