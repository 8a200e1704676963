import CilCodec.Decimal.Layout
import CilCodec.Operand.Basic

/-!
# Text of operands

Constants as a listing shows them, and operands spelled out with their shape as a diagnosis does.
-/
namespace CilCodec

/-- Constants have a point while their leading digit stands for `10 ^ -4` to `10 ^ 15`. -/
def Immediate.layout : Decimal.Layout := ⟨-4, 16⟩

def Immediate.text : Immediate → String
  | int8 value => Numeral.decimal value.toInt
  | int32 value => Numeral.decimal value.toInt
  | int64 value => Numeral.decimal value.toInt
  | float32 bits => Decimal.ofBits layout .single bits.toNat
  | float64 bits => Decimal.ofBits layout .double bits.toNat

def Immediate.typeName : Immediate → String
  | int8 _ => "Int8"
  | int32 _ => "Int32"
  | int64 _ => "Int64"
  | float32 _ => "Float32"
  | float64 _ => "Float64"

def Operand.detail : Operand → String
  | none => "None"
  | immediate c => "Immediate(" ++ c.typeName ++ "(" ++ c.text ++ "))"
  | slot index => "Variable(" ++ Numeral.decimal index.toNat ++ ")"
  | branch delta => "BranchTarget(" ++ Numeral.decimal delta.toInt ++ ")"
  | token t => "Token(" ++ t.detail ++ ")"
  | switch deltas =>
    "Switch([" ++ ", ".intercalate (deltas.map fun d => Numeral.decimal d.toInt) ++ "])"

end CilCodec
