import CilCodec.Error.Basic
import CilCodec.Opcode.Table

/-!
# Looking up opcodes

From the bytes at the start of an instruction, or from a mnemonic, to a defined opcode. An unknown
byte is reported at offset zero; a reader moves the report to its own offset.
-/
namespace CilCodec.Opcode

inductive FirstByte where
  | opcode (opcode : Opcode)
  /-- The opcode has a second byte. -/
  | escape

def ofFirstByte (b : UInt8) : Except Error FirstByte :=
  if b = escape then .ok .escape
  else if (singleByte b).isDefined then .ok (.opcode (singleByte b))
  else .error (.unknownOpcode 0 0 b)

def ofEscapedByte (b : UInt8) : Except Error Opcode :=
  if (escaped b).isDefined then .ok (escaped b)
  else .error (.unknownOpcode 0 escape b)

def ofMnemonic (name : String) : Except Error Opcode :=
  match ofMnemonic? name with
  | some o => .ok o
  | none => .error (.invalidMnemonic name)

end CilCodec.Opcode
