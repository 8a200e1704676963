import CilCodec.Bytes.Cursor
import CilCodec.Operand.Form
import CilCodec.Word

/-!
# Reading operands

An operand is read by its kind. The count of a jump table is compared with the bytes that are left
before any entry is read, so that no count makes the reader collect more than the stream holds.
-/
namespace CilCodec.Operand

variable {data : List UInt8}

/-- Reads `count` deltas behind those already read, which are in reverse order. -/
def readDeltas : (count : Nat) → List Int32 → Reader data (List Int32)
  | 0, deltas => return deltas.reverse
  | count + 1, deltas => do
    let delta ← Reader.read .int32
    readDeltas count (delta :: deltas)

/-- Reads a jump table. A table that is cut short is reported from its count on. -/
def readTable : Reader data (List Int32) := do
  let start ← get
  let count ← Reader.read .uint32
  let entries ← get
  let size := Word.saturated (4 * count.toNat)
  if entries.holds size then
    readDeltas count.toNat []
  else
    throw (.truncated start.position (Word.saturated (size + 4)) (entries.remaining + 4))

def read (kind : OperandKind) : Reader data Operand := do
  match kind.form with
  | .empty => return none
  | .scalar type wrap .. => return wrap (← Reader.read type)
  | .table => return switch (← readTable)
  | .absent => throw (.unsupportedOperand (← get).position kind)

end CilCodec.Operand
