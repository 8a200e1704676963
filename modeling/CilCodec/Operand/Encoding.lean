import CilCodec.Error.Basic
import CilCodec.Opcode.Basic
import CilCodec.Operand.Form

/-!
# Bytes of operands

An operand is written by the kind of its opcode, and only in the shape and range that reading that
kind can give. What is refused is explained by a misfit. The main statements say when an instruction
has bytes and when it has none.
-/
namespace CilCodec

/-- The bytes of a jump table, if its count can say how many entries it has. -/
def OperandForm.encodeTable? (deltas : List Int32) : Option (List UInt8) :=
  if deltas.length < UInt32.size then
    some (ScalarType.encode .uint32 (UInt32.ofNat deltas.length) ++
      deltas.flatMap (ScalarType.encode .int32))
  else none

def OperandKind.encode? (kind : OperandKind) (x : Operand) : Option (List UInt8) :=
  match kind.form with
  | .empty => if x = .none then some [] else none
  | .scalar type _ unwrap? _ => (unwrap? x).map type.encode
  | .table => x.switch?.bind OperandForm.encodeTable?
  | .absent => none

theorem OperandForm.length_entries (deltas : List Int32) :
    (deltas.flatMap (ScalarType.encode .int32)).length = 4 * deltas.length := by
  induction deltas with
  | nil => rfl
  | cons delta deltas ih =>
    have hw : ScalarType.int32.width = 4 := rfl
    rw [List.flatMap_cons, List.length_append, ih, ScalarType.length_encode, List.length_cons, hw]
    omega

namespace Opcode

/-- Why the operand cannot follow the opcode, given that it cannot. -/
def misfit (o : Opcode) (x : Operand) : Misfit :=
  match o.kind, x with
  | .shortInlineVar, .slot index => .slot o.mnemonic index
  | .shortInlineBrTarget, .branch delta => .branch o.mnemonic delta
  | .inlineSwitch, .switch _ => .tableSize
  | kind, x => .shape x o.mnemonic kind

def encode (o : Opcode) (x : Operand) : Except Error (List UInt8) :=
  match o.kind.encode? x with
  | some bytes => .ok (o.bytes ++ bytes)
  | none => .error (.malformed (.misfit (o.misfit x)))

theorem encode_eq_ok_iff {o : Opcode} {x : Operand} {bytes : List UInt8} :
    o.encode x = .ok bytes ↔ ∃ w, o.kind.encode? x = some w ∧ bytes = o.bytes ++ w := by
  unfold encode
  split
  · next w hw => simp [hw, eq_comm]
  · next hw => simp [hw]

theorem encode_eq_error_iff {o : Opcode} {x : Operand} {error : Error} :
    o.encode x = .error error ↔
      o.kind.encode? x = none ∧ error = .malformed (.misfit (o.misfit x)) := by
  unfold encode
  split
  · next w hw => simp [hw]
  · next hw => simp [hw, eq_comm]

end Opcode
end CilCodec
