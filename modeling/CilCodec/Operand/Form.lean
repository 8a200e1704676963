import CilCodec.Bytes.Scalar
import CilCodec.Operand.Basic

/-!
# Forms of operands

What the bytes of an operand are, kind by kind: nothing, one scalar, or a jump table. A form with a
scalar says which operand a scalar stands for; that every operand stands for at most one scalar is
part of the form.
-/
namespace CilCodec

/-- How the operands of a kind are stored. -/
inductive OperandForm where
  /-- There is no operand. -/
  | empty
  /-- One scalar, which `wrap` makes an operand. -/
  | scalar (type : ScalarType) (wrap : type.Value → Operand)
      (unwrap? : Operand → Option type.Value)
      (unwrap?_eq_some_iff : ∀ x v, unwrap? x = some v ↔ x = wrap v)
  /-- A count and that many branch deltas. -/
  | table
  /-- No stream stores such operands. -/
  | absent

namespace OperandForm

def byteIndex? (index : UInt16) : Option UInt8 :=
  if index.toNat < 256 then some index.toUInt8 else none

def byteDelta? (delta : Int32) : Option Int8 :=
  if -128 ≤ delta.toInt ∧ delta.toInt ≤ 127 then some delta.toInt8 else none

theorem byteIndex?_eq_some_iff {index : UInt16} {b : UInt8} :
    byteIndex? index = some b ↔ index = b.toUInt16 := by
  have hb : b.toNat < 256 := b.toNat_lt
  simp only [byteIndex?, Option.ite_none_right_eq_some, Option.some.injEq, ← UInt8.toNat_inj,
    ← UInt16.toNat_inj, UInt16.toNat_toUInt8, UInt8.toNat_toUInt16]
  omega

theorem byteDelta?_eq_some_iff {delta : Int32} {b : Int8} :
    byteDelta? delta = some b ↔ delta = b.toInt32 := by
  have low : -128 ≤ b.toInt := b.le_toInt
  have high : b.toInt < 128 := b.toInt_lt
  simp only [byteDelta?, Option.ite_none_right_eq_some, Option.some.injEq, ← Int8.toInt_inj,
    ← Int32.toInt_inj, Int32.toInt_toInt8, Int8.toInt_toInt32]
  constructor
  · rintro ⟨hd, h⟩
    rwa [Int.bmod_eq_of_le (by omega) (by omega)] at h
  · rintro h
    refine ⟨by omega, ?_⟩
    rw [h, Int.bmod_eq_of_le] <;> omega

def shortSlot : OperandForm :=
  .scalar .uint8 (fun v => .slot (UInt8.toUInt16 v)) (fun x => x.slot?.bind byteIndex?)
    (by simp [Option.bind_eq_some_iff, byteIndex?_eq_some_iff])

def shortBranch : OperandForm :=
  .scalar .int8 (fun v => .branch (Int8.toInt32 v)) (fun x => x.branch?.bind byteDelta?)
    (by simp [Option.bind_eq_some_iff, byteDelta?_eq_some_iff])

def slot : OperandForm :=
  .scalar .uint16 (fun v => .slot v) Operand.slot? fun _ _ => Operand.slot?_eq_some_iff

def branch : OperandForm :=
  .scalar .int32 (fun v => .branch v) Operand.branch? fun _ _ => Operand.branch?_eq_some_iff

def token : OperandForm :=
  .scalar .uint32 (fun v => .token ⟨v⟩) (fun x => x.token?.map Token.value)
    (by
      intro x v
      simp only [Option.map_eq_some_iff, Operand.token?_eq_some_iff]
      exact ⟨fun ⟨t, hx, hv⟩ => hv ▸ hx, fun hx => ⟨⟨v⟩, hx, rfl⟩⟩)

def int8 : OperandForm :=
  .scalar .int8 (fun v => .immediate (.int8 v)) (fun x => x.immediate?.bind Immediate.int8?)
    (by simp [Option.bind_eq_some_iff])

def int32 : OperandForm :=
  .scalar .int32 (fun v => .immediate (.int32 v)) (fun x => x.immediate?.bind Immediate.int32?)
    (by simp [Option.bind_eq_some_iff])

def int64 : OperandForm :=
  .scalar .int64 (fun v => .immediate (.int64 v)) (fun x => x.immediate?.bind Immediate.int64?)
    (by simp [Option.bind_eq_some_iff])

def float32 : OperandForm :=
  .scalar .float32 (fun v => .immediate (.float32 v)) (fun x => x.immediate?.bind Immediate.float32?)
    (by simp [Option.bind_eq_some_iff])

def float64 : OperandForm :=
  .scalar .float64 (fun v => .immediate (.float64 v)) (fun x => x.immediate?.bind Immediate.float64?)
    (by simp [Option.bind_eq_some_iff])

end OperandForm

def OperandKind.form : OperandKind → OperandForm
  | inlineNone => .empty
  | shortInlineI => .int8
  | shortInlineVar => .shortSlot
  | shortInlineBrTarget => .shortBranch
  | inlineVar => .slot
  | inlineI => .int32
  | inlineBrTarget => .branch
  | inlineMethod | inlineField | inlineType | inlineString | inlineSig | inlineTok => .token
  | shortInlineR => .float32
  | inlineI8 => .int64
  | inlineR => .float64
  | inlineSwitch => .table
  | inlinePhi => .absent

/-- Bytes of every operand of the form, where they are as many for each. -/
def OperandForm.size? : OperandForm → Option Nat
  | empty => some 0
  | scalar type .. => some type.width
  | table | absent => none

theorem OperandKind.size?_form (kind : OperandKind) : kind.form.size? = kind.size? := by
  cases kind <;> rfl

end CilCodec
