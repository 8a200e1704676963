import CilCodec.Bytes.Forward
import CilCodec.Decoder.Config
import CilCodec.Instruction.Basic
import CilCodec.Opcode.Lookup
import CilCodec.Operand.Reader

/-!
# Reading instructions

One instruction is read as its opcode and then its operand, and every failure is reported at its
first byte. The main statement says that an instruction that could be read has moved the cursor past
at least one byte.
-/
namespace CilCodec

variable {data : List UInt8}

def Opcode.readBehind (first : UInt8) : Reader data Opcode := do
  match ← Reader.ofExcept (Opcode.ofFirstByte first) with
  | .opcode o => return o
  | .escape => Reader.ofExcept (Opcode.ofEscapedByte (← Reader.read .uint8))

def Opcode.read : Reader data Opcode := do
  Opcode.readBehind (← Reader.read .uint8)

/-- Refuses a jump table whose count exceeds the limit, without moving. -/
def Operand.checkTable (kind : OperandKind) (limit : Option Nat) : Reader data Unit := do
  match limit with
  | .some limit =>
    if kind = .inlineSwitch then
      let count ← Reader.lookahead (Reader.read .uint32)
      if limit < count.toNat then
        throw (.switchTooLarge (← get).position count.toNat limit)
  | .none => return

namespace Instruction

/-- Reads what is left of the instruction that starts at `start`, behind its opcode. -/
def readBehind (config : Config) (start : Nat) (opcode : Opcode) : Reader data Instruction := do
  Operand.checkTable opcode.kind config.switchLimit
  let operand ← Operand.read opcode.kind
  let stop := (← get).position
  return {
    offset := start
    size := stop - start
    opcode := opcode
    operand := operand
    resolution := .notAttempted
    targets := if config.computesTargets then operand.targets stop else [] }

/-- Reads the instruction at the cursor. Its token, if it has one, is left alone. -/
def read (config : Config) : Reader data Instruction := fun c =>
  EStateM.adaptExcept (Error.anchoredAt c.position)
    (Opcode.read >>= readBehind config c.position) c

end Instruction

namespace Reader

theorem forward_readDeltas (count : Nat) (deltas : List Int32) :
    Forward (Operand.readDeltas count deltas : Reader data (List Int32)) := by
  induction count generalizing deltas with
  | zero => exact forward_pure _
  | succ count ih => exact forward_bind (forward_read _) fun _ => ih _

theorem forward_readTable : Forward (Operand.readTable : Reader data (List Int32)) := by
  refine forward_bind forward_get fun start => forward_bind (forward_read _) fun count =>
    forward_bind forward_get fun entries => ?_
  dsimp only
  split
  · exact forward_readDeltas _ _
  · exact forward_throw _

theorem forward_readOperand (kind : OperandKind) :
    Forward (Operand.read kind : Reader data Operand) := by
  unfold Operand.read
  split
  · exact forward_pure _
  · exact forward_bind (forward_read _) fun _ => forward_pure _
  · exact forward_bind forward_readTable fun _ => forward_pure _
  · exact forward_bind forward_get fun _ => forward_throw _

theorem forward_checkTable (kind : OperandKind) (limit : Option Nat) :
    Forward (Operand.checkTable kind limit : Reader data Unit) := by
  unfold Operand.checkTable
  split
  · split
    · refine forward_bind (forward_lookahead _) fun count => ?_
      split
      · exact forward_bind forward_get fun _ => forward_throw _
      · exact forward_pure _
    · exact forward_pure _
  · exact forward_pure _

theorem forward_readBehind_opcode (first : UInt8) :
    Forward (Opcode.readBehind first : Reader data Opcode) := by
  refine forward_bind (forward_ofExcept _) fun b => ?_
  cases b with
  | opcode o => exact forward_pure _
  | escape => exact forward_bind (forward_read _) fun _ => forward_ofExcept _

theorem forward_readOpcode : Forward (Opcode.read : Reader data Opcode) :=
  forward_bind (forward_read _) forward_readBehind_opcode

theorem forward_readBehind (config : Config) (start : Nat) (opcode : Opcode) :
    Forward (Instruction.readBehind config start opcode : Reader data Instruction) :=
  forward_bind (forward_checkTable _ _) fun _ =>
    forward_bind (forward_readOperand _) fun _ =>
      forward_bind forward_get fun _ => forward_pure _

theorem forward_readInstruction (config : Config) :
    Forward (Instruction.read config : Reader data Instruction) := fun c =>
  forward_adaptExcept _ (forward_bind forward_readOpcode (forward_readBehind config _)) c

theorem position_lt_of_readOpcode {c d : Cursor data} {o : Opcode}
    (h : Opcode.read c = .ok o d) : c.position < d.position := by
  by_cases hc : ScalarType.uint8.width ≤ c.remaining
  · simp only [Opcode.read, bind, EStateM.bind, read_of_le _ hc] at h
    have hd := ((forward_readBehind_opcode _).of_ok h).position_le
    have hw : ScalarType.uint8.width = 1 := rfl
    rw [Cursor.position_skip] at hd
    omega
  · simp [Opcode.read, bind, EStateM.bind, read_of_lt _ (Nat.not_le.1 hc)] at h

theorem position_lt_of_readInstruction {config : Config} {c d : Cursor data} {i : Instruction}
    (h : Instruction.read config c = .ok i d) : c.position < d.position := by
  simp only [Instruction.read, EStateM.adaptExcept, bind, EStateM.bind] at h
  cases ho : (Opcode.read c : EStateM.Result Error (Cursor data) Opcode) with
  | error e d => simp [ho] at h
  | ok o d' =>
    have hlt := position_lt_of_readOpcode ho
    cases hi : Instruction.readBehind config c.position o d' with
    | error e d => simp [ho, hi] at h
    | ok j d'' =>
      have hle := ((forward_readBehind config c.position o).of_ok hi).position_le
      simp only [ho, hi, EStateM.Result.ok.injEq] at h
      rw [← h.2]
      omega

theorem remaining_lt_of_readInstruction {config : Config} {c d : Cursor data} {i : Instruction}
    (h : Instruction.read config c = .ok i d) : d.remaining < c.remaining :=
  ((forward_readInstruction config).of_ok h).remaining_lt (position_lt_of_readInstruction h)

end Reader
end CilCodec
