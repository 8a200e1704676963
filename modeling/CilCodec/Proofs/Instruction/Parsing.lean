import CilCodec.Proofs.Instruction.Reading

/-!
# Runs of readers on one cursor

A cursor can be asked for scalars, steps, looks ahead, operands and instructions in any order, and a
request that fails is followed by the next one from where it left the cursor. No request goes back or
past the end, so whatever came before, each of them finds the cursor within the bytes. The main
statement says what holds behind every run, and what the next request does there.
-/
namespace CilCodec

inductive Request where
  | read (type : ScalarType)
  | advance (step : Nat)
  | ensure (needed : Nat)
  | peekByte
  | readOperand (kind : OperandKind)
  | readInstruction (config : Config)
  deriving DecidableEq

/-- Bytes of an operand of the kind; a jump table has as many as its deltas ask for. -/
def OperandKind.sizeOf (kind : OperandKind) (x : Operand) : Nat :=
  kind.size?.getD (4 + 4 * x.deltas.length)

variable {data : List UInt8} {α : Type}

/-- With `needed` bytes in front of the cursor the reader succeeds and moves by `step`; without them
it reports how many there are and stays. -/
structure Reader.Needs (r : Reader data α) (c : Cursor data) (needed step : Nat) : Prop where
  ok : needed ≤ c.remaining → ∃ a d, r c = .ok a d ∧ d.position = c.position + step
  error : c.remaining < needed → r c = .error (.truncated c.position needed c.remaining) c

namespace Cursor

/-- Where the request leaves the cursor, whether it succeeds or fails. -/
def behind (c : Cursor data) : Request → Cursor data
  | .read type => (Reader.read type).final c
  | .advance step => (Reader.advance step).final c
  | .ensure needed => (Reader.ensure needed).final c
  | .peekByte => Reader.peekByte.final c
  | .readOperand kind => Reader.final (Operand.read kind) c
  | .readInstruction config => Reader.final (Instruction.read config) c

def after (c : Cursor data) (requests : List Request) : Cursor data := requests.foldl behind c

/-- The cursor is within the bytes, and no request takes it out of them or back. -/
structure Lawful (c : Cursor data) : Prop where
  position_le : c.position ≤ data.length
  position_add_remaining : c.position + c.remaining = data.length
  position_le_behind : ∀ request, c.position ≤ (c.behind request).position
  read : ∀ type, (Reader.read type).Needs c type.width type.width
  advance : ∀ step, (Reader.advance step).Needs c step step
  ensure : ∀ needed, (Reader.ensure needed).Needs c needed 0
  peekByte : Reader.peekByte.Needs c 1 0
  readOperand_ok : ∀ {kind x d}, Operand.read kind c = .ok x d →
    d.position = c.position + kind.sizeOf x
  /-- A failed read of an operand moves over nothing but the count of a jump table. -/
  readOperand_error : ∀ {kind e d}, Operand.read kind c = .error e d →
    d.position = c.position + if kind = .inlineSwitch ∧ 4 ≤ c.remaining then 4 else 0
  readInstruction_ok : ∀ {config i d}, Instruction.read config c = .ok i d →
    d.position = c.position + i.size
  readInstruction_error : ∀ {config e d}, Instruction.read config c = .error e d →
    c.position ≤ d.position ∧ d.position ≤ data.length

end Cursor

variable {c d : Cursor data} {kind : OperandKind} {x : Operand} {w : List UInt8} {e : Error}

namespace Reader

theorem needs_read (c : Cursor data) (type : ScalarType) :
    (read type).Needs c type.width type.width where
  ok h := ⟨_, _, read_of_le type h, rfl⟩
  error h := read_of_lt type h

theorem needs_advance (c : Cursor data) (step : Nat) : (advance step).Needs c step step where
  ok h := ⟨(), c.skip step, by simp [advance, h], rfl⟩
  error h := by simp [advance, Nat.not_le.2 h, Cursor.shortfall]

theorem needs_ensure (c : Cursor data) (needed : Nat) : (ensure needed).Needs c needed 0 where
  ok h := ⟨(), c, by simp [ensure, h], rfl⟩
  error h := by simp [ensure, Nat.not_le.2 h, Cursor.shortfall]

theorem needs_peekByte (c : Cursor data) : peekByte.Needs c 1 0 where
  ok h := by
    rcases List.exists_cons_of_length_pos h with ⟨b, after, hrest⟩
    exact ⟨b, c, by rw [peekByte, hrest], rfl⟩
  error h := by
    have hrest : c.rest = [] := List.length_eq_zero_iff.1 (Nat.lt_one_iff.1 h)
    rw [peekByte, hrest]
    rfl

end Reader

theorem OperandKind.length_eq_sizeOf (h : kind.Spells x w) : w.length = kind.sizeOf x := by
  by_cases hkind : kind = .inlineSwitch
  · subst hkind
    rcases exists_switch_of_spells h with ⟨deltas, rfl, hlength⟩
    exact hlength
  · rw [sizeOf, length_of_spells h hkind, Option.getD_some]

namespace Operand

theorem position_of_read_ok (h : read kind c = .ok x d) :
    d.position = c.position + kind.sizeOf x := by
  rcases spells_of_read h with ⟨w, after, hspells, -, rfl⟩
  rw [Cursor.position_skip, OperandKind.length_eq_sizeOf hspells]

theorem position_of_read_error (h : read kind c = .error e d) :
    d.position = c.position + if kind = .inlineSwitch ∧ 4 ≤ c.remaining then 4 else 0 := by
  by_cases hkind : kind = .inlinePhi
  · subst hkind
    rw [read_inlinePhi] at h
    cases h
    rfl
  · rcases OperandKind.frames_or_lacks hkind c.rest with ⟨w, after, hw, hrest⟩ | ⟨needed, hlacks⟩
    · rcases OperandKind.exists_spells_of_frames hw with ⟨y, hy⟩
      rw [read_of_spells hy hrest] at h
      cases h
    · rw [read_of_lacks hlacks] at h
      cases h
      split <;> rfl

end Operand

theorem Instruction.position_of_read_ok {config : Config} {i : Instruction}
    (h : read config c = .ok i d) : d.position = c.position + i.size := by
  rcases spells_of_read h with ⟨o, x, w, after, -, -, rfl, rfl⟩
  rfl

namespace Cursor

theorem reaches_behind (c : Cursor data) (request : Request) : c.Reaches (c.behind request) := by
  cases request with
  | read type => exact Reader.forward_read type c
  | advance step => exact Reader.forward_advance step c
  | ensure needed => exact Reader.forward_ensure needed c
  | peekByte => exact Reader.forward_peekByte c
  | readOperand kind => exact Reader.forward_readOperand kind c
  | readInstruction config => exact Reader.forward_readInstruction config c

theorem reaches_after (c : Cursor data) (requests : List Request) :
    c.Reaches (c.after requests) := by
  induction requests generalizing c with
  | nil => exact .refl c
  | cons request requests ih => exact (c.reaches_behind request).trans (ih _)

theorem after_append (c : Cursor data) (requests more : List Request) :
    c.after (requests ++ more) = (c.after requests).after more := List.foldl_append

theorem lawful_of_position_le (h : c.position ≤ data.length) : c.Lawful where
  position_le := h
  position_add_remaining := position_add_length h
  position_le_behind request := (c.reaches_behind request).position_le
  read := Reader.needs_read c
  advance := Reader.needs_advance c
  ensure := Reader.needs_ensure c
  peekByte := Reader.needs_peekByte c
  readOperand_ok := Operand.position_of_read_ok
  readOperand_error := Operand.position_of_read_error
  readInstruction_ok := Instruction.position_of_read_ok
  readInstruction_error hread := by
    have hreach := (Reader.forward_readInstruction _).of_error hread
    exact ⟨hreach.position_le, hreach.position_le_length h⟩

/-- Behind every run of requests the cursor is within the bytes and the next request does what it
should, and whatever is asked further on, the cursor does not go back. -/
theorem lawful_after_start (data : List UInt8) (requests more : List Request) :
    ((start data).after requests).Lawful ∧
      ((start data).after requests).position ≤ ((start data).after (requests ++ more)).position := by
  constructor
  · apply lawful_of_position_le
    exact ((start data).reaches_after requests).position_le_length (Nat.zero_le _)
  · rw [after_append]
    exact (reaches_after _ more).position_le

-- A step past the end is refused, and a table without its entries is left behind its count.
example : ((start [2, 0, 0, 0, 1]).after
    [.advance (2 ^ 64 - 1), .readOperand .inlineSwitch, .peekByte]).position = 4 := by
  decide +kernel

end Cursor
end CilCodec
