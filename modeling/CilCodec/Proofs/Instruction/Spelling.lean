import CilCodec.Proofs.Opcode.Spelling
import CilCodec.Proofs.Operand.Spelling

/-!
# Bytes that spell instructions

An instruction is spelled by its opcode and its operand behind it. Bytes that begin with no
instruction are rejected for one of six causes. The main statements say that the spellings are what
encoding a defined opcode gives, that they are the bytes of the right number behind a defined
opcode, and that all other bytes are rejected.
-/
namespace CilCodec

/-- The bytes begin with the count of a jump table, and that is more than the limit `max`. -/
def OperandKind.Exceeds (kind : OperandKind) (limit : Option Nat) (bytes : List UInt8)
    (count max : Nat) : Prop :=
  kind = .inlineSwitch ∧ limit = some max ∧ max < count ∧
    ∃ head entries, head.length = 4 ∧ LittleEndian.value head = count ∧ bytes = head ++ entries

namespace Instruction

inductive Spells (o : Opcode) (x : Operand) : List UInt8 → Prop where
  | intro {head tail : List UInt8} : o.Spells head → o.kind.Spells x tail →
      Spells o x (head ++ tail)

/-- The bytes are those of a defined opcode, and as many behind it as its operand has. -/
inductive WellFormed : List UInt8 → Prop where
  | intro {o : Opcode} {head tail : List UInt8} : o.Spells head → o.kind.Frames tail →
      WellFormed (head ++ tail)

/-- No instruction can be read from the front of the bytes, which stand at the offset `start`, for
the cause that the error names. -/
inductive Rejects (limit : Option Nat) (start : Nat) : List UInt8 → Error → Prop where
  | empty : Rejects limit start [] (.truncated start 1 0)
  | unknown (b : UInt8) (after : List UInt8) : b ≠ Opcode.escape →
      (Opcode.singleByte b).isDefined = false →
      Rejects limit start (b :: after) (.unknownOpcode start 0 b)
  | escape : Rejects limit start [Opcode.escape] (.truncated start 1 0)
  | unknownEscaped (b : UInt8) (after : List UInt8) : (Opcode.escaped b).isDefined = false →
      Rejects limit start (Opcode.escape :: b :: after) (.unknownOpcode start Opcode.escape b)
  | operand {o : Opcode} {head tail : List UInt8} {needed : Nat} : o.Spells head →
      (∀ count max, ¬ o.kind.Exceeds limit tail count max) → o.kind.Lacks tail needed →
      Rejects limit start (head ++ tail) (.truncated start needed tail.length)
  | limit {o : Opcode} {head tail : List UInt8} {count max : Nat} : o.Spells head →
      o.kind.Exceeds limit tail count max →
      Rejects limit start (head ++ tail) (.switchTooLarge start count max)

variable {o : Opcode} {x : Operand} {w : List UInt8}

/-- The spellings of instructions are what encoding a defined opcode gives. -/
theorem spells_iff_encode : Spells o x w ↔ o ∈ Opcode.defined ∧ o.encode x = .ok w := by
  rw [Opcode.encode_eq_ok_iff]
  constructor
  · intro h
    cases h with
    | @intro head tail ho hx =>
      rw [← Opcode.bytes_of_spells ho]
      exact ⟨Opcode.mem_defined_of_spells ho, tail, OperandKind.encode?_of_spells hx, rfl⟩
  · rintro ⟨ho, tail, hx, rfl⟩
    exact .intro (Opcode.spells_of_mem_defined ho) (OperandKind.spells_of_encode? hx)

theorem Spells.bytes_unique {v : List UInt8} (hw : Spells o x w) (hv : Spells o x v) : w = v := by
  have h := (spells_iff_encode.1 hw).2
  rw [(spells_iff_encode.1 hv).2] at h
  exact (Except.ok.inj h).symm

theorem wellFormed_iff : WellFormed w ↔ ∃ o x, Spells o x w := by
  constructor
  · intro h
    cases h with
    | intro ho hw =>
      rcases OperandKind.exists_spells_of_frames hw with ⟨x, hx⟩
      exact ⟨_, x, .intro ho hx⟩
  · rintro ⟨o, x, h⟩
    cases h with
    | intro ho hx => exact .intro ho (OperandKind.frames_of_spells hx)

theorem Spells.length_pos (h : Spells o x w) : 0 < w.length := by
  cases h with
  | @intro head tail ho hx =>
    have hsize := o.size_pos
    rw [List.length_append, ← Opcode.bytes_of_spells ho, Opcode.length_bytes]
    omega

theorem not_exceeds_none {kind : OperandKind} {bytes : List UInt8} (count max : Nat) :
    ¬ kind.Exceeds none bytes count max := by
  rintro ⟨-, h, -⟩
  cases h

theorem opcode_or_rejects (limit : Option Nat) (start : Nat) (bytes : List UInt8) :
    (∃ o head tail, Opcode.Spells o head ∧ bytes = head ++ tail) ∨
      ∃ e, Rejects limit start bytes e := by
  match bytes with
  | [] => exact .inr ⟨_, .empty⟩
  | b :: after =>
    by_cases hb : b = Opcode.escape
    · subst hb
      match after with
      | [] => exact .inr ⟨_, .escape⟩
      | b :: after =>
        cases hdef : (Opcode.escaped b).isDefined with
        | true => exact .inl ⟨_, _, after, .escaped b hdef, rfl⟩
        | false => exact .inr ⟨_, .unknownEscaped b after hdef⟩
    · cases hdef : (Opcode.singleByte b).isDefined with
      | true => exact .inl ⟨_, _, after, .singleByte b hb hdef, rfl⟩
      | false => exact .inr ⟨_, .unknown b after hb hdef⟩

theorem spells_or_rejects (limit : Option Nat) (start : Nat) (bytes : List UInt8) :
    (∃ o x head tail after, Opcode.Spells o head ∧ o.kind.Spells x tail ∧
        bytes = head ++ (tail ++ after) ∧
        ∀ count max, ¬ o.kind.Exceeds limit (tail ++ after) count max) ∨
      ∃ e, Rejects limit start bytes e := by
  rcases opcode_or_rejects limit start bytes with ⟨o, head, rest, ho, rfl⟩ | h
  · by_cases hlimit : ∃ count max, o.kind.Exceeds limit rest count max
    · rcases hlimit with ⟨count, max, h⟩
      exact .inr ⟨_, .limit ho h⟩
    · have hlimit' : ∀ count max, ¬ o.kind.Exceeds limit rest count max :=
        fun count max h => hlimit ⟨count, max, h⟩
      have hkind := Opcode.kind_ne_inlinePhi (Opcode.mem_defined_of_spells ho)
      rcases OperandKind.frames_or_lacks hkind rest with ⟨w, after, hw, rfl⟩ | ⟨needed, h⟩
      · rcases OperandKind.exists_spells_of_frames hw with ⟨x, hx⟩
        exact .inl ⟨o, x, head, w, after, ho, hx, rfl, hlimit'⟩
      · exact .inr ⟨_, .operand ho hlimit' h⟩
  · exact .inr h

theorem Rejects.offset?_eq {limit : Option Nat} {start : Nat} {bytes : List UInt8} {e : Error}
    (h : Rejects limit start bytes e) : e.offset? = some start := by
  cases h <;> rfl

theorem Rejects.anchoredAt_eq {limit : Option Nat} {start : Nat} {bytes : List UInt8} {e : Error}
    (h : Rejects limit start bytes e) : e.anchoredAt start = e := by
  cases h <;> rfl

end Instruction
end CilCodec
