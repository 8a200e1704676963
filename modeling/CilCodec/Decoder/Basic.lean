import CilCodec.Instruction.Reader
import CilCodec.Resolver.Basic

/-!
# Decoders

A decoder reads a body one instruction after the other and stops at the first that cannot be read.
Where its opcode is unknown, the decoder can be told to step over the first byte and go on. The main
statements say what each phase lets a step do, and that the steps of a sweep come to an end.
-/
namespace CilCodec

inductive Phase (data : List UInt8) where
  /-- In front of an instruction or at the end. -/
  | positioned
  /-- The end has been reported. -/
  | exhausted
  /-- The instruction that starts at the cursor could not be read. -/
  | failed (start : Cursor data) (recoverable : Bool)

structure Decoder (σ : Type) (data : List UInt8) where
  cursor : Cursor data
  phase : Phase data
  config : Config
  scope : Option (Scope σ)
  /-- The state of the scope's resolver. -/
  state : σ

/-- An instruction of a body, or why it cannot be read. -/
abbrev Item := Except Error Instruction

structure Step (σ : Type) (data : List UInt8) (α : Type) where
  result : α
  decoder : Decoder σ data
  events : List Event

namespace Decoder

variable {σ : Type} {data : List UInt8}

def start (data : List UInt8) (scope : Option (Scope σ)) (s : σ) : Decoder σ data where
  cursor := .start data
  phase := .positioned
  config := .standard
  scope := scope
  state := s

def position (d : Decoder σ data) : Nat := d.cursor.position

def configure (d : Decoder σ data) (config : Config) : Decoder σ data := { d with config := config }

/-- The query about an instruction's token, if the decoder has a resolver and may ask it. -/
def query? (d : Decoder σ data) (i : Instruction) : Option (Resolver σ × Query) :=
  match d.scope, i.operand.token? with
  | some scope, some token =>
    if d.config.resolvesTokens then
      some (scope.resolver, ⟨token, i.opcode.kind, scope.context⟩)
    else none
  | _, _ => none

/-- Asks about the token of an instruction and notes the outcome in it. -/
def resolve (d : Decoder σ data) (i : Instruction) : Step σ data Instruction :=
  match d.query? i with
  | none => ⟨i, d, []⟩
  | some (resolver, query) =>
    let reply := resolver d.state query
    let d := { d with state := reply.state }
    match reply.answer with
    | .ok symbol => ⟨{ i with resolution := .resolved symbol }, d, reply.events⟩
    | .error error =>
      ⟨{ i with resolution := .unresolved }, d,
        reply.events ++ [.unresolved i.offset i.mnemonic query.token error]⟩

/-- The next item of the body, if the decoder is positioned in front of one. -/
def next (d : Decoder σ data) : Step σ data (Option Item) :=
  match d.phase with
  | .positioned =>
    if d.cursor.atEnd then ⟨none, { d with phase := .exhausted }, []⟩
    else
      match Instruction.read d.config d.cursor with
      | .ok i c =>
        let step := { d with cursor := c }.resolve i
        ⟨some (.ok step.result), step.decoder, step.events ++ [.decoded step.result]⟩
      | .error e c =>
        ⟨some (.error e), { d with cursor := c, phase := .failed d.cursor e.isRecoverable },
          [.failed d.position e]⟩
  | _ => ⟨none, d, []⟩

/-- Steps over the first byte of a failed instruction, after a failure that allows it. -/
def resync (d : Decoder σ data) : Step σ data Bool :=
  match d.phase with
  | .failed start true =>
    match Reader.advance 1 start with
    | .ok () c => ⟨true, { d with cursor := c, phase := .positioned }, [.resynchronised c.position]⟩
    | .error .. => ⟨false, d, []⟩
  | _ => ⟨false, d, []⟩

/-- Bounds the items still to come: one for each byte in front of a positioned decoder. -/
def budget (d : Decoder σ data) : Nat :=
  match d.phase with
  | .positioned => d.cursor.remaining
  | _ => 0

theorem cursor_resolve (d : Decoder σ data) (i : Instruction) :
    (d.resolve i).decoder.cursor = d.cursor := by
  unfold resolve
  split
  · rfl
  · dsimp only
    split <;> rfl

theorem phase_resolve (d : Decoder σ data) (i : Instruction) :
    (d.resolve i).decoder.phase = d.phase := by
  unfold resolve
  split
  · rfl
  · dsimp only
    split <;> rfl

theorem next_of_not_positioned {d : Decoder σ data} (h : d.phase ≠ .positioned) :
    d.next = ⟨none, d, []⟩ := by
  unfold next
  split
  · contradiction
  · rfl

theorem budget_next_lt {d : Decoder σ data} {item : Item} (h : d.next.result = some item) :
    d.next.decoder.budget < d.budget := by
  unfold next at h ⊢
  split
  · next hp =>
    simp only [hp] at h ⊢
    by_cases hend : d.cursor.atEnd = true
    · simp [hend] at h
    · have hpos : 0 < d.cursor.remaining := by
        rw [Cursor.atEnd_eq_true_iff] at hend
        omega
      simp only [hend, Bool.false_eq_true, if_false] at h ⊢
      cases hr : Instruction.read d.config d.cursor with
      | ok i c =>
        have hlt := Reader.remaining_lt_of_readInstruction hr
        simpa [budget, phase_resolve, cursor_resolve, hp] using hlt
      | error e c => simpa [budget, hp] using hpos
  · next hp =>
    split at h
    · exact absurd (by assumption) hp
    · simp at h

end Decoder
end CilCodec
