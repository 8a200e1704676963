import CilCodec.Proofs.Decoder.Session
import CilCodec.Proofs.Decoder.Step

/-!
# Decoders over the rest of a body

A decoder somewhere in a body, and a fresh decoder over the bytes from there on. The two do the same
things, but for the bytes in front of the fresh one, which are added to every offset. The main
statement is about sessions of any length: nothing in front of a positioned decoder shows in what it
returns.
-/
namespace CilCodec

variable {data : List UInt8} {p : Nat}

/-- The same error, its offset counted from a place `p` bytes earlier. -/
def Error.movedBy (p : Nat) : Error → Error
  | truncated offset needed available => truncated (p + offset) needed available
  | unknownOpcode offset lead value => unknownOpcode (p + offset) lead value
  | unsupportedOperand offset kind => unsupportedOperand (p + offset) kind
  | switchTooLarge offset count limit => switchTooLarge (p + offset) count limit
  | e => e

/-- The instruction `j` of a body is the instruction `i` of what the body holds behind its first `p`
bytes, both read with these options. -/
structure Instruction.MovedBy (config : Config) (data : List UInt8) (p : Nat) (i j : Instruction) :
    Prop where
  offset_eq : j.offset = p + i.offset
  size_eq : j.size = i.size
  opcode_eq : j.opcode = i.opcode
  operand_eq : j.operand = i.operand
  resolution_eq : j.resolution = i.resolution
  /-- A delta may lead in front of the rest and still into the body; where none does, the targets
  correspond. No body in memory has half as many bytes as there are words. -/
  targets_eq : 2 * data.length < Word.range →
    (config.computesTargets = true →
      ∀ delta ∈ i.operand.deltas, (Word.displaced? i.next delta.toInt).isSome = true) →
    j.targets = i.targets.map (p + ·)

inductive Phase.MovedBy (p : Nat) : Phase (data.drop p) → Phase data → Prop where
  | positioned : MovedBy p .positioned .positioned
  | exhausted : MovedBy p .exhausted .exhausted
  | failed {start : Cursor (data.drop p)} {start' : Cursor data} (recoverable : Bool) :
      start'.position = p + start.position →
      MovedBy p (.failed start recoverable) (.failed start' recoverable)

/-- Decoders with these options return the same thing, the second of them `p` bytes further on. -/
inductive Outcome.MovedBy (config : Config) (data : List UInt8) (p : Nat) :
    Outcome → Outcome → Prop where
  | finished : MovedBy config data p (.item none) (.item none)
  | failed (e : Error) :
      MovedBy config data p (.item (some (.error e))) (.item (some (.error (e.movedBy p))))
  | read {i j : Instruction} : i.MovedBy config data p j →
      MovedBy config data p (.item (some (.ok i))) (.item (some (.ok j)))
  | resumed (moved : Bool) : MovedBy config data p (.resumed moved) (.resumed moved)
  | configured : MovedBy config data p .configured .configured

/-- The decoder `d'` over a body and the decoder `d` over what the body holds behind its first `p`
bytes are at the same byte and in the same phase, with the same options and the same resolver. -/
structure Decoder.MovedBy {σ : Type} (p : Nat) (d : Decoder σ (data.drop p)) (d' : Decoder σ data) :
    Prop where
  position_eq : d'.position = p + d.position
  phase : d.phase.MovedBy p d'.phase
  config_eq : d'.config = d.config
  scope_eq : d'.scope = d.scope
  state_eq : d'.state = d.state

structure Step.MovedBy {σ : Type} (p : Nat) (step : Step σ (data.drop p) Outcome)
    (step' : Step σ data Outcome) : Prop where
  result : step.result.MovedBy step.decoder.config data p step'.result
  decoder : step.decoder.MovedBy p step'.decoder

theorem Error.movedBy_anchoredAt (p start : Nat) (e : Error) :
    (e.anchoredAt start).movedBy p = e.anchoredAt (p + start) := by
  cases e <;> rfl

theorem Cursor.rest_eq_of_moved {c : Cursor (data.drop p)} {c' : Cursor data}
    (h : c'.position = p + c.position) : c'.rest = c.rest := by
  rw [c.rest_eq, c'.rest_eq, h, List.drop_drop]

theorem Phase.MovedBy.positioned_iff {phase : Phase (data.drop p)} {phase' : Phase data}
    (h : phase.MovedBy p phase') : phase' = .positioned ↔ phase = .positioned := by
  cases h <;> simp

theorem Phase.MovedBy.of_failed_left {phase : Phase (data.drop p)} {phase' : Phase data}
    (h : phase.MovedBy p phase') {start : Cursor (data.drop p)} {recoverable : Bool}
    (hphase : phase = .failed start recoverable) :
    ∃ start', phase' = .failed start' recoverable ∧ start'.position = p + start.position := by
  subst hphase
  cases h with
  | failed recoverable hstart => exact ⟨_, rfl, hstart⟩

theorem Phase.MovedBy.of_failed_right {phase : Phase (data.drop p)} {phase' : Phase data}
    (h : phase.MovedBy p phase') {start' : Cursor data} {recoverable : Bool}
    (hphase : phase' = .failed start' recoverable) :
    ∃ start, phase = .failed start recoverable ∧ start'.position = p + start.position := by
  subst hphase
  cases h with
  | failed recoverable hstart => exact ⟨_, rfl, hstart⟩

/-- Where no delta leads in front of the rest, the targets in the body are those in the rest. -/
theorem Operand.targets_add {x : Operand} {next : Nat} (hbound : 2 * (p + next) < Word.range)
    (h : ∀ delta ∈ x.deltas, (Word.displaced? next delta.toInt).isSome = true) :
    x.targets (p + next) = (x.targets next).map (p + ·) := by
  have hrange : Word.range = 18446744073709551616 := rfl
  rw [targets, targets, List.map_filterMap]
  refine List.filterMap_congr fun delta hdelta => ?_
  have hlt := delta.toInt_lt
  rcases Option.isSome_iff_exists.1 (h delta hdelta) with ⟨target, htarget⟩
  have hsum := (Word.displaced?_eq_some_iff.1 htarget).1
  rw [htarget, Option.map_some, Word.displaced?_eq_some_iff]
  omega

namespace Instruction

variable {start start' size : Nat} {config config' : Config}

theorem movedBy_unresolved (o : Opcode) (x : Operand) (resolution : Resolution)
    (hconfig : config' = config) (hstart : start' = p + start)
    (hend : start' + size ≤ data.length) :
    MovedBy config data p { unresolved config start o x size with resolution := resolution }
      { unresolved config' start' o x size with resolution := resolution } where
  offset_eq := hstart
  size_eq := rfl
  opcode_eq := rfl
  operand_eq := rfl
  resolution_eq := rfl
  targets_eq := by
    intro hlength h
    dsimp only [unresolved]
    rw [hconfig]
    split
    · next htrue =>
      have hbound : 2 * (p + (start + size)) < Word.range := by omega
      have htargets := Operand.targets_add hbound (h htrue)
      rwa [← Nat.add_assoc, ← hstart] at htargets
    · rfl

end Instruction

namespace Decoder

variable {σ : Type} {d : Decoder σ (data.drop p)} {d' : Decoder σ data}

namespace MovedBy

theorem rest_eq (h : d.MovedBy p d') : d'.cursor.rest = d.cursor.rest :=
  Cursor.rest_eq_of_moved h.position_eq

theorem position_add_le {size : Nat} (h : d.MovedBy p d') (hrest : d.cursor.rest ≠ [])
    (hsize : size ≤ d.cursor.remaining) : d'.position + size ≤ data.length := by
  have hpos : 0 < d'.cursor.remaining := by
    rw [Cursor.remaining, h.rest_eq]
    exact List.length_pos_iff.2 hrest
  rw [Cursor.remaining, ← h.rest_eq, ← Cursor.remaining, d'.cursor.remaining_eq] at hsize
  rw [d'.cursor.remaining_eq] at hpos
  rw [position]
  omega

theorem next (h : d.MovedBy p d') : Step.MovedBy p (d.perform .next) (d'.perform .next) := by
  by_cases hphase : d.phase = .positioned
  · have hphase' := h.phase.positioned_iff.2 hphase
    by_cases hrest : d.cursor.rest = []
    · rw [perform, perform, next_of_end hphase hrest, next_of_end hphase' (h.rest_eq.trans hrest)]
      exact ⟨.finished, h.position_eq, .exhausted, h.config_eq, h.scope_eq, h.state_eq⟩
    · have hrest' : d'.cursor.rest ≠ [] := h.rest_eq ▸ hrest
      rcases Instruction.read_of_rest_eq (congrArg Config.switchLimit h.config_eq) h.rest_eq with
        ⟨o, x, size, hsize, hread, hread'⟩ | ⟨e, taken, hread, hread'⟩
      · have hposition : d'.position + size = p + (d.position + size) := by
          rw [h.position_eq, Nat.add_assoc]
        have hquery : ({ d' with cursor := d'.cursor.skip size } : Decoder σ data).query?
            (Instruction.unresolved d'.config d'.position o x size) =
              ({ d with cursor := d.cursor.skip size } : Decoder σ (data.drop p)).query?
                (Instruction.unresolved d.config d.position o x size) :=
          query?_eq h.scope_eq h.config_eq rfl rfl
        rcases resolve_of_query?_eq hquery h.state_eq rfl with
          ⟨resolution, s, _, _, hresolve, hresolve'⟩
        have hnext := next_of_read_ok hphase hrest hread
        have hnext' := next_of_read_ok hphase' hrest' hread'
        rw [← position, hresolve] at hnext
        rw [← position, hresolve'] at hnext'
        rw [perform, perform, hnext, hnext']
        exact ⟨.read (Instruction.movedBy_unresolved o x resolution h.config_eq h.position_eq
          (h.position_add_le hrest hsize)), hposition, h.phase, h.config_eq, h.scope_eq, rfl⟩
      · have hposition : d'.position + taken = p + (d.position + taken) := by
          rw [h.position_eq, Nat.add_assoc]
        rw [perform, perform, next_of_read_error hphase hrest hread,
          next_of_read_error hphase' hrest' hread', Error.isRecoverable_anchoredAt,
          Error.isRecoverable_anchoredAt, ← position, ← position, h.position_eq,
          ← Error.movedBy_anchoredAt]
        exact ⟨.failed _, hposition, .failed _ h.position_eq, h.config_eq, h.scope_eq, h.state_eq⟩
  · have hphase' : d'.phase ≠ .positioned := fun h' => hphase (h.phase.positioned_iff.1 h')
    rw [perform, perform, next_of_not_positioned hphase, next_of_not_positioned hphase']
    exact ⟨.finished, h⟩

theorem resync (h : d.MovedBy p d') : Step.MovedBy p (d.perform .resync) (d'.perform .resync) := by
  rcases d.resync_inversion with ⟨start, hphase, hrest, hresync⟩ | ⟨hnil, hresync⟩
  · rcases h.phase.of_failed_left hphase with ⟨start', hphase', hstart⟩
    have hrest' : start'.rest ≠ [] := by rwa [Cursor.rest_eq_of_moved hstart]
    have hposition : start'.position + 1 = p + (start.position + 1) := by rw [hstart, Nat.add_assoc]
    rw [perform, perform, hresync, resync_of_failed hphase' hrest']
    exact ⟨.resumed true, hposition, .positioned, h.config_eq, h.scope_eq, h.state_eq⟩
  · have hnil' (start' : Cursor data) (hphase' : d'.phase = .failed start' true) :
        start'.rest = [] := by
      rcases h.phase.of_failed_right hphase' with ⟨start, hphase, hstart⟩
      rw [Cursor.rest_eq_of_moved hstart, hnil start hphase]
    rw [perform, perform, hresync, resync_of_forall_nil hnil']
    exact ⟨.resumed false, h⟩

theorem configure (h : d.MovedBy p d') (config : Config) :
    Step.MovedBy p (d.perform (.configure config)) (d'.perform (.configure config)) :=
  ⟨.configured, h.position_eq, h.phase, rfl, h.scope_eq, h.state_eq⟩

theorem perform (h : d.MovedBy p d') (command : Command) :
    Step.MovedBy p (d.perform command) (d'.perform command) := by
  cases command with
  | next => exact h.next
  | resync => exact h.resync
  | configure config => exact h.configure config

theorem session (h : d.MovedBy p d') (commands : List Command) :
    List.Forall₂ (Step.MovedBy p) (d.session commands) (d'.session commands) := by
  induction commands generalizing d d' with
  | nil => exact .nil
  | cons command commands ih => exact .cons (h.perform command) (ih (h.perform command).decoder)

end MovedBy

theorem scope_behind (d : Decoder σ data) (commands : List Command) :
    (d.behind commands).scope = d.scope := by
  refine behind_induction (P := fun d' => d'.scope = d.scope) (fun command _ d' h => ?_) rfl
  cases command with
  | next => exact (scope_next d').trans h
  | resync => exact (scope_resync d').trans h
  | configure config => exact h

/-- A decoder that is positioned somewhere in a body does what a fresh decoder with its options and
its resolver does over the bytes from there on, whatever brought it there. -/
theorem session_behind_movedBy (data : List UInt8) (scope : Option (Scope σ)) (s : σ)
    (commands later : List Command)
    (h : ((start data scope s).behind commands).phase = .positioned) :
    let d := (start data scope s).behind commands
    List.Forall₂ (Step.MovedBy d.position)
      (((start (data.drop d.position) scope d.state).configure d.config).session later)
      (d.session later) := by
  intro d
  have hphase : Phase.MovedBy d.position (.positioned : Phase (data.drop d.position)) d.phase := by
    rw [h]
    exact .positioned
  exact MovedBy.session ⟨rfl, hphase, rfl, scope_behind _ commands, rfl⟩ later

/-- A session that comes to the second byte of an unknown opcode, and goes on from there over a branch
back, a call, a jump table and another unknown opcode. -/
theorem session_behind_movedBy_second_byte :
    let data : List UInt8 := [0x00, 0xFE, 0x08, 0x2B, 0xFD, 0x28, 0x01, 0, 0, 0x0A,
      0x45, 0x01, 0, 0, 0, 0xFB, 0xFF, 0xFF, 0xFF, 0x24, 0x2A]
    let main : Scope Unit :=
      ⟨.ofFunction fun q => .ok ⟨q.token, .method, "Main"⟩, .ofMethod ⟨0x06000001⟩⟩
    let later : List Command :=
      [.next, .next, .configure .strict, .next, .next, .next, .resync, .next, .next]
    let d := (start data (some main) ()).behind [.next, .next, .resync]
    d.phase = .positioned ∧
      List.Forall₂ (Step.MovedBy d.position)
        (((start (data.drop d.position) (some main) d.state).configure d.config).session later)
        (d.session later) := by
  intro data main later d
  have hphase : d.phase = .positioned := by rfl
  exact ⟨hphase, session_behind_movedBy data (some main) () [.next, .next, .resync] later hphase⟩

end Decoder
end CilCodec
