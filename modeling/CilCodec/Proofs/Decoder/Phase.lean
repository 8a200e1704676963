import CilCodec.Proofs.Decoder.Session
import CilCodec.Proofs.Decoder.Step
import Mathlib.Data.List.Induction

/-!
# Phases of a decoder

What the phase of a decoder says about its cursor and about the last error that it yielded, and how
each command changes the phase. A failed decoder stands behind the start of the instruction that it
could not read, by the bytes that it took from it, so going on after a failure can move the cursor
back; it does so by one byte, and only after an unknown escaped opcode. The main statement holds
after every session, whatever the body, the configurations and the resolver.
-/
namespace CilCodec.Decoder

variable {σ : Type} {data : List UInt8}

/-- What holds of a decoder whose last error, if it has yielded any, is `last`. -/
structure Consistent (d : Decoder σ data) (last : Option Error) : Prop where
  position_le : d.position ≤ data.length
  position_of_exhausted : d.phase = .exhausted → d.position = data.length
  position_of_failed : ∀ {start recoverable}, d.phase = .failed start recoverable →
    start.position < d.position
  error_of_failed : ∀ {start recoverable}, d.phase = .failed start recoverable →
    ∃ e, last = some e ∧ e.offset? = some start.position ∧ e.isRecoverable = recoverable
  /-- A failure that can be stepped over is an unknown opcode; the cursor is behind its bytes. -/
  opcode_of_failed : ∀ {start}, d.phase = .failed start true →
    ∃ lead value, last = some (.unknownOpcode start.position lead value) ∧
      (lead = 0 ∧ d.cursor = start.skip 1 ∨ lead = Opcode.escape ∧ d.cursor = start.skip 2)

/-- What each command does to a decoder whose last error is `last`. -/
structure Transitions (d : Decoder σ data) (last : Option Error) : Prop where
  /-- Nothing comes and nothing changes behind the end or a failure. -/
  next_of_stopped : d.phase ≠ .positioned → d.next = ⟨none, d, []⟩
  next_eq_none_iff : d.phase = .positioned →
    (d.next.result = none ↔ d.position = data.length)
  next_of_none : d.phase = .positioned → d.next.result = none →
    d.next.decoder = { d with phase := .exhausted }
  next_of_ok : ∀ {i}, d.next.result = some (.ok i) →
    d.phase = .positioned ∧ i.offset = d.position ∧ d.position < i.next ∧
      d.next.decoder.phase = .positioned ∧ d.next.decoder.position = i.next
  next_of_error : ∀ {e}, d.next.result = some (.error e) →
    d.phase = .positioned ∧ e.offset? = some d.position ∧
      d.next.decoder.phase = .failed d.cursor e.isRecoverable
  /-- There is always a byte to step over. -/
  resync_eq_true_iff : d.resync.result = true ↔ ∃ start, d.phase = .failed start true
  resync_of_failed : ∀ {start}, d.phase = .failed start true →
    d.resync.decoder = { d with cursor := start.skip 1, phase := .positioned }
  resync_of_false : d.resync.result = false → d.resync.decoder = d
  phase_behind : d.phase = .exhausted ∨ (∃ start, d.phase = .failed start false) →
    ∀ commands, (d.behind commands).phase = d.phase
  /-- Only going on after an unknown escaped opcode moves a decoder back. -/
  perform_back : ∀ command, (d.perform command).decoder.position < d.position →
    command = .resync ∧ ∃ start value, d.phase = .failed start true ∧
      last = some (.unknownOpcode start.position Opcode.escape value) ∧
      d.position = start.position + 2 ∧
      (d.perform command).decoder.position = start.position + 1

variable {d : Decoder σ data} {last : Option Error}

theorem position_eq_length_iff (h : d.position ≤ data.length) :
    d.position = data.length ↔ d.cursor.rest = [] := by
  have hlength : d.position + d.cursor.rest.length = data.length := Cursor.position_add_length h
  rw [← List.length_eq_zero_iff]
  omega

namespace Consistent

theorem start (data : List UInt8) (scope : Option (Scope σ)) (s : σ) :
    (Decoder.start data scope s).Consistent none where
  position_le := Nat.zero_le _
  position_of_exhausted := by rintro ⟨⟩
  position_of_failed := by rintro _ _ ⟨⟩
  error_of_failed := by rintro _ _ ⟨⟩
  opcode_of_failed := by rintro _ ⟨⟩

/-- Where a decoder is positioned, only its place in the body matters. -/
theorem of_positioned (h : d.phase = .positioned) (hle : d.position ≤ data.length) :
    d.Consistent last where
  position_le := hle
  position_of_exhausted := by simp [h]
  position_of_failed := by simp [h]
  error_of_failed := by simp [h]
  opcode_of_failed := by simp [h]

theorem next_of_end (h : d.Consistent last) (hrest : d.cursor.rest = []) :
    ({ d with phase := .exhausted } : Decoder σ data).Consistent last where
  position_le := h.position_le
  position_of_exhausted := fun _ => (position_eq_length_iff h.position_le).2 hrest
  position_of_failed := by rintro _ _ ⟨⟩
  error_of_failed := by rintro _ _ ⟨⟩
  opcode_of_failed := by rintro _ ⟨⟩

theorem next_of_error {e : Error} {c : Cursor data} (h : d.Consistent last)
    (hread : Instruction.read d.config d.cursor = .error e c)
    (hoffset : e.offset? = some d.position) (hlt : d.position < c.position)
    (hreach : d.cursor.Reaches c) :
    ({ d with cursor := c, phase := .failed d.cursor e.isRecoverable } :
      Decoder σ data).Consistent (some e) where
  position_le := hreach.position_le_length h.position_le
  position_of_exhausted := by rintro ⟨⟩
  position_of_failed := by
    rintro start recoverable ⟨⟩
    exact hlt
  error_of_failed := by
    rintro start recoverable ⟨⟩
    exact ⟨e, rfl, hoffset, rfl⟩
  opcode_of_failed := by
    intro start hphase
    injection hphase with hstart hrec
    subst hstart
    rcases (Instruction.rejects_of_read hread).eq_unknownOpcode hrec with ⟨lead, value, rfl⟩
    exact ⟨lead, value, rfl, Instruction.cursor_of_unknownOpcode hread⟩

theorem next (h : d.Consistent last) :
    d.next.decoder.Consistent ((Outcome.item d.next.result).error?.or last) := by
  rcases d.next_inversion with ⟨-, hnext⟩ | ⟨-, hrest, hnext⟩ |
    ⟨i, s, events, hphase, -, hnext, -, -, hle⟩ |
    ⟨e, c, -, -, hread, hnext, hoffset, hlt, hreach⟩ <;>
    rw [hnext]
  · exact h
  · exact h.next_of_end hrest
  · exact .of_positioned hphase ((Cursor.Reaches.skip hle).position_le_length h.position_le)
  · exact h.next_of_error hread hoffset hlt hreach

/-- The instruction that could not be read has a first byte. -/
theorem rest_ne_nil_of_failed {start : Cursor data} {recoverable : Bool} (h : d.Consistent last)
    (hphase : d.phase = .failed start recoverable) : start.rest ≠ [] := by
  have hlt := h.position_of_failed hphase
  have hle := h.position_le
  rw [start.rest_eq, Ne, List.drop_eq_nil_iff]
  omega

theorem resync_of_failed {start : Cursor data} (h : d.Consistent last)
    (hphase : d.phase = .failed start true) :
    d.resync = ⟨true, { d with cursor := start.skip 1, phase := .positioned },
      [.resynchronised (start.position + 1)]⟩ :=
  Decoder.resync_of_failed hphase (h.rest_ne_nil_of_failed hphase)

theorem resync (h : d.Consistent last) : d.resync.decoder.Consistent last := by
  by_cases hfailed : ∃ start, d.phase = .failed start true
  · rcases hfailed with ⟨start, hphase⟩
    have hlt := h.position_of_failed hphase
    rw [h.resync_of_failed hphase]
    refine .of_positioned rfl ?_
    exact Nat.le_trans hlt h.position_le
  · rw [resync_of_forall_nil fun start hphase => absurd ⟨start, hphase⟩ hfailed]
    exact h

theorem configure (h : d.Consistent last) (config : Config) :
    (d.configure config).Consistent last where
  position_le := h.position_le
  position_of_exhausted := h.position_of_exhausted
  position_of_failed := h.position_of_failed
  error_of_failed := h.error_of_failed
  opcode_of_failed := h.opcode_of_failed

theorem perform (h : d.Consistent last) (command : Command) :
    (d.perform command).decoder.Consistent ((d.perform command).result.error?.or last) := by
  cases command with
  | next => exact h.next
  | resync => exact h.resync
  | configure config => exact h.configure config

/-- Every session leaves its decoder consistent with the last error that came. -/
theorem behind_start (data : List UInt8) (scope : Option (Scope σ)) (s : σ)
    (commands : List Command) :
    ((Decoder.start data scope s).behind commands).Consistent
      (lastError ((Decoder.start data scope s).session commands)) := by
  induction commands using List.reverseRecOn with
  | nil => exact .start data scope s
  | append_singleton commands command ih =>
    rw [behind_concat, lastError_session_concat]
    exact ih.perform command

end Consistent

/-- Nothing moves a decoder out of its end, or out of a failure that cannot be stepped over. -/
theorem phase_perform_of_stopped
    (h : d.phase = .exhausted ∨ ∃ start, d.phase = .failed start false) (command : Command) :
    (d.perform command).decoder.phase = d.phase := by
  cases command with
  | next =>
    have hstopped : d.phase ≠ .positioned := by
      rcases h with h | ⟨start, h⟩ <;> simp [h]
    rw [perform, next_of_not_positioned hstopped]
  | resync =>
    have hstuck (start : Cursor data) : d.phase ≠ .failed start true := by
      rcases h with h | ⟨start', h⟩ <;> simp [h]
    rw [perform, resync_of_forall_nil fun start hphase => absurd hphase (hstuck start)]
  | configure config => rfl

theorem phase_behind_of_stopped
    (h : d.phase = .exhausted ∨ ∃ start, d.phase = .failed start false) (commands : List Command) :
    (d.behind commands).phase = d.phase := by
  refine behind_induction (P := fun d' => d'.phase = d.phase) (fun command _ d' hd' => ?_) rfl
  rw [← hd'] at h
  rw [phase_perform_of_stopped h command, hd']

theorem position_le_next (d : Decoder σ data) : d.position ≤ d.next.decoder.position := by
  rcases d.next_inversion with ⟨-, hnext⟩ | ⟨-, -, hnext⟩ |
    ⟨i, s, events, -, -, hnext, -⟩ | ⟨e, c, -, -, -, hnext, -, hlt, -⟩
  · exact Nat.le_of_eq (by rw [hnext])
  · rw [hnext]
    exact Nat.le_refl d.position
  · rw [hnext]
    exact Nat.le_add_right d.position i.size
  · rw [hnext]
    exact Nat.le_of_lt hlt

theorem next_of_ok {i : Instruction} (h : d.next.result = some (.ok i)) :
    d.phase = .positioned ∧ i.offset = d.position ∧ d.position < i.next ∧
      d.next.decoder.phase = .positioned ∧ d.next.decoder.position = i.next := by
  rcases d.next_inversion with ⟨-, hnext⟩ | ⟨-, -, hnext⟩ |
    ⟨j, s, events, hphase, -, hnext, hoffset, hpos, -⟩ | ⟨e, c, -, -, -, hnext, -⟩ <;>
    rw [hnext] at h <;> cases h
  have hend : d.position + i.size = i.next := by rw [Instruction.next, hoffset]
  rw [hnext]
  exact ⟨hphase, hoffset, by omega, hphase, hend⟩

theorem next_of_error {e : Error} (h : d.next.result = some (.error e)) :
    d.phase = .positioned ∧ e.offset? = some d.position ∧
      d.next.decoder.phase = .failed d.cursor e.isRecoverable := by
  rcases d.next_inversion with ⟨-, hnext⟩ | ⟨-, -, hnext⟩ |
    ⟨i, s, events, -, -, hnext, -⟩ | ⟨f, c, hphase, -, -, hnext, hoffset, -⟩ <;>
    rw [hnext] at h <;> cases h
  rw [hnext]
  exact ⟨hphase, hoffset, rfl⟩

namespace Consistent

theorem next_eq_none_iff (h : d.Consistent last) (hphase : d.phase = .positioned) :
    d.next.result = none ↔ d.position = data.length := by
  rw [position_eq_length_iff h.position_le]
  rcases d.next_inversion with ⟨hstopped, -⟩ | ⟨-, hrest, hnext⟩ |
    ⟨i, s, events, -, hrest, hnext, -⟩ | ⟨e, c, -, hrest, -, hnext, -⟩
  · exact absurd hphase hstopped
  all_goals simp [hnext, hrest]

/-- After an unknown opcode of one byte the decoder stays where it is, and after an escaped one it
goes back to the second byte. -/
theorem position_resync (h : d.Consistent last) {start : Cursor data}
    (hphase : d.phase = .failed start true) :
    d.resync.decoder.position = start.position + 1 ∧
      (d.position = start.position + 1 ∨ d.position = start.position + 2 ∧
        ∃ value, last = some (.unknownOpcode start.position Opcode.escape value)) := by
  rw [h.resync_of_failed hphase]
  rcases h.opcode_of_failed hphase with ⟨lead, value, hlast, ⟨-, hcursor⟩ | ⟨rfl, hcursor⟩⟩
  · refine ⟨rfl, .inl ?_⟩
    rw [position, hcursor]
    rfl
  · refine ⟨rfl, .inr ⟨?_, value, hlast⟩⟩
    rw [position, hcursor]
    rfl

theorem perform_back (h : d.Consistent last) {command : Command}
    (hback : (d.perform command).decoder.position < d.position) :
    command = .resync ∧ ∃ start value, d.phase = .failed start true ∧
      last = some (.unknownOpcode start.position Opcode.escape value) ∧
      d.position = start.position + 2 ∧
      (d.perform command).decoder.position = start.position + 1 := by
  cases command with
  | next => exact absurd d.position_le_next (Nat.not_le.2 hback)
  | resync =>
    by_cases hfailed : ∃ start, d.phase = .failed start true
    · rcases hfailed with ⟨start, hphase⟩
      rcases h.position_resync hphase with ⟨hresync, hsame | ⟨hposition, value, hlast⟩⟩
      · change d.resync.decoder.position < d.position at hback
        omega
      · exact ⟨rfl, start, value, hphase, hlast, hposition, hresync⟩
    · change d.resync.decoder.position < d.position at hback
      rw [resync_of_forall_nil fun start hphase => absurd ⟨start, hphase⟩ hfailed] at hback
      exact absurd hback (Nat.lt_irrefl _)
  | configure config => exact absurd hback (Nat.lt_irrefl _)

theorem transitions (h : d.Consistent last) : d.Transitions last where
  next_of_stopped := next_of_not_positioned
  next_eq_none_iff := h.next_eq_none_iff
  next_of_none := by
    intro hphase hnone
    have hend := (position_eq_length_iff h.position_le).1 ((h.next_eq_none_iff hphase).1 hnone)
    rw [Decoder.next_of_end hphase hend]
  next_of_ok := next_of_ok
  next_of_error := Decoder.next_of_error
  resync_eq_true_iff := by
    constructor
    · intro htrue
      by_contra hfailed
      rw [resync_of_forall_nil fun start hphase => absurd ⟨start, hphase⟩ hfailed] at htrue
      cases htrue
    · rintro ⟨start, hphase⟩
      rw [h.resync_of_failed hphase]
  resync_of_failed := by
    intro start hphase
    rw [h.resync_of_failed hphase]
  resync_of_false := by
    intro hfalse
    by_cases hfailed : ∃ start, d.phase = .failed start true
    · rcases hfailed with ⟨start, hphase⟩
      rw [h.resync_of_failed hphase] at hfalse
      cases hfalse
    · rw [resync_of_forall_nil fun start hphase => absurd ⟨start, hphase⟩ hfailed]
  phase_behind := phase_behind_of_stopped
  perform_back := fun _ => h.perform_back

end Consistent

/-- After every session the phase, the cursor and the last error agree, and every command does what
the phase allows. -/
theorem consistent_and_transitions (data : List UInt8) (scope : Option (Scope σ)) (s : σ)
    (commands : List Command) :
    let d := (start data scope s).behind commands
    let last := lastError ((start data scope s).session commands)
    d.Consistent last ∧ d.Transitions last := by
  have h := Consistent.behind_start data scope s commands
  exact ⟨h, h.transitions⟩

end CilCodec.Decoder
