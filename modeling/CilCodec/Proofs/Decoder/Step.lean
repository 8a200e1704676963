import CilCodec.Decoder.Run
import CilCodec.Proofs.Instruction.Failure

/-!
# Steps of a decoder

Everything that one step of a decoder can do. Asking a resolver changes nothing but the resolution
of the instruction and the state of the resolver. A positioned decoder reports the end, yields the
instruction that the next bytes spell and stands behind it, or yields the cause for which those
bytes are rejected and fails there. After a failure that allows it, the decoder can be put behind
the first byte of the failed instruction. The items that a decoder takes are its next one and those
that it takes behind it, if that one could be read.
-/
namespace CilCodec.Decoder

variable {σ : Type} {data : List UInt8}

/-- Resolving sets the resolution and the state of the resolver. -/
theorem resolve_cases (d : Decoder σ data) (i : Instruction) :
    ∃ resolution s events,
      d.resolve i = ⟨{ i with resolution := resolution }, { d with state := s }, events⟩ ∧
        (d.scope = none → resolution = i.resolution) := by
  unfold resolve
  cases hq : d.query? i with
  | none => exact ⟨i.resolution, d.state, [], rfl, fun _ => rfl⟩
  | some asked =>
    have hscope : d.scope ≠ none := by
      intro h
      rw [query?, h] at hq
      cases hq
    rcases asked with ⟨resolver, query⟩
    dsimp only
    cases (resolver d.state query).answer with
    | ok symbol => exact ⟨_, _, _, rfl, fun h => absurd h hscope⟩
    | error e => exact ⟨_, _, _, rfl, fun h => absurd h hscope⟩

theorem resolve_of_query?_eq_none {d : Decoder σ data} {i : Instruction} (h : d.query? i = none) :
    d.resolve i = ⟨i, d, []⟩ := by
  rw [resolve, h]

theorem resolve_of_no_scope {d : Decoder σ data} (h : d.scope = none) (i : Instruction) :
    d.resolve i = ⟨i, d, []⟩ := by
  apply resolve_of_query?_eq_none
  rw [query?, h]

theorem resolve_of_no_token (d : Decoder σ data) {i : Instruction} (h : i.operand.token? = none) :
    d.resolve i = ⟨i, d, []⟩ := by
  apply resolve_of_query?_eq_none
  rw [query?, h]
  cases d.scope <;> rfl

/-- What an instruction's token is asked about depends on its opcode and operand, and on no place. -/
theorem query?_eq {data' : List UInt8} {d : Decoder σ data} {d' : Decoder σ data'}
    {i j : Instruction} (hscope : d'.scope = d.scope) (hconfig : d'.config = d.config)
    (hopcode : j.opcode = i.opcode) (hoperand : j.operand = i.operand) :
    d'.query? j = d.query? i := by
  rw [query?, query?, hscope, hconfig, hopcode, hoperand]

theorem resolve_of_query?_eq {data' : List UInt8} {d : Decoder σ data} {d' : Decoder σ data'}
    {i j : Instruction} (hquery : d'.query? j = d.query? i) (hstate : d'.state = d.state)
    (hresolution : j.resolution = i.resolution) :
    ∃ resolution s events events',
      d.resolve i = ⟨{ i with resolution := resolution }, { d with state := s }, events⟩ ∧
      d'.resolve j = ⟨{ j with resolution := resolution }, { d' with state := s }, events'⟩ := by
  unfold resolve
  rw [hquery]
  cases d.query? i with
  | none =>
    refine ⟨i.resolution, d.state, [], [], rfl, ?_⟩
    rw [← hresolution, ← hstate]
  | some asked =>
    rcases asked with ⟨resolver, query⟩
    dsimp only
    rw [hstate]
    cases (resolver d.state query).answer with
    | ok symbol => exact ⟨.resolved symbol, _, _, _, rfl, rfl⟩
    | error e => exact ⟨.unresolved, _, _, _, rfl, rfl⟩

theorem next_of_end {d : Decoder σ data} (h : d.phase = .positioned) (hrest : d.cursor.rest = []) :
    d.next = ⟨none, { d with phase := .exhausted }, []⟩ := by
  simp only [next, h]
  rw [if_pos (d.cursor.atEnd_iff_rest.2 hrest)]

theorem next_of_read_ok {d : Decoder σ data} {i : Instruction} {c : Cursor data}
    (h : d.phase = .positioned) (hrest : d.cursor.rest ≠ [])
    (hread : Instruction.read d.config d.cursor = .ok i c) :
    d.next =
      let step := { d with cursor := c }.resolve i
      ⟨some (.ok step.result), step.decoder, step.events ++ [.decoded step.result]⟩ := by
  simp only [next, h]
  rw [if_neg fun hend => hrest (d.cursor.atEnd_iff_rest.1 hend), hread]

theorem next_of_read_error {d : Decoder σ data} {e : Error} {c : Cursor data}
    (h : d.phase = .positioned) (hrest : d.cursor.rest ≠ [])
    (hread : Instruction.read d.config d.cursor = .error e c) :
    d.next = ⟨some (.error e), { d with cursor := c, phase := .failed d.cursor e.isRecoverable },
      [.failed d.position e]⟩ := by
  simp only [next, h]
  rw [if_neg fun hend => hrest (d.cursor.atEnd_iff_rest.1 hend), hread]

theorem next_of_read_unresolved {d : Decoder σ data} {o : Opcode} {x : Operand} {size : Nat}
    {c : Cursor data} (h : d.phase = .positioned) (hrest : d.cursor.rest ≠ [])
    (hread : Instruction.read d.config d.cursor =
      .ok (Instruction.unresolved d.config d.position o x size) c) :
    ∃ resolution s events, d.next =
      ⟨some (.ok { Instruction.unresolved d.config d.position o x size with
        resolution := resolution }), { d with cursor := c, state := s }, events⟩ ∧
      (d.scope = none → resolution = .notAttempted) := by
  have hnext := next_of_read_ok h hrest hread
  rcases resolve_cases { d with cursor := c } (Instruction.unresolved d.config d.position o x size)
    with ⟨resolution, s, events, hresolve, hnone⟩
  rw [hresolve] at hnext
  exact ⟨resolution, s, _, hnext, hnone⟩

theorem next_cases (d : Decoder σ data) (h : d.phase = .positioned) :
    (d.cursor.rest = [] ∧ d.next = ⟨none, { d with phase := .exhausted }, []⟩) ∨
    (∃ o x w after resolution s events, Instruction.Spells o x w ∧ d.cursor.rest = w ++ after ∧
      d.next = ⟨some (.ok { Instruction.unresolved d.config d.position o x w.length with
          resolution := resolution }),
        { d with cursor := d.cursor.skip w.length, state := s }, events⟩ ∧
      (d.scope = none → resolution = .notAttempted)) ∨
    ∃ e c events, d.cursor.rest ≠ [] ∧
      Instruction.Rejects d.config.switchLimit d.position d.cursor.rest e ∧
      d.next = ⟨some (.error e),
        { d with cursor := c, phase := .failed d.cursor e.isRecoverable }, events⟩ := by
  by_cases hrest : d.cursor.rest = []
  · exact .inl ⟨hrest, next_of_end h hrest⟩
  · rcases Instruction.read_cases d.config d.cursor with
      ⟨o, x, w, after, hw, hsplit, hread⟩ | ⟨e, c, he, hread⟩
    · rcases next_of_read_unresolved h hrest hread with ⟨resolution, s, events, hnext, hnone⟩
      exact .inr (.inl ⟨o, x, w, after, resolution, s, events, hw, hsplit, hnext, hnone⟩)
    · exact .inr (.inr ⟨e, c, _, hrest, he, next_of_read_error h hrest hread⟩)

/-- Everything that taking the next item can do: nothing behind the end or a failure, and otherwise
report the end, go behind an instruction, or fail in front of one and behind its first byte. -/
theorem next_inversion (d : Decoder σ data) :
    (d.phase ≠ .positioned ∧ d.next = ⟨none, d, []⟩) ∨
    (d.phase = .positioned ∧ d.cursor.rest = [] ∧
      d.next = ⟨none, { d with phase := .exhausted }, []⟩) ∨
    (∃ i s events, d.phase = .positioned ∧ d.cursor.rest ≠ [] ∧
      d.next = ⟨some (.ok i), { d with cursor := d.cursor.skip i.size, state := s }, events⟩ ∧
      i.offset = d.position ∧ 0 < i.size ∧ i.size ≤ d.cursor.remaining) ∨
    ∃ e c, d.phase = .positioned ∧ d.cursor.rest ≠ [] ∧
      Instruction.read d.config d.cursor = .error e c ∧
      d.next = ⟨some (.error e), { d with cursor := c, phase := .failed d.cursor e.isRecoverable },
        [.failed d.position e]⟩ ∧
      e.offset? = some d.position ∧ d.position < c.position ∧ d.cursor.Reaches c := by
  by_cases hphase : d.phase = .positioned
  · by_cases hrest : d.cursor.rest = []
    · exact .inr (.inl ⟨hphase, hrest, next_of_end hphase hrest⟩)
    · rcases Instruction.read_cases d.config d.cursor with
        ⟨o, x, w, after, hw, hsplit, hread⟩ | ⟨e, c, he, hread⟩
      · rcases next_of_read_unresolved hphase hrest hread with ⟨resolution, s, events, hnext, -⟩
        have hle : w.length ≤ d.cursor.remaining := by
          rw [Cursor.remaining_of_rest hsplit]
          omega
        exact .inr (.inr (.inl ⟨_, s, events, hphase, hrest, hnext, rfl, hw.length_pos, hle⟩))
      · have hlt := Reader.position_lt_final_readInstruction d.config hrest
        rw [Reader.final_of_error hread] at hlt
        have hreach := (Reader.forward_readInstruction d.config).of_error hread
        exact .inr (.inr (.inr ⟨e, c, hphase, hrest, hread,
          next_of_read_error hphase hrest hread, he.offset?_eq, hlt, hreach⟩))
  · exact .inl ⟨hphase, next_of_not_positioned hphase⟩

/-- After a failure, going on puts the decoder behind the first byte of the failed instruction. -/
theorem resync_of_failed {d : Decoder σ data} {start : Cursor data}
    (h : d.phase = .failed start true) (hrest : start.rest ≠ []) :
    d.resync = ⟨true, { d with cursor := start.skip 1, phase := .positioned },
      [.resynchronised (start.position + 1)]⟩ := by
  have hle : 1 ≤ start.remaining := List.length_pos_iff.2 hrest
  rw [resync, h]
  dsimp only
  rw [Reader.advance, if_pos ((Cursor.holds_eq_true_iff _ _).2 hle)]
  rfl

/-- Without such a failure, or without a byte behind it, nothing is stepped over. -/
theorem resync_of_forall_nil {d : Decoder σ data}
    (h : ∀ start, d.phase = .failed start true → start.rest = []) : d.resync = ⟨false, d, []⟩ := by
  unfold resync
  split
  · next start hphase =>
    have hremaining : start.remaining = 0 := congrArg List.length (h start hphase)
    have hholds : start.holds 1 = false := by simp [← Bool.not_eq_true, hremaining]
    rw [Reader.advance, hholds]
    rfl
  · rfl

/-- Everything that stepping over a failure can do: put the decoder behind the first byte of the
failed instruction, or nothing. -/
theorem resync_inversion (d : Decoder σ data) :
    (∃ start, d.phase = .failed start true ∧ start.rest ≠ [] ∧
      d.resync = ⟨true, { d with cursor := start.skip 1, phase := .positioned },
        [.resynchronised (start.position + 1)]⟩) ∨
    (∀ start, d.phase = .failed start true → start.rest = []) ∧ d.resync = ⟨false, d, []⟩ := by
  by_cases hfailed : ∃ start, d.phase = .failed start true ∧ start.rest ≠ []
  · rcases hfailed with ⟨start, hphase, hrest⟩
    exact .inl ⟨start, hphase, hrest, resync_of_failed hphase hrest⟩
  · have hnil (start : Cursor data) (hphase : d.phase = .failed start true) : start.rest = [] := by
      by_contra hrest
      exact hfailed ⟨start, hphase, hrest⟩
    exact .inr ⟨hnil, resync_of_forall_nil hnil⟩

theorem resync_of_stuck {d : Decoder σ data} {start : Cursor data}
    (h : d.phase = .failed start false) : d.resync = ⟨false, d, []⟩ := by
  rw [resync, h]

theorem drain_of_not_positioned {d : Decoder σ data} (h : d.phase ≠ .positioned) :
    d.drain = ⟨[], d, []⟩ :=
  drain_of_none (next_of_not_positioned h)

theorem drain_of_read_ok {d d' : Decoder σ data} {i i' : Instruction} {c : Cursor data}
    {events : List Event} (h : d.phase = .positioned) (hrest : d.cursor.rest ≠ [])
    (hread : Instruction.read d.config d.cursor = .ok i c)
    (hresolve : ({ d with cursor := c } : Decoder σ data).resolve i = ⟨i', d', events⟩) :
    d'.budget < d.budget ∧ ∃ more, d.drain = d'.drain.after [.ok i'] more := by
  have hnext := next_of_read_ok h hrest hread
  rw [hresolve] at hnext
  exact ⟨budget_lt_of_next hnext, _, drain_of_some hnext⟩

theorem drain_of_read_error {d : Decoder σ data} {e : Error} {c : Cursor data}
    (h : d.phase = .positioned) (hrest : d.cursor.rest ≠ [])
    (hread : Instruction.read d.config d.cursor = .error e c) :
    ∃ events, d.drain = ⟨[.error e],
      { d with cursor := c, phase := .failed d.cursor e.isRecoverable }, events⟩ := by
  rw [drain_of_some (next_of_read_error h hrest hread), drain_of_not_positioned (by simp)]
  exact ⟨_, rfl⟩

theorem config_next (d : Decoder σ data) : d.next.decoder.config = d.config := by
  rcases d.next_inversion with ⟨-, hnext⟩ | ⟨-, -, hnext⟩ | ⟨_, _, _, -, -, hnext, -⟩ |
    ⟨_, _, -, -, -, hnext, -⟩ <;> rw [hnext]

theorem config_resync (d : Decoder σ data) : d.resync.decoder.config = d.config := by
  rcases d.resync_inversion with ⟨_, -, -, hresync⟩ | ⟨-, hresync⟩ <;> rw [hresync]

theorem scope_next (d : Decoder σ data) : d.next.decoder.scope = d.scope := by
  rcases d.next_inversion with ⟨-, hnext⟩ | ⟨-, -, hnext⟩ | ⟨_, _, _, -, -, hnext, -⟩ |
    ⟨_, _, -, -, -, hnext, -⟩ <;> rw [hnext]

theorem scope_resync (d : Decoder σ data) : d.resync.decoder.scope = d.scope := by
  rcases d.resync_inversion with ⟨_, -, -, hresync⟩ | ⟨-, hresync⟩ <;> rw [hresync]

theorem state_resync (d : Decoder σ data) : d.resync.decoder.state = d.state := by
  rcases d.resync_inversion with ⟨_, -, -, hresync⟩ | ⟨-, hresync⟩ <;> rw [hresync]

end CilCodec.Decoder
