import CilCodec.Proofs.Decoder.Grammar
import CilCodec.Proofs.Decoder.Session

/-!
# Transcripts of sessions

What a session with a decoder leaves in a log. Each step has records of its own, and they follow from
what it returned: an instruction its line, in front of it the token that stayed without a symbol, a
failure its cause, and going on behind a failure the new offset. Resolvers that write into the log
themselves are left out. The main statement holds for every session, and says of the decoding of a
body that its traces are the listing of the instructions in front of its end or its first failure.
-/
namespace CilCodec

structure Record where
  level : Level
  text : String
  deriving DecidableEq

def Event.record (e : Event) : Record := ⟨e.level, e.message⟩

def traces (records : List Record) : List String :=
  records.filterMap fun r => if r.level = .trace then some r.text else none

/-- Asking the resolver leaves nothing in the log. -/
def Resolver.Silent {σ : Type} (r : Resolver σ) : Prop := ∀ s q, (r s q).events = []

def Outcome.listing : Outcome → List String
  | item (some (.ok i)) => [i.line]
  | _ => []

variable {σ : Type} {data : List UInt8}

/-- The records of a step that took the decoder `d` to `d'` and returned the outcome. -/
inductive Noted (d d' : Decoder σ data) : Outcome → List Record → Prop where
  | finished : Noted d d' (.item none) []
  | read {i : Instruction} : i.resolution ≠ .unresolved →
      Noted d d' (.item (some (.ok i))) [⟨.trace, i.line⟩]
  /-- The resolver was asked about the token and answered with an error. -/
  | unresolved {i : Instruction} {scope : Scope σ} {token : Token} {error : ResolveError} :
      i.resolution = .unresolved → i.operand = .token token → d.scope = some scope →
      (scope.resolver d.state ⟨token, i.opcode.kind, scope.context⟩).answer = .error error →
      Noted d d' (.item (some (.ok i)))
        [⟨.debug, label i.offset ++ ": " ++ i.mnemonic ++ " " ++ token.text ++
            " left unresolved - " ++ error.message⟩,
          ⟨.trace, i.line⟩]
  | failed {e : Error} : e.offset? = some d.position →
      Noted d d' (.item (some (.error e)))
        [⟨.debug, "decoding failed at offset 0x" ++ Numeral.upperHex 1 d.position ++ ": " ++
            e.message⟩]
  | resumed {start : Cursor data} : d.phase = .failed start true →
      d'.position = start.position + 1 →
      Noted d d' (.resumed true)
        [⟨.warn, "resynchronising instruction stream at offset 0x" ++
            Numeral.upperHex 1 (start.position + 1)⟩]
  | stuck : Noted d d' (.resumed false) []
  | configured : Noted d d' .configured []

/-- The records of the steps of a session that begins with the decoder `d`, step by step. -/
inductive Transcript : (d : Decoder σ data) → List (Step σ data Outcome) → List (List Record) →
    Prop where
  | nil (d : Decoder σ data) : Transcript d [] []
  | cons {d : Decoder σ data} {step : Step σ data Outcome} {steps : List (Step σ data Outcome)}
      {records : List Record} {more : List (List Record)} :
      Noted d step.decoder step.result records → Transcript step.decoder steps more →
      Transcript d (step :: steps) (records :: more)

theorem traces_append (records more : List Record) :
    traces (records ++ more) = traces records ++ traces more := List.filterMap_append

theorem Noted.traces_eq {d d' : Decoder σ data} {outcome : Outcome} {records : List Record}
    (h : Noted d d' outcome records) : traces records = outcome.listing := by
  cases h <;> rfl

namespace Decoder

variable {d : Decoder σ data}

theorem exists_of_query?_eq_some {i : Instruction} {resolver : Resolver σ} {query : Query}
    (h : d.query? i = some (resolver, query)) :
    ∃ scope token, d.scope = some scope ∧ i.operand = .token token ∧
      resolver = scope.resolver ∧ query = ⟨token, i.opcode.kind, scope.context⟩ := by
  unfold query? at h
  split at h
  · next scope token hscope htoken =>
    rw [Option.ite_none_right_eq_some, Option.some.injEq, Prod.mk.injEq] at h
    rcases h with ⟨-, rfl, rfl⟩
    exact ⟨scope, token, hscope, Operand.token?_eq_some_iff.1 htoken, rfl, rfl⟩
  · cases h

/-- Behind a silent resolver only an answer without a symbol leaves an event. -/
theorem resolve_of_silent (hsilent : ∀ scope ∈ d.scope, scope.resolver.Silent) {i : Instruction}
    (hplain : i.resolution = .notAttempted) :
    (∃ resolution s, resolution ≠ .unresolved ∧
      d.resolve i = ⟨{ i with resolution := resolution }, { d with state := s }, []⟩) ∨
    ∃ scope token error s, d.scope = some scope ∧ i.operand = .token token ∧
      (scope.resolver d.state ⟨token, i.opcode.kind, scope.context⟩).answer = .error error ∧
      d.resolve i = ⟨{ i with resolution := .unresolved }, { d with state := s },
        [.unresolved i.offset i.mnemonic token error]⟩ := by
  cases hquery : d.query? i with
  | none =>
    refine .inl ⟨i.resolution, d.state, ?_, resolve_of_query?_eq_none hquery⟩
    rw [hplain]
    exact Resolution.noConfusion
  | some asked =>
    rcases asked with ⟨resolver, query⟩
    rcases exists_of_query?_eq_some hquery with ⟨scope, token, hscope, htoken, rfl, rfl⟩
    unfold resolve
    rw [hquery]
    dsimp only
    rw [hsilent scope hscope]
    cases hanswer : (scope.resolver d.state ⟨token, i.opcode.kind, scope.context⟩).answer with
    | ok symbol => exact .inl ⟨.resolved symbol, _, Resolution.noConfusion, rfl⟩
    | error e => exact .inr ⟨scope, token, e, _, hscope, htoken, hanswer, rfl⟩

theorem noted_next (hsilent : ∀ scope ∈ d.scope, scope.resolver.Silent) :
    Noted d d.next.decoder (.item d.next.result) (d.next.events.map Event.record) := by
  by_cases hphase : d.phase = .positioned
  · by_cases hrest : d.cursor.rest = []
    · rw [next_of_end hphase hrest]
      exact .finished
    · cases hread : Instruction.read d.config d.cursor with
      | error e c =>
        rw [next_of_read_error hphase hrest hread]
        exact .failed (Instruction.rejects_of_read hread).offset?_eq
      | ok i c =>
        have hplain : i.resolution = .notAttempted := by
          rcases Instruction.spells_of_read hread with ⟨_, _, _, _, -, -, rfl, -⟩
          rfl
        rw [next_of_read_ok hphase hrest hread]
        rcases resolve_of_silent (d := { d with cursor := c }) hsilent hplain with
          ⟨resolution, s, hresolved, hresolve⟩ |
          ⟨scope, token, error, s, hscope, htoken, hanswer, hresolve⟩
        · rw [hresolve]
          exact .read hresolved
        · rw [hresolve]
          exact .unresolved rfl htoken hscope hanswer
  · rw [next_of_not_positioned hphase]
    exact .finished

theorem noted_resync (d : Decoder σ data) :
    Noted d d.resync.decoder (.resumed d.resync.result) (d.resync.events.map Event.record) := by
  rcases d.resync_inversion with ⟨start, hphase, -, hresync⟩ | ⟨-, hresync⟩
  · rw [hresync]
    exact .resumed hphase rfl
  · rw [hresync]
    exact .stuck

theorem scope_perform (d : Decoder σ data) (command : Command) :
    (d.perform command).decoder.scope = d.scope := by
  cases command with
  | next => exact d.scope_next
  | resync => exact d.scope_resync
  | configure config => rfl

theorem noted_perform (hsilent : ∀ scope ∈ d.scope, scope.resolver.Silent) (command : Command) :
    Noted d (d.perform command).decoder (d.perform command).result
      ((d.perform command).events.map Event.record) := by
  cases command with
  | next => exact noted_next hsilent
  | resync => exact d.noted_resync
  | configure config => exact .configured

theorem transcript_session (hsilent : ∀ scope ∈ d.scope, scope.resolver.Silent)
    (commands : List Command) :
    Transcript d (d.session commands)
      ((d.session commands).map fun step => step.events.map Event.record) := by
  induction commands generalizing d with
  | nil => exact .nil d
  | cons command commands ih =>
    rw [← d.scope_perform command] at hsilent
    exact .cons (noted_perform (d.scope_perform command ▸ hsilent) command) (ih hsilent)

/-- The traces of a run to the first failure are the lines of its instructions. -/
theorem traces_drain (hsilent : ∀ scope ∈ d.scope, scope.resolver.Silent) :
    ∃ is failure, d.drain.items = yielded is failure ∧
      traces (d.drain.events.map Event.record) = is.map Instruction.line := by
  induction hn : d.budget using Nat.strongRecOn generalizing d with
  | ind n ih =>
    subst hn
    have htraces := (noted_next hsilent).traces_eq
    have hscope := d.scope_next
    rcases hnext : d.next with ⟨_ | (e | i), d', events⟩
    · rw [hnext] at htraces
      rw [drain_of_none hnext]
      exact ⟨[], none, rfl, htraces⟩
    · have hphase := (phase_next_of_error (d := d) (e := e) (by rw [hnext])).1
      rw [hnext] at htraces hphase
      have hstopped : d'.phase ≠ .positioned := by
        rw [hphase]
        rintro ⟨⟩
      rw [drain_of_some hnext, drain_of_not_positioned hstopped]
      refine ⟨[], some e, rfl, ?_⟩
      change traces (List.map Event.record (events ++ [])) = []
      rw [List.append_nil]
      exact htraces
    · rw [hnext] at htraces hscope
      rw [← hscope] at hsilent
      rcases ih d'.budget (budget_lt_of_next hnext) hsilent rfl with ⟨is, failure, hitems, hlines⟩
      refine ⟨i :: is, failure, ?_, ?_⟩
      · rw [drain_of_some hnext, Run.after, hitems]
        rfl
      · rw [drain_of_some hnext, Run.after, List.map_append, traces_append, htraces, hlines]
        rfl

end Decoder

/-- Where the resolver is silent, the log of every session has exactly the records that its steps call
for. The traces of the decoding of a body are the lines of the instructions in front of its end or
its first failure, in order. -/
theorem transcript_faithful (data : List UInt8) (scope : Option (Scope σ)) (s : σ)
    (commands : List Command) (hsilent : ∀ sc ∈ scope, sc.resolver.Silent) :
    Transcript (Decoder.start data scope s) ((Decoder.start data scope s).session commands)
        (((Decoder.start data scope s).session commands).map fun step =>
          step.events.map Event.record) ∧
      ∃ is failure, (Decoder.start data scope s).drain.items = yielded is failure ∧
        (decodeWith data scope s).result = failure.elim (.ok is) .error ∧
        traces ((decodeWith data scope s).events.map Event.record) = is.map Instruction.line := by
  refine ⟨Decoder.transcript_session hsilent commands, ?_⟩
  rcases Decoder.traces_drain (d := .start data scope s) hsilent with
    ⟨is, failure, hitems, htraces⟩
  refine ⟨is, failure, hitems, ?_, htraces⟩
  rw [decodeWith, hitems, collect_yielded]

/-- A call whose target is not found, an unknown opcode that is stepped over, a return and the end. -/
theorem transcript_faithful_unresolved_call :
    let data : List UInt8 := [0x28, 0x01, 0, 0, 0x0A, 0x24, 0x2A]
    let scope : Scope Unit :=
      ⟨.ofFunction fun q => .error (.notFound q.token), .ofMethod ⟨0x06000001⟩⟩
    let d : Decoder Unit data := .start data (some scope) ()
    let steps := d.session [.next, .next, .resync, .next, .next]
    let log : List (List Record) :=
      [[⟨.debug, "IL_0000: call 0x0A000001 left unresolved - Token 0x0A000001 not found"⟩,
          ⟨.trace, "IL_0000: call 0x0A000001"⟩],
        [⟨.debug, "decoding failed at offset 0x5: Unknown opcode 00:24 at offset 0x5"⟩],
        [⟨.warn, "resynchronising instruction stream at offset 0x6"⟩],
        [⟨.trace, "IL_0006: ret"⟩], []]
    (∀ sc ∈ some scope, sc.resolver.Silent) ∧ Transcript d steps log ∧
      traces ((decodeWith data (some scope) ()).events.map Event.record) =
        ["IL_0000: call 0x0A000001"] := by
  intro data scope d steps log
  have hsilent : ∀ sc ∈ some scope, sc.resolver.Silent := by
    rintro _ ⟨⟩ s q
    rfl
  have hlog : (steps.map fun step => step.events.map Event.record) = log := by decide +kernel
  refine ⟨hsilent, ?_, by decide +kernel⟩
  rw [← hlog]
  exact (transcript_faithful data (some scope) () _ hsilent).1

end CilCodec
