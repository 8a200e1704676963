import CilCodec.Instruction.Listing
import CilCodec.Proofs.Decoder.Session
import CilCodec.Proofs.Decoder.Step

/-!
# Decoders in lockstep

Two decoders over one body, told to do the same things but with different options and different
resolvers. As long as they agree in the limit on jump tables whenever the next item is taken, they
stay in the same place and in the same phase and return the same things; only targets and symbols
differ, as the options and the resolvers say. The main statement is about sessions of any length.
-/
namespace CilCodec

variable {data : List UInt8}

namespace Instruction

/-- The line of the instruction is the text and, if its token was resolved, the symbol behind two
slashes. -/
def Shows (i : Instruction) (text : String) : Prop :=
  (∀ symbol, i.resolution = .resolved symbol → i.line = text ++ " // " ++ symbol.text) ∧
    (i.resolution.isResolved = false → i.line = text)

/-- Two instructions differ only in what the options of their readers are about. -/
structure Alike (config config' : Config) (i j : Instruction) : Prop where
  offset_eq : i.offset = j.offset
  size_eq : i.size = j.size
  opcode_eq : i.opcode = j.opcode
  operand_eq : i.operand = j.operand
  targets_eq : config.computesTargets = true → config'.computesTargets = true →
    i.targets = j.targets
  targets_left : config.computesTargets = false → i.targets = []
  targets_right : config'.computesTargets = false → j.targets = []
  shows : i.targets = j.targets → ∃ text, i.Shows text ∧ j.Shows text

theorem shows_body (i : Instruction) : i.Shows i.body := by
  refine ⟨fun symbol h => ?_, fun h => ?_⟩
  · rw [line, h, Resolution.text, String.append_assoc]
  · cases hr : i.resolution with
    | resolved symbol => rw [hr] at h; cases h
    | _ => simp [line, hr, Resolution.text]

theorem alike_unresolved (config config' : Config) (start : Nat) (o : Opcode) (x : Operand)
    (size : Nat) (resolution resolution' : Resolution) :
    Alike config config' { unresolved config start o x size with resolution := resolution }
      { unresolved config' start o x size with resolution := resolution' } where
  offset_eq := rfl
  size_eq := rfl
  opcode_eq := rfl
  operand_eq := rfl
  targets_eq := by
    intro hleft hright
    simp [unresolved, hleft, hright]
  targets_left := by
    intro hleft
    simp [unresolved, hleft]
  targets_right := by
    intro hright
    simp [unresolved, hright]
  shows := by
    intro htargets
    refine ⟨_, shows_body _, ?_⟩
    rw [body, htargets]
    exact shows_body _

end Instruction

/-- Two decoders with these options return the same thing, up to those options. -/
inductive Outcome.Agree (config config' : Config) : Outcome → Outcome → Prop where
  | finished : Agree config config' (.item none) (.item none)
  | failed (e : Error) : Agree config config' (.item (some (.error e))) (.item (some (.error e)))
  | read {i j : Instruction} : i.Alike config config' j →
      Agree config config' (.item (some (.ok i))) (.item (some (.ok j)))
  | resumed (moved : Bool) : Agree config config' (.resumed moved) (.resumed moved)
  | configured : Agree config config' .configured .configured

/-- The commands of two sessions, the same but for configurations, to decoders with these options.
The options agree in the limit on jump tables whenever the next item is taken. -/
inductive InStep : (config config' : Config) → List Command → List Command → Prop where
  | nil {config config' : Config} : InStep config config' [] []
  | next {config config' : Config} {commands commands' : List Command} :
      config.switchLimit = config'.switchLimit → InStep config config' commands commands' →
      InStep config config' (.next :: commands) (.next :: commands')
  | resync {config config' : Config} {commands commands' : List Command} :
      InStep config config' commands commands' →
      InStep config config' (.resync :: commands) (.resync :: commands')
  | configure {config config' : Config} (new new' : Config) {commands commands' : List Command} :
      InStep new new' commands commands' →
      InStep config config' (.configure new :: commands) (.configure new' :: commands')

namespace Decoder

variable {σ τ : Type}

structure Abreast (d : Decoder σ data) (d' : Decoder τ data) : Prop where
  position_eq : d.position = d'.position
  phase_eq : d.phase = d'.phase

structure Agree (step : Step σ data Outcome) (step' : Step τ data Outcome) : Prop where
  result : step.result.Agree step.decoder.config step'.decoder.config step'.result
  abreast : step.decoder.Abreast step'.decoder

variable {d : Decoder σ data} {d' : Decoder τ data}

theorem Abreast.cursor_eq (h : d.Abreast d') : d.cursor = d'.cursor := Cursor.ext h.position_eq

theorem agree_next (h : d.Abreast d') (hlimit : d.config.switchLimit = d'.config.switchLimit) :
    Agree (d.perform .next) (d'.perform .next) := by
  by_cases hphase : d.phase = .positioned
  · have hphase' : d'.phase = .positioned := h.phase_eq ▸ hphase
    by_cases hrest : d.cursor.rest = []
    · have hrest' : d'.cursor.rest = [] := h.cursor_eq ▸ hrest
      rw [perform, perform, next_of_end hphase hrest, next_of_end hphase' hrest']
      exact ⟨.finished, h.position_eq, rfl⟩
    · have hrest' : d'.cursor.rest ≠ [] := h.cursor_eq ▸ hrest
      rcases Instruction.read_of_rest_eq hlimit.symm (congrArg Cursor.rest h.cursor_eq.symm) with
        ⟨o, x, size, -, hread, hread'⟩ | ⟨e, taken, hread, hread'⟩
      · rcases next_of_read_unresolved hphase hrest hread with ⟨resolution, s, events, hnext, -⟩
        rcases next_of_read_unresolved hphase' hrest' hread' with
          ⟨resolution', s', events', hnext', -⟩
        rw [perform, perform, hnext, hnext', h.position_eq, h.cursor_eq]
        exact ⟨.read (Instruction.alike_unresolved ..), rfl, h.phase_eq⟩
      · rw [perform, perform, next_of_read_error hphase hrest hread,
          next_of_read_error hphase' hrest' hread', h.cursor_eq]
        exact ⟨.failed _, rfl, rfl⟩
  · have hphase' : d'.phase ≠ .positioned := h.phase_eq ▸ hphase
    rw [perform, perform, next_of_not_positioned hphase, next_of_not_positioned hphase']
    exact ⟨.finished, h⟩

theorem agree_resync (h : d.Abreast d') : Agree (d.perform .resync) (d'.perform .resync) := by
  rcases d.resync_inversion with ⟨start, hphase, hrest, hresync⟩ | ⟨hnil, hresync⟩
  · have hphase' : d'.phase = .failed start true := h.phase_eq ▸ hphase
    rw [perform, perform, hresync, resync_of_failed hphase' hrest]
    exact ⟨.resumed true, rfl, rfl⟩
  · rw [perform, perform, hresync, resync_of_forall_nil (h.phase_eq ▸ hnil)]
    exact ⟨.resumed false, h⟩

theorem agree_session {commands commands' : List Command} (h : d.Abreast d')
    (hsteps : InStep d.config d'.config commands commands') :
    List.Forall₂ Agree (d.session commands) (d'.session commands') := by
  generalize hconfig : d.config = config at hsteps
  generalize hconfig' : d'.config = config' at hsteps
  induction hsteps generalizing d d' with
  | nil => exact .nil
  | next hlimit _ ih =>
    have hagree := agree_next h (by rw [hconfig, hconfig', hlimit])
    exact .cons hagree (ih hagree.abreast ((config_next d).trans hconfig)
      ((config_next d').trans hconfig'))
  | resync _ ih =>
    have hagree := agree_resync h
    exact .cons hagree (ih hagree.abreast ((config_resync d).trans hconfig)
      ((config_resync d').trans hconfig'))
  | configure new new' _ ih =>
    have habreast : (d.configure new).Abreast (d'.configure new') := ⟨h.position_eq, h.phase_eq⟩
    exact .cons ⟨.configured, habreast⟩ (ih habreast rfl rfl)

/-- Neither the resolvers nor the options but for the limit on jump tables show in what decoders
of one body return and where they stand. -/
theorem lockstep (data : List UInt8) (scope : Option (Scope σ)) (s : σ) (scope' : Option (Scope τ))
    (s' : τ) {commands commands' : List Command}
    (h : InStep .standard .standard commands commands') :
    List.Forall₂ Agree ((start data scope s).session commands)
      ((start data scope' s').session commands') :=
  agree_session ⟨rfl, rfl⟩ h

/-- A call, a branch, an unknown opcode and a return, read without a resolver and with one, by
sessions that change to different options twice. -/
theorem lockstep_call_branch :
    let commands : List Command :=
      [.next, .configure .minimal, .next, .next, .configure .strict, .resync, .next]
    let commands' : List Command :=
      [.next, .configure .standard, .next, .next, .configure ⟨false, false, some 0x10000⟩, .resync,
        .next]
    let data : List UInt8 := [0x28, 0x01, 0, 0, 0x0A, 0x2B, 0xFE, 0x24, 0x2A]
    let main : Scope Unit :=
      ⟨.ofFunction fun q => .ok ⟨q.token, .method, "Main"⟩, .ofMethod ⟨0x06000001⟩⟩
    InStep .standard .standard commands commands' ∧
      List.Forall₂ Agree ((start data (none : Option (Scope Unit)) ()).session commands)
        ((start data (some main) ()).session commands') := by
  have hsteps : InStep .standard .standard
      [.next, .configure .minimal, .next, .next, .configure .strict, .resync, .next]
      [.next, .configure .standard, .next, .next, .configure ⟨false, false, some 0x10000⟩, .resync,
        .next] :=
    .next rfl <| .configure _ _ <| .next rfl <| .next rfl <| .configure _ _ <| .resync <|
      .next rfl .nil
  exact ⟨hsteps, lockstep _ _ _ _ _ hsteps⟩

end Decoder
end CilCodec
