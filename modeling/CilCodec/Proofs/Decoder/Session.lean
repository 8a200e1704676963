import CilCodec.Decoder.Basic

/-!
# Sessions with a decoder

A session is a list of commands to one decoder: take the next item, step over a failure, replace the
configuration, in any order and as often as wanted. The main statements unfold a session by its last
command.
-/
namespace CilCodec

inductive Command where
  | next
  | resync
  | configure (config : Config)
  deriving DecidableEq

inductive Outcome where
  | item (item : Option Item)
  /-- Whether a failure was stepped over. -/
  | resumed (moved : Bool)
  | configured

def Outcome.error? : Outcome → Option Error
  | item (some (.error e)) => some e
  | _ => none

/-- The last of the errors that the steps yielded. -/
def lastError {σ : Type} {data : List UInt8} (steps : List (Step σ data Outcome)) : Option Error :=
  (steps.filterMap fun step => step.result.error?).getLast?

namespace Decoder

variable {σ : Type} {data : List UInt8}

def perform (d : Decoder σ data) : Command → Step σ data Outcome
  | .next => ⟨.item d.next.result, d.next.decoder, d.next.events⟩
  | .resync => ⟨.resumed d.resync.result, d.resync.decoder, d.resync.events⟩
  | .configure config => ⟨.configured, d.configure config, []⟩

def session (d : Decoder σ data) : List Command → List (Step σ data Outcome)
  | [] => []
  | command :: commands =>
    let step := d.perform command
    step :: step.decoder.session commands

def behind (d : Decoder σ data) (commands : List Command) : Decoder σ data :=
  commands.foldl (fun d command => (d.perform command).decoder) d

@[simp] theorem behind_cons (d : Decoder σ data) (command : Command) (commands : List Command) :
    d.behind (command :: commands) = (d.perform command).decoder.behind commands := rfl

theorem behind_concat (d : Decoder σ data) (commands : List Command) (command : Command) :
    d.behind (commands ++ [command]) = ((d.behind commands).perform command).decoder := by
  rw [behind, List.foldl_append]
  rfl

/-- What every command of a session keeps holds behind the session. -/
theorem behind_induction {P : Decoder σ data → Prop} {d : Decoder σ data} {commands : List Command}
    (hstep : ∀ command ∈ commands, ∀ d, P d → P (d.perform command).decoder) (h : P d) :
    P (d.behind commands) := by
  induction commands generalizing d with
  | nil => exact h
  | cons command commands ih =>
    rcases List.forall_mem_cons.1 hstep with ⟨hfirst, hrest⟩
    exact ih hrest (hfirst d h)

theorem session_concat (d : Decoder σ data) (commands : List Command) (command : Command) :
    d.session (commands ++ [command]) =
      d.session commands ++ [(d.behind commands).perform command] := by
  induction commands generalizing d with
  | nil => rfl
  | cons first commands ih =>
    rw [List.cons_append, session, ih, session, behind_cons, List.cons_append]

theorem lastError_session_concat (d : Decoder σ data) (commands : List Command)
    (command : Command) :
    lastError (d.session (commands ++ [command])) =
      ((d.behind commands).perform command).result.error?.or (lastError (d.session commands)) := by
  rw [session_concat, lastError, List.filterMap_append, List.getLast?_append, lastError]
  cases h : ((d.behind commands).perform command).result.error? <;> simp [h]

end Decoder
end CilCodec
