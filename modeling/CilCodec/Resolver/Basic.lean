import CilCodec.Event

/-!
# Resolvers

A resolver answers queries about tokens. It may remember what it was asked: its answer depends on a
state, and comes with the next state and with the events that it adds to the transcript.
-/
namespace CilCodec

structure Reply (σ : Type) where
  answer : Answer
  state : σ
  events : List Event

abbrev Resolver (σ : Type) := σ → Query → Reply σ

structure Scope (σ : Type) where
  resolver : Resolver σ
  context : MethodContext

/-- The resolver that answers by a fixed function and adds nothing to the transcript. -/
def Resolver.ofFunction (f : Query → Answer) : Resolver Unit := fun _ q => ⟨f q, (), []⟩

def Resolver.answers {σ : Type} (r : Resolver σ) : σ → List Query → List Answer × σ
  | s, [] => ([], s)
  | s, q :: qs =>
    let reply := r s q
    let rest := answers r reply.state qs
    (reply.answer :: rest.1, rest.2)

theorem Resolver.answers_append {σ : Type} (r : Resolver σ) (s : σ) (qs ps : List Query) :
    r.answers s (qs ++ ps) =
      ((r.answers s qs).1 ++ (r.answers (r.answers s qs).2 ps).1,
        (r.answers (r.answers s qs).2 ps).2) := by
  induction qs generalizing s with
  | nil => rfl
  | cons q qs ih => simp [answers, ih]

end CilCodec
