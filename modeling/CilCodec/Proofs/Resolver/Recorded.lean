import CilCodec.Resolver.Basic

/-!
# Recorded queries

A resolver with a list of the queries that it was asked. The main statement says that the list
changes no answer.
-/
namespace CilCodec.Resolver

variable {σ : Type}

/-- The resolver, with every query that it is asked added to a list. -/
def recorded (r : Resolver σ) : Resolver (σ × List Query) := fun s q =>
  let reply := r s.1 q
  ⟨reply.answer, (reply.state, s.2 ++ [q]), reply.events⟩

theorem answers_concat (r : Resolver σ) (s : σ) (qs : List Query) (q : Query) :
    (r.answers s (qs ++ [q])).2 = (r (r.answers s qs).2 q).state := by
  rw [answers_append]
  rfl

theorem answers_recorded (r : Resolver σ) (s : σ) (qs ps : List Query) :
    r.recorded.answers (s, ps) qs =
      ((r.answers s qs).1, ((r.answers s qs).2, ps ++ qs)) := by
  induction qs generalizing s ps with
  | nil => simp [answers]
  | cons q qs ih => simp [answers, recorded, ih]

end CilCodec.Resolver
