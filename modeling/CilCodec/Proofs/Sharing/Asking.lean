import CilCodec.Decoder.Body
import CilCodec.Proofs.Decoder.Step
import CilCodec.Proofs.Resolver.Recorded
import CilCodec.Resolver.Cache

/-!
# Decoding as asking

To the resolver, the decoding of a body is a computation that asks one query after the other and
goes on with each answer. That computation can be stopped in front of every query, which a decoder
cannot. The main statement says that it asks what decoding asks and ends in what decoding ends in,
whatever the resolver answers.
-/
namespace CilCodec

/-- A computation that asks a resolver. -/
inductive Asking (α : Type) where
  | done (value : α)
  | ask (query : Query) (rest : Answer → Asking α)

namespace Asking

variable {α β σ : Type}

def run (r : Resolver σ) : σ → Asking α → α × σ
  | s, done a => (a, s)
  | s, ask q rest => run r (r s q).state (rest (r s q).answer)

/-- The value if every query is answered by its key. -/
def value (f : CacheKey → Answer) : Asking α → α
  | done a => a
  | ask q rest => value f (rest (f q.key))

def queries (f : CacheKey → Answer) : Asking α → List Query
  | done _ => []
  | ask q rest => q :: queries f (rest (f q.key))

def map (g : α → β) : Asking α → Asking β
  | done a => done (g a)
  | ask q rest => ask q fun answer => map g (rest answer)

theorem run_map (r : Resolver σ) (s : σ) (g : α → β) (p : Asking α) :
    (p.map g).run r s = (g (p.run r s).1, (p.run r s).2) := by
  induction p generalizing s with
  | done a => rfl
  | ask q rest ih => rw [map, run, ih, run]

end Asking

/-- A resolver answers every query by its key, in every state. -/
def Resolver.AnswersBy {σ : Type} (r : Resolver σ) (f : CacheKey → Answer) : Prop :=
  ∀ s q, (r s q).answer = f q.key

namespace Asking

variable {α σ : Type} {r : Resolver σ} {f : CacheKey → Answer}

theorem run_of_answersBy (h : r.AnswersBy f) (s : σ) (p : Asking α) :
    (p.run r s).1 = p.value f := by
  induction p generalizing s with
  | done a => rfl
  | ask q rest ih => rw [run, ih, h, value]

theorem run_recorded_of_answersBy (h : r.AnswersBy f) (s : σ) (qs : List Query) (p : Asking α) :
    (p.run r.recorded (s, qs)).2.2 = qs ++ p.queries f := by
  induction p generalizing s qs with
  | done a => rw [queries, List.append_nil, run]
  | ask q rest ih =>
    have hanswer : (r.recorded (s, qs) q).answer = f q.key := h s q
    rw [run, hanswer]
    change ((rest (f q.key)).run r.recorded ((r s q).state, qs ++ [q])).2.2 = _
    rw [ih, List.append_assoc, List.singleton_append, queries]

end Asking

def Resolution.ofAnswer : Answer → Resolution
  | .ok symbol => .resolved symbol
  | .error _ => .unresolved

/-- Asks about every token of the items and notes the answers. -/
def Asking.about (context : MethodContext) : List Item → Asking (List Item)
  | [] => .done []
  | .error e :: items => (about context items).map (.error e :: ·)
  | .ok i :: items =>
    match i.operand.token? with
    | none => (about context items).map (.ok i :: ·)
    | some token => .ask ⟨token, i.opcode.kind, context⟩ fun answer =>
      (about context items).map (.ok { i with resolution := .ofAnswer answer } :: ·)

namespace Decoder

variable {σ : Type} {data : List UInt8}

theorem resolve_of_token {d : Decoder σ data} {scope : Scope σ} {i : Instruction} {token : Token}
    (hscope : d.scope = some scope) (hconfig : d.config.resolvesTokens = true)
    (htoken : i.operand.token? = some token) :
    ∃ events, d.resolve i =
      let reply := scope.resolver d.state ⟨token, i.opcode.kind, scope.context⟩
      ⟨{ i with resolution := .ofAnswer reply.answer }, { d with state := reply.state },
        events⟩ := by
  rw [resolve, query?, hscope, htoken]
  dsimp only
  rw [if_pos hconfig]
  dsimp only
  cases (scope.resolver d.state ⟨token, i.opcode.kind, scope.context⟩).answer <;> exact ⟨_, rfl⟩

def bare (d : Decoder σ data) : Decoder Unit data where
  cursor := d.cursor
  phase := d.phase
  config := d.config
  scope := none
  state := ()

/-- Asking about what is taken without a resolver gives what is taken with one. -/
theorem run_asking_drain_bare {d : Decoder σ data} {scope : Scope σ} (hscope : d.scope = some scope)
    (hconfig : d.config.resolvesTokens = true) (hphase : d.phase = .positioned) :
    (Asking.about scope.context d.bare.drain.items).run scope.resolver d.state =
      (d.drain.items, d.drain.decoder.state) := by
  induction hn : d.budget using Nat.strongRecOn generalizing d with
  | ind n ih =>
    subst hn
    by_cases hrest : d.cursor.rest = []
    · rw [drain_of_none (next_of_end (d := d.bare) hphase hrest),
        drain_of_none (next_of_end hphase hrest)]
      rfl
    · cases hread : Instruction.read d.config d.cursor with
      | error e c =>
        rcases drain_of_read_error (d := d.bare) hphase hrest hread with ⟨_, hbare⟩
        rcases drain_of_read_error hphase hrest hread with ⟨_, hdrain⟩
        rw [hbare, hdrain]
        rfl
      | ok i c =>
        rcases drain_of_read_ok (d := d.bare) hphase hrest hread
          (resolve_of_no_scope (d := { d.bare with cursor := c }) rfl i) with ⟨hlt, _, hbare⟩
        rw [hbare, Run.after, List.singleton_append, Asking.about]
        -- The rest does not depend on the state that the answer leaves the resolver in.
        have ih (s : σ) : (Asking.about scope.context
            ({ d.bare with cursor := c } : Decoder Unit data).drain.items).run scope.resolver s =
              _ :=
          ih _ hlt (d := { d with cursor := c, state := s }) hscope hconfig hphase rfl
        cases htoken : i.operand.token? with
        | none =>
          rcases drain_of_read_ok hphase hrest hread (resolve_of_no_token _ htoken) with
            ⟨-, _, hdrain⟩
          dsimp only
          rw [hdrain, Asking.run_map, ih]
          rfl
        | some token =>
          rcases resolve_of_token (d := { d with cursor := c }) hscope hconfig htoken with
            ⟨events, hresolve⟩
          rcases drain_of_read_ok hphase hrest hread hresolve with ⟨-, _, hdrain⟩
          dsimp only
          rw [hdrain, Asking.run, Asking.run_map, ih]
          rfl

end Decoder

namespace Method

variable {σ : Type}

/-- The queries that decoding a body asks a resolver. -/
def requests (m : Method) (r : Resolver σ) (s : σ) : List Query :=
  (decodeWith m.body (some ⟨r.recorded, m.context⟩) (s, [])).state.2

/-- What the decoding of a body with its context asks and ends in. -/
def asking (m : Method) : Asking (Except Error (List Instruction)) :=
  (Asking.about m.context (Decoder.start m.body none ()).drain.items).map collect

/-- Answering the computation is decoding with the resolver that answers. -/
theorem run_asking (m : Method) (r : Resolver σ) (s : σ) :
    m.asking.run r s = ((decodeWith m.body (some ⟨r, m.context⟩) s).result,
      (decodeWith m.body (some ⟨r, m.context⟩) s).state) := by
  have hdrain := Decoder.run_asking_drain_bare
    (d := Decoder.start m.body (some ⟨r, m.context⟩) s) rfl rfl rfl
  change (Asking.about m.context (Decoder.start m.body none ()).drain.items).run r s = _ at hdrain
  rw [asking, Asking.run_map, hdrain]
  rfl

end Method
end CilCodec
