import CilCodec.Proofs.Resolver.Keys
import CilCodec.Proofs.Sharing.Asking

/-!
# Workers around a cache

Computations that share a resolver behind a cache and take turns in any order. Looking up a query is
a turn. If the cache has no answer, the same turn calls the resolver behind it, and storing what
that says is a later turn of the same worker; in between the others may look up the same key, call
the resolver again and store its answer over another. The main statements say what a property needs
to hold after every schedule of turns, that the log of calls is what the resolver is asked, and that
turns without interruption are the resolver with its cache.
-/
namespace CilCodec

variable {α σ : Type}

theorem set_of_getElem? {l : List α} {place : Nat} {a : α} (h : l[place]? = some a) :
    l.set place a = l := by
  rcases List.getElem?_eq_some_iff.1 h with ⟨hlt, rfl⟩
  exact List.set_getElem_self hlt

inductive Worker (α : Type) where
  | running (computation : Asking α)
  /-- Goes on once the answer is stored. -/
  | holding (query : Query) (answer : Answer) (computation : Asking α)

namespace Worker

def result? : Worker α → Option α
  | running (.done a) => some a
  | _ => none

end Worker

structure Pool (σ α : Type) where
  shared : Cached σ
  workers : List (Worker α)
  /-- The queries that were looked up, in order. -/
  requests : List Query
  /-- The queries that the resolver behind the cache was asked, in order. -/
  calls : List Query

namespace Pool

/-- Workers in front of their first queries and around an empty cache. -/
def start (s : σ) (computations : List (Asking α)) : Pool σ α :=
  ⟨.fresh s, computations.map .running, [], []⟩

/-- The worker at the place looks up a query, and asks the resolver behind the cache if there is no
answer. -/
def lookUp (r : Resolver σ) (pool : Pool σ α) (place : Nat) (q : Query)
    (rest : Answer → Asking α) : Pool σ α :=
  match pool.shared.cache.lookup? q with
  | some answer =>
    { pool with
      workers := pool.workers.set place (.running (rest answer))
      requests := pool.requests ++ [q] }
  | none =>
    let reply := r pool.shared.inner q
    { shared := ⟨pool.shared.cache, reply.state⟩
      workers := pool.workers.set place (.holding q reply.answer (rest reply.answer))
      requests := pool.requests ++ [q]
      calls := pool.calls ++ [q] }

def insert (pool : Pool σ α) (place : Nat) (q : Query) (answer : Answer) (p : Asking α) :
    Pool σ α :=
  { pool with
    shared := ⟨pool.shared.cache.store q answer, pool.shared.inner⟩
    workers := pool.workers.set place (.running p) }

/-- The worker at the place takes a turn, unless it is done. -/
def turn (r : Resolver σ) (pool : Pool σ α) (place : Nat) : Pool σ α :=
  match pool.workers[place]? with
  | some (.running (.ask q rest)) => pool.lookUp r place q rest
  | some (.holding q answer p) => pool.insert place q answer p
  | _ => pool

def run (r : Resolver σ) (pool : Pool σ α) (schedule : List Nat) : Pool σ α :=
  schedule.foldl (turn r) pool

def Finished (pool : Pool σ α) : Prop := ∀ w ∈ pool.workers, ∃ a, w = .running (.done a)

def results (pool : Pool σ α) : List α := pool.workers.filterMap Worker.result?

variable {r : Resolver σ} {pool : Pool σ α} {place : Nat} {q : Query} {answer : Answer}
  {rest : Answer → Asking α}

theorem lookUp_of_hit (h : pool.shared.cache.lookup? q = some answer) :
    pool.lookUp r place q rest =
      { pool with
        workers := pool.workers.set place (.running (rest answer))
        requests := pool.requests ++ [q] } := by
  rw [lookUp, h]

theorem lookUp_of_miss (h : pool.shared.cache.lookup? q = none) :
    pool.lookUp r place q rest =
      let reply := r pool.shared.inner q
      { shared := ⟨pool.shared.cache, reply.state⟩
        workers := pool.workers.set place (.holding q reply.answer (rest reply.answer))
        requests := pool.requests ++ [q]
        calls := pool.calls ++ [q] } := by
  rw [lookUp, h]

theorem turn_cases (r : Resolver σ) (pool : Pool σ α) (place : Nat) :
    (pool.turn r place = pool ∧
      ∀ w, pool.workers[place]? = some w → ∃ a, w = .running (.done a)) ∨
    (∃ q rest, pool.workers[place]? = some (.running (.ask q rest)) ∧
      pool.turn r place = pool.lookUp r place q rest) ∨
    ∃ q answer p, pool.workers[place]? = some (.holding q answer p) ∧
      pool.turn r place = pool.insert place q answer p := by
  rw [turn]
  match h : pool.workers[place]? with
  | none => exact .inl ⟨rfl, fun w hw => absurd hw.symm (Option.some_ne_none w)⟩
  | some (.running (.done a)) => exact .inl ⟨rfl, fun w hw => ⟨a, (Option.some.inj hw).symm⟩⟩
  | some (.running (.ask q rest)) => exact .inr (.inl ⟨q, rest, rfl, rfl⟩)
  | some (.holding q answer p) => exact .inr (.inr ⟨q, answer, p, rfl, rfl⟩)

/-- What is kept by looking up and by storing is kept by a turn. -/
theorem turn_induction {P : Pool σ α → Prop} (h : P pool) (r : Resolver σ) (place : Nat)
    (hlookUp : ∀ q rest, pool.workers[place]? = some (.running (.ask q rest)) →
      P (pool.lookUp r place q rest))
    (hinsert : ∀ q answer p, pool.workers[place]? = some (.holding q answer p) →
      P (pool.insert place q answer p)) : P (pool.turn r place) := by
  rcases turn_cases r pool place with ⟨hturn, -⟩ | ⟨q, rest, hworker, hturn⟩ |
    ⟨q, answer, p, hworker, hturn⟩
  · rwa [hturn]
  · rw [hturn]
    exact hlookUp q rest hworker
  · rw [hturn]
    exact hinsert q answer p hworker

/-- What is kept by every turn holds after every run. -/
theorem run_induction {P : Pool σ α → Prop} (h : P pool) (r : Resolver σ) (schedule : List Nat)
    (hturn : ∀ pool place, P pool → P (pool.turn r place)) : P (pool.run r schedule) := by
  induction schedule generalizing pool with
  | nil => exact h
  | cons place schedule ih => exact ih (hturn pool place h)

/-- Two calls for one key, if both workers miss before either stores, and otherwise one. -/
example :
    let q : Query := ⟨⟨0x0A000001⟩, .inlineMethod, .ofMethod ⟨0x06000001⟩⟩
    let r : Resolver Unit := .ofFunction fun q => .ok ⟨q.token, .method, "Main"⟩
    let pool : Pool Unit Answer := start () [.ask q .done, .ask q .done]
    (pool.run r [0, 1, 0, 1]).calls = [q, q] ∧ (pool.run r [0, 0, 1]).calls = [q] := by
  intro q r pool
  constructor <;> cbv

/-- The pool around a resolver that has recorded the calls itself. -/
def recorded (pool : Pool σ α) : Pool (σ × List Query) α where
  shared := ⟨pool.shared.cache, (pool.shared.inner, pool.calls)⟩
  workers := pool.workers
  requests := pool.requests
  calls := pool.calls

theorem lookUp_recorded (r : Resolver σ) (pool : Pool σ α) (place : Nat) (q : Query)
    (rest : Answer → Asking α) :
    pool.recorded.lookUp r.recorded place q rest = (pool.lookUp r place q rest).recorded := by
  cases hlookup : pool.shared.cache.lookup? q with
  | some answer =>
    have hrecorded : pool.recorded.shared.cache.lookup? q = some answer := hlookup
    rw [lookUp_of_hit hlookup, lookUp_of_hit hrecorded]
    rfl
  | none =>
    have hrecorded : pool.recorded.shared.cache.lookup? q = none := hlookup
    rw [lookUp_of_miss hlookup, lookUp_of_miss hrecorded]
    rfl

theorem turn_recorded (r : Resolver σ) (pool : Pool σ α) (place : Nat) :
    pool.recorded.turn r.recorded place = (pool.turn r place).recorded := by
  have hworkers : pool.recorded.workers = pool.workers := rfl
  rw [turn, turn, hworkers]
  split
  · exact pool.lookUp_recorded r place _ _
  · rfl
  · rfl

theorem run_recorded (r : Resolver σ) (pool : Pool σ α) (schedule : List Nat) :
    pool.recorded.run r.recorded schedule = (pool.run r schedule).recorded :=
  List.foldl_hom recorded fun pool place => turn_recorded r pool place

/-- The calls in the log are those that the resolver behind the cache gets. -/
theorem inner_run_start (r : Resolver σ) (computations : List (Asking α)) (s : σ)
    (schedule : List Nat) :
    let pool := (start s computations).run r schedule
    ((start (s, []) computations).run r.recorded schedule).shared.inner =
      (pool.shared.inner, pool.calls) := by
  have hstart : start (s, []) computations = (start s computations).recorded := rfl
  rw [hstart, run_recorded]
  rfl

/-- A query in whose midst no other worker takes a turn is one query to the resolver with its
cache. -/
theorem run_ask (r : Resolver σ) (h : pool.workers[place]? = some (.running (.ask q rest))) :
    ∃ turns,
      let reply := r.cached pool.shared q
      let after := pool.run r (List.replicate turns place)
      after.workers = pool.workers.set place (.running (rest reply.answer)) ∧
        after.shared = reply.state := by
  have hturn : pool.turn r place = pool.lookUp r place q rest := by rw [turn, h]
  cases hlookup : pool.shared.cache.lookup? q with
  | some answer =>
    refine ⟨1, ?_⟩
    rw [List.replicate_one, run, List.foldl_cons, List.foldl_nil, hturn, lookUp_of_hit hlookup,
      r.cached_of_hit hlookup]
    exact ⟨rfl, rfl⟩
  | none =>
    refine ⟨2, ?_⟩
    have hlt := (List.getElem?_eq_some_iff.1 h).1
    rw [List.replicate_succ, List.replicate_one, run, List.foldl_cons, List.foldl_cons,
      List.foldl_nil, hturn, lookUp_of_miss hlookup, r.cached_of_miss hlookup, turn]
    dsimp only
    rw [List.getElem?_set_self hlt]
    exact ⟨List.set_set .., rfl⟩

theorem run_append (r : Resolver σ) (pool : Pool σ α) (first schedule : List Nat) :
    pool.run r (first ++ schedule) = (pool.run r first).run r schedule := List.foldl_append

/-- A worker that no other interrupts runs with the resolver and its cache. -/
theorem run_running (r : Resolver σ) {p : Asking α}
    (h : pool.workers[place]? = some (.running p)) :
    ∃ turns,
      let after := pool.run r (List.replicate turns place)
      after.workers = pool.workers.set place (.running (.done (p.run r.cached pool.shared).1)) ∧
        after.shared = (p.run r.cached pool.shared).2 := by
  induction p generalizing pool with
  | done a => exact ⟨0, (set_of_getElem? h).symm, rfl⟩
  | ask q rest ih =>
    rcases run_ask r h with ⟨first, hworkers, hshared⟩
    have hlt := (List.getElem?_eq_some_iff.1 h).1
    have hworker : (pool.run r (List.replicate first place)).workers[place]? =
        some (.running (rest (r.cached pool.shared q).answer)) := by
      rw [hworkers, List.getElem?_set_self hlt]
    rcases ih _ hworker with ⟨turns, hdone, hstate⟩
    refine ⟨first + turns, ?_⟩
    rw [← List.replicate_append_replicate, run_append]
    rw [hworkers, hshared, List.set_set] at hdone
    rw [hshared] at hstate
    exact ⟨hdone, hstate⟩

end Pool
end CilCodec
