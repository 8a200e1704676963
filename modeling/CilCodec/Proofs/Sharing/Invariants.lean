import CilCodec.Proofs.Resolver.Keys
import CilCodec.Proofs.Sharing.Pool

/-!
# Pools between turns

What holds of workers around a cache whenever a turn is over. Whatever is answered, each key that
was looked up has been called for, and its answer is stored or in the hands of a worker. If every
query is answered by its key, no turn changes what the workers come to, and each brings one of them
closer to its end. The main statements draw the conclusions for every schedule of turns.
-/
namespace CilCodec

variable {α β σ : Type}

theorem map_set_of_eq {g : α → β} {l : List α} {place : Nat} {a b : α} (h : l[place]? = some a)
    (hg : g b = g a) : (l.set place b).map g = l.map g := by
  rw [List.map_set, hg, ← List.map_set, set_of_getElem? h]

/-- Taking the first elements out of one of several lists takes them out of all. -/
theorem perm_flatten_set {ls : List (List α)} {place : Nat} {first l : List α}
    (h : ls[place]? = some (first ++ l)) : (first ++ (ls.set place l).flatten).Perm ls.flatten := by
  induction ls generalizing place with
  | nil => cases h
  | cons m ls ih =>
    cases place with
    | zero =>
      cases h
      rw [List.set_cons_zero, List.flatten_cons, List.flatten_cons, List.append_assoc]
    | succ place =>
      rw [List.set_cons_succ, List.flatten_cons, List.flatten_cons]
      exact (List.perm_append_comm_assoc ..).trans ((ih h).append_left m)

namespace Worker

def value (f : CacheKey → Answer) : Worker α → α
  | running p | holding _ _ p => p.value f

def queries (f : CacheKey → Answer) : Worker α → List Query
  | running p | holding _ _ p => p.queries f

/-- The key that a worker is about to store an answer for. -/
def key? : Worker α → Option CacheKey
  | running _ => none
  | holding q _ _ => some q.key

/-- The answer that a worker is about to store is that of its key. -/
def Honest (f : CacheKey → Answer) : Worker α → Prop
  | running _ => True
  | holding q answer _ => answer = f q.key

/-- The most turns still to take: two for each query to look up, and one to store an answer. -/
def turnsLeft (f : CacheKey → Answer) : Worker α → Nat
  | running p => 2 * (p.queries f).length
  | holding _ _ p => 2 * (p.queries f).length + 1

theorem turnsLeft_eq_zero {f : CacheKey → Answer} {w : Worker α} (h : w.turnsLeft f = 0) :
    ∃ a, w = running (.done a) := by
  match w with
  | running (.done a) => exact ⟨a, rfl⟩
  | running (.ask q rest) => simp [turnsLeft, Asking.queries] at h
  | holding _ _ p => simp [turnsLeft] at h

def Holds (workers : List (Worker α)) (k : CacheKey) : Prop := ∃ w ∈ workers, w.key? = some k

theorem Holds.of_set {workers : List (Worker α)} {place : Nat} {w : Worker α} {k : CacheKey}
    (h : Holds (workers.set place w) k) : Holds workers k ∨ w.key? = some k := by
  rcases h with ⟨v, hmem, hv⟩
  rcases List.mem_or_eq_of_mem_set hmem with hold | rfl
  · exact .inl ⟨v, hold, hv⟩
  · exact .inr hv

theorem holds_set_iff {workers : List (Worker α)} {place : Nat} {v : Worker α}
    (h : workers[place]? = some v) (w : Worker α) (k : CacheKey) :
    Holds (workers.set place w) k ∨ v.key? = some k ↔ Holds workers k ∨ w.key? = some k := by
  have hlt := (List.getElem?_eq_some_iff.1 h).1
  constructor
  · rintro (hset | hv)
    · exact hset.of_set
    · exact .inl ⟨v, List.mem_of_getElem? h, hv⟩
  · rintro (hold | hw)
    · have hback : (workers.set place w).set place v = workers := by
        rw [List.set_set, set_of_getElem? h]
      rw [← hback] at hold
      exact hold.of_set
    · exact .inl ⟨w, List.mem_set hlt w, hw⟩

end Worker

namespace Pool

variable {r : Resolver σ} {pool : Pool σ α} {place : Nat} {q : Query} {answer : Answer}
  {rest : Answer → Asking α}

structure Logged (pool : Pool σ α) : Prop where
  /-- The answer to a call is stored or about to be. -/
  kept : ∀ k, k ∈ pool.calls.map Query.key ↔
    k ∈ pool.shared.cache ∨ Worker.Holds pool.workers k
  requested : ∀ k ∈ pool.requests.map Query.key, k ∈ pool.calls.map Query.key
  called : pool.calls.Sublist pool.requests

theorem logged_start (s : σ) (computations : List (Asking α)) : (start s computations).Logged where
  kept k := by
    have hnone : ¬ Worker.Holds (computations.map Worker.running) k := by
      rintro ⟨w, hmem, hw⟩
      rcases List.mem_map.1 hmem with ⟨_, -, rfl⟩
      cases hw
    exact iff_of_false List.not_mem_nil (not_or.2 ⟨Cache.not_mem_empty, hnone⟩)
  requested _ hk := absurd hk List.not_mem_nil
  called := .slnil

theorem Logged.lookUp_hit (h : pool.Logged)
    (hworker : pool.workers[place]? = some (.running (.ask q rest)))
    (hlookup : pool.shared.cache.lookup? q = some answer) :
    (pool.lookUp r place q rest).Logged := by
  rw [lookUp_of_hit hlookup]
  constructor
  · intro k
    have hsame := Worker.holds_set_iff hworker (.running (rest answer)) k
    simp only [Worker.key?, reduceCtorEq, or_false] at hsame
    rw [h.kept k, hsame]
  · intro k hk
    rw [List.map_append, List.mem_append, List.map_singleton, List.mem_singleton] at hk
    rcases hk with hk | rfl
    · exact h.requested k hk
    · exact (h.kept q.key).2 (.inl (Cache.key_mem_iff.2 ⟨answer, hlookup⟩))
  · exact h.called.trans (List.sublist_append_left ..)

theorem Logged.lookUp_miss (h : pool.Logged)
    (hworker : pool.workers[place]? = some (.running (.ask q rest)))
    (hlookup : pool.shared.cache.lookup? q = none) : (pool.lookUp r place q rest).Logged := by
  rw [lookUp_of_miss hlookup]
  constructor
  · intro k
    have hnew := Worker.holds_set_iff hworker (.holding q (r pool.shared.inner q).answer
      (rest (r pool.shared.inner q).answer)) k
    simp only [Worker.key?, reduceCtorEq, or_false, Option.some.injEq] at hnew
    rw [List.map_append, List.mem_append, List.map_singleton, List.mem_singleton, h.kept k, hnew,
      or_assoc, eq_comm]
  · intro k hk
    rw [List.map_append, List.mem_append] at hk ⊢
    exact hk.imp_left (h.requested k)
  · exact h.called.append (.refl _)

theorem Logged.lookUp (h : pool.Logged)
    (hworker : pool.workers[place]? = some (.running (.ask q rest))) :
    (pool.lookUp r place q rest).Logged := by
  cases hlookup : pool.shared.cache.lookup? q with
  | some answer => exact h.lookUp_hit hworker hlookup
  | none => exact h.lookUp_miss hworker hlookup

theorem Logged.insert {p : Asking α} (h : pool.Logged)
    (hworker : pool.workers[place]? = some (.holding q answer p)) :
    (pool.insert place q answer p).Logged where
  kept k := by
    have hset := Worker.holds_set_iff hworker (.running p) k
    simp only [Worker.key?, reduceCtorEq, or_false, Option.some.injEq] at hset
    rw [Pool.insert, Cache.mem_store_iff, h.kept k, ← hset, or_comm, or_assoc, or_comm]
  requested := h.requested
  called := h.called

theorem Logged.run (h : pool.Logged) (r : Resolver σ) (schedule : List Nat) :
    (pool.run r schedule).Logged :=
  run_induction h r schedule fun _ place h =>
    turn_induction h r place (fun _ _ => h.lookUp) fun _ _ _ => h.insert

/-- What the answers in a pool are if every query is answered by its key. -/
structure Truthful (f : CacheKey → Answer) (computations : List (Asking α)) (pool : Pool σ α) :
    Prop where
  stored : ∀ k answer, pool.shared.cache[k]? = some answer → answer = f k
  held : ∀ w ∈ pool.workers, w.Honest f
  /-- No turn changes what the workers come to. -/
  values : pool.workers.map (Worker.value f) = computations.map (Asking.value f)
  /-- Every query of a computation was looked up or is still to look up. -/
  queries : (pool.requests ++ (pool.workers.map (Worker.queries f)).flatten).Perm
    (computations.map (Asking.queries f)).flatten

variable {f : CacheKey → Answer} {computations : List (Asking α)}

theorem truthful_start (f : CacheKey → Answer) (s : σ) (computations : List (Asking α)) :
    (start s computations).Truthful f computations where
  stored k answer h := by
    rw [start, Cached.fresh, Cache.empty, Std.HashMap.getElem?_empty] at h
    cases h
  held w h := by
    rcases List.mem_map.1 h with ⟨_, -, rfl⟩
    trivial
  values := by
    rw [start, List.map_map]
    rfl
  queries := by
    rw [start, List.map_map]
    rfl

/-- A worker that comes to the same has moved on past the queries that it looked up. -/
theorem Truthful.move (h : pool.Truthful f computations) {v : Worker α} {cache : Cache}
    {inner : σ} (hworker : pool.workers[place]? = some v) (w : Worker α) (more : List Query)
    (hvalue : w.value f = v.value f) (hqueries : v.queries f = more ++ w.queries f)
    (hheld : w.Honest f)
    (hstored : ∀ k answer, cache[k]? = some answer → answer = f k) (calls : List Query) :
    Truthful f computations
      ⟨⟨cache, inner⟩, pool.workers.set place w, pool.requests ++ more, calls⟩ where
  stored := hstored
  held v hmem := by
    rcases List.mem_or_eq_of_mem_set hmem with hold | rfl
    · exact h.held v hold
    · exact hheld
  values := (map_set_of_eq hworker hvalue).trans h.values
  queries := by
    have hfirst : (pool.workers.map (Worker.queries f))[place]? = some (more ++ w.queries f) := by
      rw [List.getElem?_map, hworker, Option.map_some, hqueries]
    rw [List.map_set, List.append_assoc]
    exact ((perm_flatten_set hfirst).append_left _).trans h.queries

theorem Truthful.lookUp (h : pool.Truthful f computations) (hr : r.AnswersBy f)
    (hworker : pool.workers[place]? = some (.running (.ask q rest))) :
    (pool.lookUp r place q rest).Truthful f computations := by
  cases hlookup : pool.shared.cache.lookup? q with
  | some answer =>
    have hanswer := h.stored q.key answer hlookup
    rw [lookUp_of_hit hlookup, hanswer]
    exact h.move hworker (.running (rest (f q.key))) [q] rfl rfl trivial h.stored _
  | none =>
    rw [lookUp_of_miss hlookup]
    dsimp only
    rw [hr pool.shared.inner q]
    exact h.move hworker (.holding q (f q.key) (rest (f q.key))) [q] rfl rfl rfl h.stored _

theorem Truthful.insert {p : Asking α} (h : pool.Truthful f computations)
    (hworker : pool.workers[place]? = some (.holding q answer p)) :
    (pool.insert place q answer p).Truthful f computations := by
  have hstored (k : CacheKey) (other : Answer)
      (hk : (pool.shared.cache.store q answer)[k]? = some other) : other = f k := by
    rw [Cache.store, Std.HashMap.getElem?_insert] at hk
    split at hk
    · next hkey =>
      rw [← eq_of_beq hkey, ← Option.some.inj hk]
      exact h.held _ (List.mem_of_getElem? hworker)
    · exact h.stored k other hk
  rw [Pool.insert, ← List.append_nil pool.requests]
  exact h.move hworker (.running p) [] rfl rfl trivial hstored _

theorem Truthful.turn (h : pool.Truthful f computations) (hr : r.AnswersBy f) (place : Nat) :
    (pool.turn r place).Truthful f computations :=
  turn_induction h r place (fun _ _ => h.lookUp hr) fun _ _ _ => h.insert

theorem Truthful.run (h : pool.Truthful f computations) (hr : r.AnswersBy f)
    (schedule : List Nat) : (pool.run r schedule).Truthful f computations :=
  run_induction h r schedule fun _ place h => h.turn hr place

theorem Truthful.value_eq {a : α} (h : pool.Truthful f computations)
    (hworker : pool.workers[place]? = some (.running (.done a))) :
    (computations.map (Asking.value f))[place]? = some a := by
  rw [← h.values, List.getElem?_map, hworker]
  rfl

theorem Truthful.results_eq (h : pool.Truthful f computations) (hdone : pool.Finished) :
    pool.results = computations.map (Asking.value f) := by
  rw [← h.values, results, ← List.filterMap_eq_map]
  refine List.filterMap_congr fun w hw => ?_
  rcases hdone w hw with ⟨a, rfl⟩
  rfl

/-- Of a computation nothing is left to look up in the end. -/
theorem Truthful.requests_perm (h : pool.Truthful f computations) (hdone : pool.Finished) :
    pool.requests.Perm (computations.map (Asking.queries f)).flatten := by
  have hnone : (pool.workers.map (Worker.queries f)).flatten = [] := by
    refine List.flatten_eq_nil_iff.2 fun qs hqs => ?_
    rcases List.mem_map.1 hqs with ⟨w, hw, rfl⟩
    rcases hdone w hw with ⟨a, rfl⟩
    rfl
  have hqueries := h.queries
  rwa [hnone, List.append_nil] at hqueries

/-- In the end the cache has an entry for each key that was looked up. -/
theorem Logged.size_eq (h : pool.Logged) (hdone : pool.Finished) :
    pool.shared.cache.size = (pool.requests.map Query.key).toFinset.card := by
  have hnone (k : CacheKey) : ¬ Worker.Holds pool.workers k := by
    rintro ⟨w, hw, hk⟩
    rcases hdone w hw with ⟨a, rfl⟩
    cases hk
  refine Cache.size_eq_card fun k => ?_
  have hkept := h.kept k
  rw [or_iff_left (hnone k)] at hkept
  rw [← hkept, List.mem_toFinset]
  exact ⟨fun hk => (h.called.map _).subset hk, h.requested k⟩

theorem Logged.card_le_length_calls (h : pool.Logged) :
    (pool.requests.map Query.key).toFinset.card ≤ pool.calls.length := by
  have hsubset : (pool.requests.map Query.key).toFinset ⊆ (pool.calls.map Query.key).toFinset :=
    fun k hk => List.mem_toFinset.2 (h.requested k (List.mem_toFinset.1 hk))
  calc (pool.requests.map Query.key).toFinset.card
    _ ≤ (pool.calls.map Query.key).toFinset.card := Finset.card_le_card hsubset
    _ ≤ (pool.calls.map Query.key).length := List.toFinset_card_le _
    _ = pool.calls.length := List.length_map _

/-- The most turns that the worker at a place can still take. -/
def turnsLeft (f : CacheKey → Answer) (pool : Pool σ α) (place : Nat) : Nat :=
  (pool.workers[place]?).elim 0 (Worker.turnsLeft f)

theorem finished_of_turnsLeft (h : ∀ place, pool.turnsLeft f place = 0) : pool.Finished := by
  intro w hw
  rcases List.mem_iff_getElem?.1 hw with ⟨place, hworker⟩
  have hzero := h place
  rw [turnsLeft, hworker] at hzero
  exact Worker.turnsLeft_eq_zero hzero

/-- Setting a worker back brings it closer to the end and touches no other. -/
theorem turnsLeft_set {v w : Worker α} (hworker : pool.workers[place]? = some v)
    (hlt : w.turnsLeft f < v.turnsLeft f) {pool' : Pool σ α}
    (h : pool'.workers = pool.workers.set place w) (other : Nat) :
    pool'.turnsLeft f other ≤ pool.turnsLeft f other - if place = other then 1 else 0 := by
  rw [turnsLeft, turnsLeft, h]
  split
  · next heq =>
    rw [← heq, List.getElem?_set_self (List.getElem?_eq_some_iff.1 hworker).1, hworker]
    exact Nat.le_sub_one_of_lt hlt
  · next hne => rw [List.getElem?_set_ne hne, Nat.sub_zero]

theorem turnsLeft_of_done
    (h : ∀ w, pool.workers[place]? = some w → ∃ a, w = .running (.done a)) :
    pool.turnsLeft f place = 0 := by
  rw [turnsLeft]
  cases hworker : pool.workers[place]? with
  | none => rfl
  | some w =>
    rcases h w hworker with ⟨a, rfl⟩
    rfl

theorem Truthful.turnsLeft_turn (h : pool.Truthful f computations) (hr : r.AnswersBy f)
    (place other : Nat) : (pool.turn r place).turnsLeft f other ≤
      pool.turnsLeft f other - if place = other then 1 else 0 := by
  rcases turn_cases r pool place with ⟨hturn, hdone⟩ | ⟨q, rest, hworker, hturn⟩ |
    ⟨q, answer, p, hworker, hturn⟩
  · rw [hturn]
    split
    · next heq => simp [← heq, turnsLeft_of_done hdone]
    · rw [Nat.sub_zero]
  · rw [hturn]
    cases hlookup : pool.shared.cache.lookup? q with
    | some answer =>
      have hanswer := h.stored q.key answer hlookup
      rw [lookUp_of_hit hlookup, hanswer]
      refine turnsLeft_set hworker ?_ rfl other
      simp [Worker.turnsLeft, Asking.queries]
    | none =>
      rw [lookUp_of_miss hlookup]
      refine turnsLeft_set hworker ?_ rfl other
      simp only [Worker.turnsLeft, Asking.queries, hr pool.shared.inner q, List.length_cons]
      omega
  · rw [hturn]
    exact turnsLeft_set hworker (Nat.lt_succ_self _) rfl other

/-- Every turn of a worker brings it closer to the end. -/
theorem Truthful.turnsLeft_run (h : pool.Truthful f computations) (hr : r.AnswersBy f)
    (schedule : List Nat) (place : Nat) :
    (pool.run r schedule).turnsLeft f place ≤ pool.turnsLeft f place - schedule.count place := by
  induction schedule generalizing pool with
  | nil => exact le_rfl
  | cons first schedule ih =>
    have hturn := h.turnsLeft_turn hr first place
    have hrun := ih (h.turn hr first)
    simp only [List.count_cons, beq_iff_eq]
    change (Pool.run r (pool.turn r first) schedule).turnsLeft f place ≤ _
    omega

end Pool
end CilCodec
