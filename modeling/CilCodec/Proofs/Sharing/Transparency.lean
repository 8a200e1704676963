import CilCodec.Proofs.Sharing.Invariants

/-!
# Decoding around a shared cache

Bodies that are decoded side by side, with one resolver behind a cache for all of them. If the
answers of that resolver depend on nothing but keys, the cache shows in no result, however the
workers take turns. The main statement also counts the entries of the cache and the calls of the
resolver, and says that every worker comes to its end. Where no worker interrupts another, the turns
are the resolver with its cache; decoding one body after the other is one way to take them.
-/
namespace CilCodec

variable {σ : Type} {r : Resolver σ} {f : CacheKey → Answer}

namespace Method

theorem result_of_answersBy (h : r.AnswersBy f) (m : Method) (s : σ) :
    (decodeWith m.body (some ⟨r, m.context⟩) s).result = m.asking.value f := by
  rw [← Asking.run_of_answersBy h s, run_asking]

theorem requests_of_answersBy (h : r.AnswersBy f) (m : Method) (s : σ) :
    m.requests r s = m.asking.queries f := by
  have hrecorded := Asking.run_recorded_of_answersBy h s [] m.asking
  rwa [run_asking] at hrecorded

end Method

theorem decodeMethods_of_answersBy (h : r.AnswersBy f) (methods : List Method) (s : σ) :
    (decodeMethods (some r) methods s).1 = methods.map fun m => m.asking.value f := by
  induction methods generalizing s with
  | nil => rfl
  | cons m methods ih =>
    rw [decodeMethods, List.map_cons]
    exact congrArg₂ List.cons (m.result_of_answersBy h s) (ih _)

/-- Decoding bodies one after the other is one way for their workers to take turns. -/
theorem run_in_order (r : Resolver σ) (methods : List Method)
    (front : List (Worker (Except Error (List Instruction))))
    (pool : Pool σ (Except Error (List Instruction)))
    (h : pool.workers = front ++ methods.map (Worker.running ∘ Method.asking)) :
    ∃ schedule,
      let decoded := decodeMethods (some r.cached) methods pool.shared
      (pool.run r schedule).workers = front ++ decoded.1.map (Worker.running ∘ .done) ∧
        (pool.run r schedule).shared = decoded.2 := by
  induction methods generalizing front pool with
  | nil => exact ⟨[], h, rfl⟩
  | cons m methods ih =>
    have hworker : pool.workers[front.length]? = some (.running m.asking) := by
      rw [h, List.getElem?_append_right le_rfl, Nat.sub_self]
      rfl
    rcases Pool.run_running r hworker with ⟨turns, hdone, hshared⟩
    rw [m.run_asking] at hdone hshared
    rw [h, List.set_append_right _ _ le_rfl, Nat.sub_self, List.map_cons, List.set_cons_zero,
      List.append_cons] at hdone
    rcases ih _ _ hdone with ⟨schedule, hworkers, hstate⟩
    rw [hshared] at hworkers hstate
    refine ⟨List.replicate turns front.length ++ schedule, ?_⟩
    rw [Pool.run_append]
    exact ⟨by rw [hworkers, ← List.append_cons]; rfl, hstate⟩

theorem exists_run_in_order (r : Resolver σ) (methods : List Method) (s : σ) :
    ∃ schedule,
      let decoded := decodeMethods (some r.cached) methods (.fresh s)
      let after := (Pool.start s (methods.map Method.asking)).run r schedule
      after.workers = decoded.1.map (Worker.running ∘ .done) ∧ after.shared = decoded.2 :=
  run_in_order r methods [] (Pool.start s (methods.map Method.asking)) List.map_map

/-- What workers on bodies have done by some moment, and the cache between them. -/
structure Transparent (r : Resolver σ) (f : CacheKey → Answer) (methods : List Method)
    (pool : Pool σ (Except Error (List Instruction))) : Prop where
  /-- A worker that is done has what decoding gives without the cache. -/
  result : ∀ (place : Nat) (m : Method) result, methods[place]? = some m →
    pool.workers[place]? = some (Worker.running (.done result)) →
    ∀ s, result = (decodeWith m.body (some ⟨r, m.context⟩) s).result
  results : pool.Finished → ∀ s, pool.results = (decodeMethods (some r) methods s).1
  stored : ∀ k answer, pool.shared.cache[k]? = some answer → answer = f k
  /-- In the end the same queries have been made as without the cache. -/
  requests : pool.Finished → ∀ s, pool.requests.Perm (methods.flatMap (Method.requests · r s))
  size : pool.Finished →
    pool.shared.cache.size = (pool.requests.map Query.key).toFinset.card
  card_le_calls : (pool.requests.map Query.key).toFinset.card ≤ pool.calls.length
  calls_le_requests : pool.calls.length ≤ pool.requests.length

/-- Where no other worker takes a turn in its midst, a worker does what the resolver with its cache
does. -/
structure Uninterrupted (r : Resolver σ) (methods : List Method) (s : σ)
    (pool : Pool σ (Except Error (List Instruction))) : Prop where
  /-- From any moment on, all the turns of one query. -/
  query : ∀ place q rest, pool.workers[place]? = some (Worker.running (.ask q rest)) →
    ∃ turns,
      let reply := r.cached pool.shared q
      let after := pool.run r (List.replicate turns place)
      after.workers = pool.workers.set place (.running (rest reply.answer)) ∧
        after.shared = reply.state
  /-- From the start on, all the turns of one worker after the other. -/
  inOrder : ∃ schedule,
    let decoded := decodeMethods (some r.cached) methods (.fresh s)
    let after := (Pool.start s (methods.map Method.asking)).run r schedule
    after.workers = decoded.1.map (Worker.running ∘ .done) ∧ after.shared = decoded.2

theorem uninterrupted (r : Resolver σ) (methods : List Method) (s : σ)
    (pool : Pool σ (Except Error (List Instruction))) : Uninterrupted r methods s pool where
  query _ _ _ h := Pool.run_ask r h
  inOrder := exists_run_in_order r methods s

theorem transparent_of_truthful (h : r.AnswersBy f) {methods : List Method}
    {pool : Pool σ (Except Error (List Instruction))}
    (htruthful : pool.Truthful f (methods.map Method.asking)) (hlogged : pool.Logged) :
    Transparent r f methods pool where
  result place m result hm hworker s := by
    have hvalue := htruthful.value_eq hworker
    rw [List.map_map, List.getElem?_map, hm, Option.map_some, Option.some.injEq] at hvalue
    rw [m.result_of_answersBy h, ← hvalue]
    rfl
  results hdone s := by
    rw [htruthful.results_eq hdone, decodeMethods_of_answersBy h, List.map_map]
    rfl
  stored := htruthful.stored
  requests hdone s := by
    have hperm := htruthful.requests_perm hdone
    rw [List.map_map, ← List.flatMap_def] at hperm
    have hrequests : (Method.requests · r s) = Asking.queries f ∘ Method.asking :=
      funext fun m => m.requests_of_answersBy h s
    rwa [hrequests]
  size := hlogged.size_eq
  card_le_calls := hlogged.card_le_length_calls
  calls_le_requests := hlogged.called.length_le

theorem transparent_run (h : r.AnswersBy f) (methods : List Method) (s : σ)
    (schedule : List Nat) :
    Transparent r f methods ((Pool.start s (methods.map Method.asking)).run r schedule) :=
  transparent_of_truthful h ((Pool.truthful_start f s _).run h schedule)
    ((Pool.logged_start s _).run r schedule)

theorem decodeMethods_cached (h : r.AnswersBy f) (methods : List Method) (s : σ) :
    (decodeMethods (some r.cached) methods (.fresh s)).1 =
      (decodeMethods (some r) methods s).1 := by
  rcases exists_run_in_order r methods s with ⟨schedule, hworkers, -⟩
  have hdone : ((Pool.start s (methods.map Method.asking)).run r schedule).Finished := by
    intro w hw
    rw [hworkers] at hw
    rcases List.mem_map.1 hw with ⟨result, -, rfl⟩
    exact ⟨result, rfl⟩
  rw [← (transparent_run h methods s schedule).results hdone s, Pool.results, hworkers,
    List.filterMap_map]
  exact List.filterMap_some.symm

/-- Enough turns for two to each query of a body bring its worker to its end. -/
theorem finished_of_count (h : r.AnswersBy f) (methods : List Method) (s : σ)
    {schedule : List Nat} (hcount : ∀ place m, methods[place]? = some m →
      2 * (m.requests r s).length ≤ schedule.count place) :
    ((Pool.start s (methods.map Method.asking)).run r schedule).Finished := by
  refine Pool.finished_of_turnsLeft (f := f) fun place => ?_
  have hrun := (Pool.truthful_start f s (methods.map Method.asking)).turnsLeft_run h schedule place
  refine Nat.eq_zero_of_le_zero (hrun.trans (Nat.le_of_eq (Nat.sub_eq_zero_of_le ?_)))
  rw [Pool.turnsLeft, Pool.start, List.getElem?_map, List.getElem?_map]
  cases hm : methods[place]? with
  | none => exact Nat.zero_le _
  | some m =>
    have hle := hcount place m hm
    rwa [m.requests_of_answersBy h] at hle

/-- However workers on bodies take turns around a cache, nothing shows that there is a cache or that
there are other workers, and with enough turns all come to their ends. Nor does the cache show where
bodies are decoded in order, which is what workers do that do not interrupt one another. The calls
that are counted are those that the resolver behind the cache records. -/
theorem transparent_of_answersBy (h : r.AnswersBy f) (methods : List Method) (s : σ)
    (schedule : List Nat) :
    let pool := (Pool.start s (methods.map Method.asking)).run r schedule
    Transparent r f methods pool ∧
      ((∀ place m, methods[place]? = some m →
        2 * (m.requests r s).length ≤ schedule.count place) → pool.Finished) ∧
      (decodeMethods (some r.cached) methods (.fresh s)).1 =
        (decodeMethods (some r) methods s).1 ∧
      Uninterrupted r methods s pool ∧
      ((Pool.start (s, []) (methods.map Method.asking)).run r.recorded schedule).shared.inner =
        (pool.shared.inner, pool.calls) :=
  ⟨transparent_run h methods s schedule, finished_of_count h methods s,
    decodeMethods_cached h methods s, uninterrupted r methods s _,
    Pool.inner_run_start r (methods.map Method.asking) s schedule⟩

/-- Two bodies with a call of the same method, whose workers both miss before either stores. -/
theorem transparent_of_answersBy_two_calls :
    let methods : List Method :=
      [⟨[0x28, 0x01, 0, 0, 0x0A, 0x2A], .ofMethod ⟨0x06000001⟩⟩,
        ⟨[0x00, 0x28, 0x01, 0, 0, 0x0A, 0x2A], .ofMethod ⟨0x06000002⟩⟩]
    let r : Resolver Unit := .ofFunction fun q => .ok ⟨q.token, .method, "Main"⟩
    let pool := (Pool.start () (methods.map Method.asking)).run r [0, 1, 0, 1]
    (∃ f, r.AnswersBy f ∧ Transparent r f methods pool) ∧ pool.Finished ∧
      Uninterrupted r methods () pool ∧
      ((Pool.start ((), []) (methods.map Method.asking)).run r.recorded [0, 1, 0, 1]).shared.inner =
        ((), pool.calls) := by
  intro methods r pool
  have hr : r.AnswersBy fun k => .ok ⟨k.token, .method, "Main"⟩ := fun _ _ => rfl
  rcases transparent_of_answersBy hr methods () [0, 1, 0, 1] with
    ⟨htransparent, hfinished, -, huninterrupted, hrecorded⟩
  refine ⟨⟨_, hr, htransparent⟩, hfinished fun place m hm => ?_, huninterrupted, hrecorded⟩
  match place with
  | 0 =>
    cases hm
    decide +kernel
  | 1 =>
    cases hm
    decide +kernel
  | _ + 2 => cases hm

end CilCodec
