import CilCodec.Proofs.Resolver.Keys
import CilCodec.Proofs.Resolver.Recorded
import Mathlib.Data.List.Induction

/-!
# Histories of a cache

A resolver behind a cache is used by queries and clearings, one after the other. Since it was last
cleared the cache has asked once for each key, at the first query that has the key, and every query
gets what the resolver behind the cache said then. That resolver may hold any state and need not
give the same answer twice. The main statement also says which queries share a key.
-/
namespace CilCodec

inductive Use where
  | resolve (query : Query)
  | clear
  deriving DecidableEq

namespace Use

/-- The queries since the cache was last cleared, in order. -/
def recent (uses : List Use) : List Query :=
  uses.foldl (fun queries use => match use with
    | resolve q => queries ++ [q]
    | clear => []) []

/-- The use at a place is a query whose key no other has had since the cache was last cleared. -/
def Opens (uses : List Use) (place : Nat) (q : Query) : Prop :=
  uses[place]? = some (.resolve q) ∧ ∀ p ∈ recent (uses.take place), p.key ≠ q.key

/-- The query at a place opens, and the cache has not been cleared since. -/
structure Stands (uses : List Use) (place : Nat) (q : Query) : Prop where
  opens : Opens uses place q
  kept : ∀ n, place ≤ n → uses[n]? ≠ some .clear

def opening? (uses : List Use) (place : Nat) : Option Query :=
  match uses[place]? with
  | some (.resolve q) => if ∀ p ∈ recent (uses.take place), p.key ≠ q.key then some q else none
  | _ => none

def openings (uses : List Use) : List Query := (List.range uses.length).filterMap (opening? uses)

variable {uses : List Use} {place : Nat} {q : Query}

@[simp] theorem recent_concat_resolve (uses : List Use) (q : Query) :
    recent (uses ++ [.resolve q]) = recent uses ++ [q] := by
  simp [recent, List.foldl_append]

@[simp] theorem recent_concat_clear (uses : List Use) : recent (uses ++ [.clear]) = [] := by
  simp [recent, List.foldl_append]

theorem opening?_eq_some_iff : opening? uses place = some q ↔ Opens uses place q := by
  unfold opening? Opens
  split
  · next p h =>
    simp only [h, Option.ite_none_right_eq_some, Option.some.injEq, Use.resolve.injEq]
    constructor
    · rintro ⟨hfresh, rfl⟩
      exact ⟨rfl, hfresh⟩
    · rintro ⟨rfl, hfresh⟩
      exact ⟨hfresh, rfl⟩
  · next h =>
    simp only [reduceCtorEq, false_iff, not_and]
    exact fun hq => absurd hq (h q)

theorem Opens.lt_length (h : Opens uses place q) : place < uses.length :=
  (List.getElem?_eq_some_iff.1 h.1).1

theorem Opens.take_append (h : Opens uses place q) (more : List Use) :
    (uses ++ more).take place = uses.take place :=
  List.take_append_of_le_length (Nat.le_of_lt h.lt_length)

theorem opens_append_iff (more : List Use) (h : place < uses.length) :
    Opens (uses ++ more) place q ↔ Opens uses place q := by
  rw [Opens, Opens, List.getElem?_append_left h, List.take_append_of_le_length (Nat.le_of_lt h)]

theorem opens_concat_length_iff (p : Query) :
    Opens (uses ++ [.resolve p]) uses.length q ↔ p = q ∧ ∀ p ∈ recent uses, p.key ≠ q.key := by
  rw [Opens, List.take_left]
  simp

theorem Stands.concat_resolve (h : Stands uses place q) (p : Query) :
    Stands (uses ++ [.resolve p]) place q where
  opens := (opens_append_iff _ h.opens.lt_length).2 h.opens
  kept n hn := by
    rw [List.getElem?_append]
    split
    · exact h.kept n hn
    · cases n - uses.length <;> simp

theorem stands_length (h : ∀ p ∈ recent uses, p.key ≠ q.key) :
    Stands (uses ++ [.resolve q]) uses.length q where
  opens := (opens_concat_length_iff q).2 ⟨rfl, h⟩
  kept n hn := by
    rw [List.getElem?_append_right hn]
    cases n - uses.length <;> simp

theorem openings_concat (uses : List Use) (use : Use) :
    openings (uses ++ [use]) = openings uses ++ (opening? (uses ++ [use]) uses.length).toList := by
  rw [openings, List.length_append, List.length_singleton, List.range_succ, List.filterMap_append]
  congr 1
  refine List.filterMap_congr fun place hplace => Option.ext fun q => ?_
  rw [opening?_eq_some_iff, opening?_eq_some_iff, opens_append_iff _ (List.mem_range.1 hplace)]

theorem openings_concat_clear (uses : List Use) : openings (uses ++ [.clear]) = openings uses := by
  rw [openings_concat]
  simp [opening?]

theorem openings_concat_of_fresh (h : ∀ p ∈ recent uses, p.key ≠ q.key) :
    openings (uses ++ [.resolve q]) = openings uses ++ [q] := by
  rw [openings_concat, opening?_eq_some_iff.2 ((opens_concat_length_iff q).2 ⟨rfl, h⟩)]
  rfl

theorem openings_concat_of_mem {p : Query} (hp : p ∈ recent uses) (hkey : p.key = q.key) :
    openings (uses ++ [.resolve q]) = openings uses := by
  have hnone : opening? (uses ++ [.resolve q]) uses.length = none := by
    refine Option.eq_none_iff_forall_ne_some.2 fun q' hq' => ?_
    rcases (opens_concat_length_iff q).1 (opening?_eq_some_iff.1 hq') with ⟨rfl, hfresh⟩
    exact hfresh p hp hkey
  rw [openings_concat, hnone, Option.toList_none, List.append_nil]

/-- Two methods without generic arguments share their keys until the cache is cleared. -/
example :
    let q : Query := ⟨⟨0x0A000001⟩, .inlineMethod, .ofMethod ⟨0x06000001⟩⟩
    let p : Query := ⟨⟨0x0A000001⟩, .inlineMethod, .ofMethod ⟨0x06000002⟩⟩
    openings [.resolve q, .resolve p, .clear, .resolve p] = [q, p] := by
  decide

end Use

variable {σ : Type} {r : Resolver σ}

namespace Cached

open Use

/-- What a use of a resolver behind a cache returns, and the cache and the state behind it. -/
def use (r : Resolver σ) (s : Cached σ) : Use → Option Answer × Cached σ
  | .resolve q => (some (r.cached s q).answer, (r.cached s q).state)
  | .clear => (none, s.clear)

def after (r : Resolver σ) (s : Cached σ) (uses : List Use) : Cached σ :=
  uses.foldl (fun s u => (s.use r u).2) s

def returned (r : Resolver σ) (s : Cached σ) : List Use → List (Option Answer)
  | [] => []
  | u :: uses => (s.use r u).1 :: returned r (s.use r u).2 uses

theorem after_concat (r : Resolver σ) (s : Cached σ) (uses : List Use) (u : Use) :
    after r s (uses ++ [u]) = ((after r s uses).use r u).2 := by
  rw [after, List.foldl_append]
  rfl

theorem getElem?_returned (r : Resolver σ) (s : Cached σ) (uses : List Use) (n : Nat) :
    (returned r s uses)[n]? =
      uses[n]?.map fun u => ((after r s (uses.take n)).use r u).1 := by
  induction uses generalizing s n with
  | nil => rfl
  | cons u uses ih =>
    cases n with
    | zero => rfl
    | succ n =>
      rw [returned, List.getElem?_cons_succ, ih, List.getElem?_cons_succ]
      rfl

theorem use_of_hit {s : Cached σ} {q : Query} {answer : Answer}
    (h : s.cache.lookup? q = some answer) : s.use r (.resolve q) = (some answer, s) := by
  rw [use, r.cached_of_hit h]

theorem use_of_miss {s : Cached σ} {q : Query} (h : s.cache.lookup? q = none) :
    s.use r (.resolve q) = (some (r s.inner q).answer,
      ⟨s.cache.store q (r s.inner q).answer, (r s.inner q).state⟩) := by
  rw [use, r.cached_of_miss h]

variable (r) (s : σ) (uses : List Use)

/-- The cache has the keys of the queries since it was last cleared, and no other. -/
theorem mem_after_iff (k : CacheKey) :
    k ∈ (after r (fresh s) uses).cache ↔ k ∈ (recent uses).map Query.key := by
  induction uses using List.reverseRecOn with
  | nil => exact iff_of_false Cache.not_mem_empty List.not_mem_nil
  | append_singleton uses u ih =>
    rw [after_concat]
    cases u with
    | clear =>
      rw [recent_concat_clear]
      exact iff_of_false Cache.not_mem_empty List.not_mem_nil
    | resolve p =>
      rw [recent_concat_resolve, List.map_append, List.mem_append, List.map_singleton,
        List.mem_singleton, ← ih]
      cases hp : (after r (fresh s) uses).cache.lookup? p with
      | some answer =>
        have hmem := Cache.key_mem_iff.2 ⟨answer, hp⟩
        rw [use_of_hit hp]
        exact (or_iff_left_of_imp fun hk => hk ▸ hmem).symm
      | none => rw [use_of_miss hp, Cache.mem_store_iff, or_comm, eq_comm]

theorem use_after_cases (q : Query) :
    (∃ p ∈ recent uses, ∃ answer, p.key = q.key ∧
      (after r (fresh s) uses).use r (.resolve q) = (some answer, after r (fresh s) uses)) ∨
    ((∀ p ∈ recent uses, p.key ≠ q.key) ∧
      let reply := r (after r (fresh s) uses).inner q
      (after r (fresh s) uses).use r (.resolve q) = (some reply.answer,
        ⟨(after r (fresh s) uses).cache.store q reply.answer, reply.state⟩)) := by
  have hmem := mem_after_iff r s uses q.key
  rw [List.mem_map] at hmem
  cases hq : (after r (fresh s) uses).cache.lookup? q with
  | some answer =>
    rcases hmem.1 (Cache.key_mem_iff.2 ⟨answer, hq⟩) with ⟨p, hp, hkey⟩
    exact .inl ⟨p, hp, answer, hkey, use_of_hit hq⟩
  | none =>
    have hnew := Cache.key_notMem_iff.2 hq
    exact .inr ⟨fun p hp hkey => hnew (hmem.2 ⟨p, hp, hkey⟩), use_of_miss hq⟩

/-- The resolver behind the cache has been asked what opened, in that order. -/
theorem inner_after : (after r (fresh s) uses).inner = (r.answers s (openings uses)).2 := by
  induction uses using List.reverseRecOn with
  | nil => rfl
  | append_singleton uses u ih =>
    rw [after_concat]
    cases u with
    | clear => rw [openings_concat_clear, ← ih, use, clear]
    | resolve p =>
      rcases use_after_cases r s uses p with ⟨p', hmem, answer, hkey, huse⟩ | ⟨hfresh, huse⟩
      · rw [huse, openings_concat_of_mem hmem hkey, ih]
      · rw [huse, openings_concat_of_fresh hfresh, r.answers_concat, ih]

/-- A stored answer is what the resolver behind the cache said to the standing query with its
key. -/
theorem lookup?_after {q : Query} {answer : Answer}
    (h : (after r (fresh s) uses).cache.lookup? q = some answer) :
    ∃ place p, Stands uses place p ∧ p.key = q.key ∧
      answer = (r (r.answers s (openings (uses.take place))).2 p).answer := by
  induction uses using List.reverseRecOn with
  | nil =>
    rw [after, List.foldl_nil, fresh, Cache.lookup?_empty] at h
    cases h
  | append_singleton uses u ih =>
    rw [after_concat] at h
    cases u with
    | clear =>
      rw [use, clear, Cache.lookup?_empty] at h
      cases h
    | resolve p =>
      have hold (h : (after r (fresh s) uses).cache.lookup? q = some answer) :
          ∃ place p', Stands (uses ++ [Use.resolve p]) place p' ∧ p'.key = q.key ∧
            answer = (r (r.answers s
              (openings ((uses ++ [Use.resolve p]).take place))).2 p').answer := by
        rcases ih h with ⟨place, p', hstands, hkey, hanswer⟩
        rw [← hstands.opens.take_append [Use.resolve p]] at hanswer
        exact ⟨place, p', hstands.concat_resolve p, hkey, hanswer⟩
      rcases use_after_cases r s uses p with ⟨_, -, _, -, huse⟩ | ⟨hfresh, huse⟩
      · rw [huse] at h
        exact hold h
      · rw [huse, Cache.lookup?_store] at h
        split at h
        · next hkey =>
          rw [inner_after, Option.some.injEq] at h
          exact ⟨uses.length, p, stands_length hfresh, hkey, by rw [List.take_left, h]⟩
        · exact hold h

/-- Every query gets the stored answer that the cache has behind it. -/
theorem lookup?_use_resolve (r : Resolver σ) (s : Cached σ) (q : Query) :
    (s.use r (.resolve q)).2.cache.lookup? q = (s.use r (.resolve q)).1 := by
  cases h : s.cache.lookup? q with
  | some answer => rw [use_of_hit h, h]
  | none => rw [use_of_miss h, Cache.lookup?_store, if_pos rfl]

/-- What a resolver behind a cache has returned, asked and kept after some uses. -/
structure Remembers (r : Resolver σ) (s : σ) (uses : List Use) : Prop where
  /-- Every query gets what was said to the first with its key since the cache was cleared. -/
  answer : ∀ n q, uses[n]? = some (.resolve q) →
    ∃ place p, Stands (uses.take (n + 1)) place p ∧ p.key = q.key ∧
      (returned r (fresh s) uses)[n]? =
        some (some (r (r.answers s (openings (uses.take place))).2 p).answer)
  /-- Those first queries are all that the resolver behind the cache is asked. -/
  asked : (after r.recorded (fresh (s, [])) uses).inner =
    ((r.answers s (openings uses)).2, openings uses)
  size : (after r (fresh s) uses).cache.size = ((recent uses).map Query.key).toFinset.card

theorem remembers_of_uses : Remembers r s uses where
  answer n q hq := by
    have htake : uses.take (n + 1) = uses.take n ++ [.resolve q] := by
      rw [List.take_add_one, hq, Option.toList_some]
    have hanswer : (returned r (fresh s) uses)[n]? =
        some ((after r (fresh s) (uses.take (n + 1))).cache.lookup? q) := by
      rw [getElem?_returned, hq, htake, after_concat, lookup?_use_resolve, Option.map_some]
    cases h : (after r (fresh s) (uses.take (n + 1))).cache.lookup? q with
    | none =>
      have hmem : q.key ∈ (recent (uses.take (n + 1))).map Query.key := by
        rw [htake, recent_concat_resolve]
        exact List.mem_map_of_mem (List.mem_append_right _ (List.mem_singleton_self q))
      exact absurd ((mem_after_iff r s _ _).2 hmem) (Cache.key_notMem_iff.2 h)
    | some answer =>
      rcases lookup?_after r s _ h with ⟨place, p, hstands, hkey, rfl⟩
      have hle : place ≤ n := by
        have := hstands.opens.lt_length
        rw [List.length_take] at this
        omega
      refine ⟨place, p, hstands, hkey, ?_⟩
      rw [hanswer, h, List.take_take, Nat.min_eq_left (Nat.le_succ_of_le hle)]
  asked := by rw [inner_after, r.answers_recorded, List.nil_append]
  size := Cache.size_eq_card fun k => by rw [mem_after_iff, List.mem_toFinset]

/-- A cache serves every query by the first with its key, and the key of a query is its token, its
kind, the type arguments of the declaring type if there is one, and the method arguments outside of
constructors. -/
theorem remembers_by_key (r : Resolver σ) (s : σ) (uses : List Use) :
    Remembers r s uses ∧
    (∀ p q : Query, p.key = q.key ↔
      p.token = q.token ∧ p.kind = q.kind ∧ p.context.genericContext = q.context.genericContext) ∧
    (∀ c d : MethodContext, c.genericContext = d.genericContext ↔
      c.visibleTypeArguments = d.visibleTypeArguments ∧
        (c.isConstructor = true ∧ d.isConstructor = true ∨
          c.isConstructor = false ∧ d.isConstructor = false ∧
            c.methodArguments = d.methodArguments)) ∧
    (∀ c : MethodContext,
      (c.declaringType = none → c.visibleTypeArguments = []) ∧
      (c.declaringType ≠ none → c.visibleTypeArguments = c.typeArguments)) ∧
    ∀ (c : MethodContext) (method declaring declaring' : Token),
      { c with method := method }.genericContext = c.genericContext ∧
      { c with declaringType := some declaring }.genericContext =
        { c with declaringType := some declaring' }.genericContext := by
  refine ⟨remembers_of_uses r s uses, fun p q => ?_, MethodContext.genericContext_eq_iff,
    fun c => ⟨fun h => ?_, fun h => ?_⟩, fun c method declaring declaring' => ⟨rfl, rfl⟩⟩
  · rw [Query.key, Query.key, CacheKey.mk.injEq]
  · rw [MethodContext.visibleTypeArguments, h]
    rfl
  · rw [MethodContext.visibleTypeArguments, if_pos (Option.isSome_iff_ne_none.2 h)]

end Cached
end CilCodec
