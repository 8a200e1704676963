import CilCodec.Resolver.Basic
import Std.Data.HashMap

/-!
# Remembered answers

A cache keeps the answer to every query it has seen, failures included. Two queries are the same to
it if they agree in token, operand kind and visible generic arguments. A resolver behind a cache is
asked only what the cache does not know. The main statements give the two steps of such a resolver:
a hit changes nothing, and a miss stores what the inner resolver says.
-/
namespace CilCodec

/-- What distinguishes queries in a cache. -/
structure CacheKey where
  token : Token
  kind : OperandKind
  generic : GenericContext
  deriving DecidableEq, Hashable

def Query.key (q : Query) : CacheKey := ⟨q.token, q.kind, q.context.genericContext⟩

abbrev Cache := Std.HashMap CacheKey Answer

namespace Cache

def empty : Cache := ∅

def lookup? (cache : Cache) (q : Query) : Option Answer := cache[q.key]?

def store (cache : Cache) (q : Query) (answer : Answer) : Cache := cache.insert q.key answer

theorem lookup?_empty (q : Query) : empty.lookup? q = none := by
  simp [empty, lookup?]

theorem lookup?_store (cache : Cache) (q r : Query) (answer : Answer) :
    (cache.store q answer).lookup? r = if q.key = r.key then some answer else cache.lookup? r := by
  simp [store, lookup?, Std.HashMap.getElem?_insert]

end Cache

structure Cached (σ : Type) where
  cache : Cache
  inner : σ

def Cached.fresh {σ : Type} (s : σ) : Cached σ := ⟨.empty, s⟩

def Cached.clear {σ : Type} (s : Cached σ) : Cached σ := { s with cache := .empty }

def Resolver.cached {σ : Type} (r : Resolver σ) : Resolver (Cached σ) := fun s q =>
  match s.cache.lookup? q with
  | some answer => ⟨answer, s, [.cacheHit q.token]⟩
  | none =>
    let reply := r s.inner q
    ⟨reply.answer, ⟨s.cache.store q reply.answer, reply.state⟩, reply.events⟩

theorem Resolver.cached_of_hit {σ : Type} (r : Resolver σ) {s : Cached σ} {q : Query}
    {answer : Answer} (h : s.cache.lookup? q = some answer) :
    r.cached s q = ⟨answer, s, [.cacheHit q.token]⟩ := by
  simp [cached, h]

theorem Resolver.cached_of_miss {σ : Type} (r : Resolver σ) {s : Cached σ} {q : Query}
    (h : s.cache.lookup? q = none) :
    r.cached s q =
      ⟨(r s.inner q).answer, ⟨s.cache.store q (r s.inner q).answer, (r s.inner q).state⟩,
        (r s.inner q).events⟩ := by
  simp [cached, h]

end CilCodec
