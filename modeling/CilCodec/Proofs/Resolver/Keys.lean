import CilCodec.Resolver.Cache
import Mathlib.Data.Finset.Card

/-!
# Keys of a cache

The keys that a cache has an entry for. The main statement counts them.
-/
namespace CilCodec.Cache

variable {cache : Cache} {k : CacheKey}

theorem not_mem_empty : k ∉ empty := Std.HashMap.not_mem_empty

theorem key_mem_iff {q : Query} : q.key ∈ cache ↔ ∃ answer, cache.lookup? q = some answer := by
  rw [Std.HashMap.mem_iff_isSome_getElem?, Option.isSome_iff_exists]
  rfl

theorem key_notMem_iff {q : Query} : q.key ∉ cache ↔ cache.lookup? q = none := by
  rw [key_mem_iff, not_exists, Option.eq_none_iff_forall_ne_some]

theorem mem_store_iff {q : Query} {answer : Answer} :
    k ∈ cache.store q answer ↔ q.key = k ∨ k ∈ cache := by
  rw [store, Std.HashMap.mem_insert, beq_iff_eq]

theorem size_eq_card {keys : Finset CacheKey} (h : ∀ k, k ∈ cache ↔ k ∈ keys) :
    cache.size = keys.card := by
  have hnodup : cache.keys.Nodup := by
    refine cache.distinct_keys.imp fun hne heq => ?_
    rw [heq, beq_self_eq_true] at hne
    cases hne
  have hkeys : cache.keys.toFinset = keys := by
    ext k
    rw [List.mem_toFinset, Std.HashMap.mem_keys, h]
  rw [← Std.HashMap.length_keys, ← List.toFinset_card_of_nodup hnodup, hkeys]

end CilCodec.Cache
