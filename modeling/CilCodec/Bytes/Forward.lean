import CilCodec.Bytes.Cursor

/-!
# Readers move forward

A reader leaves its cursor at the same byte or a later one and never past the end, whether it
succeeds or fails. The main statements give this for the basic readers and for readers run one after
the other.
-/
namespace CilCodec

variable {data : List UInt8} {α β : Type}

/-- One cursor can be moved forward over bytes that exist to become the other. -/
def Cursor.Reaches (c d : Cursor data) : Prop := ∃ n ≤ c.remaining, d = c.skip n

namespace Cursor.Reaches

theorem refl (c : Cursor data) : c.Reaches c := ⟨0, Nat.zero_le _, rfl⟩

theorem skip {c : Cursor data} {n : Nat} (h : n ≤ c.remaining) : c.Reaches (c.skip n) := ⟨n, h, rfl⟩

theorem trans {c d e : Cursor data} (hcd : c.Reaches d) (hde : d.Reaches e) : c.Reaches e := by
  obtain ⟨m, hm, rfl⟩ := hcd
  obtain ⟨n, hn, rfl⟩ := hde
  rw [Cursor.remaining_skip] at hn
  exact ⟨m + n, by omega, Cursor.ext (by simp; omega)⟩

theorem position_le {c d : Cursor data} (h : c.Reaches d) : c.position ≤ d.position := by
  obtain ⟨n, -, rfl⟩ := h
  exact Nat.le_add_right _ _

theorem position_le_length {c d : Cursor data} (h : c.Reaches d)
    (hc : c.position ≤ data.length) : d.position ≤ data.length := by
  obtain ⟨n, hn, rfl⟩ := h
  rw [c.remaining_eq] at hn
  rw [Cursor.position_skip]
  omega

theorem remaining_lt {c d : Cursor data} (h : c.Reaches d) (lt : c.position < d.position) :
    d.remaining < c.remaining := by
  obtain ⟨n, hn, rfl⟩ := h
  rw [Cursor.position_skip] at lt
  rw [Cursor.remaining_skip]
  omega

end Cursor.Reaches

namespace Reader

def final (r : Reader data α) (c : Cursor data) : Cursor data :=
  match r c with
  | .ok _ d | .error _ d => d

/-- From every cursor the reader moves forward or stays. -/
def Forward (r : Reader data α) : Prop := ∀ c : Cursor data, c.Reaches (final r c)

theorem Forward.of_ok {r : Reader data α} (h : Forward r) {c d : Cursor data} {a : α}
    (hr : r c = .ok a d) : c.Reaches d := by
  simpa [final, hr] using h c

theorem Forward.of_error {r : Reader data α} (h : Forward r) {c d : Cursor data} {e : Error}
    (hr : r c = .error e d) : c.Reaches d := by
  simpa [final, hr] using h c

theorem forward_pure (a : α) : Forward (pure a : Reader data α) := fun c => .refl c

theorem forward_throw (e : Error) : Forward (throw e : Reader data α) := fun c => .refl c

theorem forward_get : Forward (get : Reader data (Cursor data)) := fun c => .refl c

theorem forward_bind {r : Reader data α} {f : α → Reader data β} (hr : Forward r)
    (hf : ∀ a, Forward (f a)) : Forward (r >>= f) := by
  intro c
  have h := hr c
  simp only [final, bind, EStateM.bind] at h ⊢
  cases hc : r c with
  | ok a d =>
    rw [hc] at h
    exact h.trans (by simpa only [final] using hf a d)
  | error e d =>
    rw [hc] at h
    exact h

theorem forward_adaptExcept {r : Reader data α} (f : Error → Error) (hr : Forward r) :
    Forward (EStateM.adaptExcept f r) := by
  intro c
  have h := hr c
  simp only [final, EStateM.adaptExcept] at h ⊢
  cases hc : r c <;> simpa only [hc] using h

theorem forward_lookahead (r : Reader data α) : Forward (lookahead r) := by
  intro c
  simp only [final, lookahead]
  cases r c <;> exact .refl c

theorem forward_ofExcept (r : Except Error α) : Forward (ofExcept r : Reader data α) := by
  intro c
  cases r <;> exact .refl c

theorem forward_ensure (needed : Nat) : Forward (ensure needed : Reader data Unit) := by
  intro c
  by_cases h : needed ≤ c.remaining <;> simpa [final, ensure, h] using .refl c

theorem forward_advance (step : Nat) : Forward (advance step : Reader data Unit) := by
  intro c
  by_cases h : step ≤ c.remaining
  · simpa [final, advance, h] using .skip h
  · simpa [final, advance, h] using .refl c

theorem forward_peekByte : Forward (peekByte : Reader data UInt8) := by
  intro c
  unfold final peekByte
  cases c.rest <;> exact .refl c

theorem forward_read (t : ScalarType) : Forward (read t : Reader data t.Value) := by
  intro c
  by_cases h : t.width ≤ c.remaining
  · simpa [final, read, h] using .skip h
  · simpa [final, read, h] using .refl c

end Reader
end CilCodec
