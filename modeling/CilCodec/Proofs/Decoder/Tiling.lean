import CilCodec.Encoder
import CilCodec.Proofs.Decoder.Step

/-!
# Sweeps tile their bodies

What the items of a sweep say about the body, whatever the bytes, the configuration and the
resolver. Every instruction stands where the item before it stopped and encodes to its own bytes,
and every failure that was stepped over accounts for one byte. The main statement says that a sweep
covers the body to its end, or to the start of an instruction that no decoder steps over, and that
it takes at most one item for each byte.
-/
namespace CilCodec

/-- The items stand one behind the other, from the offset `start` to the offset `stop`. -/
inductive Tiles (data : List UInt8) : (start : Nat) → List Item → (stop : Nat) → Prop where
  | nil (offset : Nat) : Tiles data offset [] offset
  /-- An instruction covers its bytes, which are what encoding it gives. -/
  | instruction {i : Instruction} {items : List Item} {stop : Nat} :
      i.offset < i.next → i.next ≤ data.length →
      (Emit.instruction i).encode = .ok (data.extract i.offset i.next) →
      Tiles data i.next items stop → Tiles data i.offset (.ok i :: items) stop
  /-- A failure that was stepped over covers the first byte of the failed instruction. -/
  | skipped {e : Error} {start : Nat} {items : List Item} {stop : Nat} :
      e.offset? = some start → e.isRecoverable = true → start < data.length →
      Tiles data (start + 1) items stop → Tiles data start (.error e :: items) stop

/-- The run has tiled the body from the offset `start` on, until nothing was left of it or until an
instruction that could not be read and not be stepped over. -/
inductive Covers {σ : Type} {data : List UInt8} (start : Nat) (r : Run σ data) : Prop where
  | exhausted : r.decoder.phase = .exhausted → Tiles data start r.items data.length →
      Covers start r
  | failed {earlier : List Item} {e : Error} {stop : Cursor data} :
      r.items = earlier ++ [.error e] → r.decoder.phase = .failed stop false →
      e.isRecoverable = false → e.offset? = some stop.position → stop.position < data.length →
      Tiles data start earlier stop.position → Covers start r

variable {σ : Type} {data : List UInt8}

/-- Every item of a tiling has a byte of its own. -/
theorem Tiles.length_le {start stop : Nat} {items : List Item} (h : Tiles data start items stop) :
    start + items.length ≤ stop := by
  induction h with
  | nil offset => exact Nat.le_refl offset
  | instruction hlt _ _ _ ih =>
    rw [List.length_cons]
    omega
  | skipped _ _ _ _ ih =>
    rw [List.length_cons]
    omega

namespace Covers

variable {r : Run σ data}

theorem length_le (h : Covers 0 r) : r.items.length ≤ data.length := by
  cases h with
  | exhausted _ h =>
    have hle := h.length_le
    omega
  | failed hitems _ _ _ hstop h =>
    have hle := h.length_le
    rw [hitems, List.length_append, List.length_singleton]
    omega

theorem after_instruction {i : Instruction} {events : List Event} (hlt : i.offset < i.next)
    (hle : i.next ≤ data.length)
    (hencode : (Emit.instruction i).encode = .ok (data.extract i.offset i.next))
    (h : Covers i.next r) : Covers i.offset (r.after [.ok i] events) := by
  cases h with
  | exhausted hphase h => exact .exhausted hphase (.instruction hlt hle hencode h)
  | @failed earlier f stop hitems hphase hrec hoffset hstop h =>
    have hitems' : (r.after [.ok i] events).items = (.ok i :: earlier) ++ [.error f] := by
      rw [Run.after, hitems]
      rfl
    exact .failed hitems' hphase hrec hoffset hstop (.instruction hlt hle hencode h)

theorem after_skipped {e : Error} {start : Nat} {events : List Event}
    (hoffset : e.offset? = some start) (hrec : e.isRecoverable = true)
    (hlt : start < data.length) (h : Covers (start + 1) r) :
    Covers start (r.after [.error e] events) := by
  cases h with
  | exhausted hphase h => exact .exhausted hphase (.skipped hoffset hrec hlt h)
  | @failed earlier f stop hitems hphase hrec' hoffset' hstop h =>
    have hitems' : (r.after [.error e] events).items = (.error e :: earlier) ++ [.error f] := by
      rw [Run.after, hitems]
      rfl
    exact .failed hitems' hphase hrec' hoffset' hstop (.skipped hoffset hrec hlt h)

end Covers

namespace Decoder

theorem covers_sweep (d : Decoder σ data) (h : d.phase = .positioned)
    (hle : d.position ≤ data.length) : Covers d.position d.sweep := by
  -- The cursor can move back, so the induction is on the bytes in front of a positioned decoder.
  induction hn : d.budget using Nat.strongRecOn generalizing d with
  | ind n ih =>
    subst hn
    have hlength : d.position + d.cursor.rest.length = data.length :=
      Cursor.position_add_length hle
    rcases next_cases d h with ⟨hrest, hnext⟩ |
      ⟨o, x, w, after, resolution, s, events, hw, hrest, hnext, -⟩ |
      ⟨e, c, events, hrest, he, hnext⟩
    · rw [hrest, List.length_nil, Nat.add_zero] at hlength
      rw [sweep_of_none hnext, hlength]
      exact .exhausted rfl (.nil _)
    · have hpos := hw.length_pos
      have hencode : o.encode x = .ok (data.extract d.position (d.position + w.length)) := by
        rw [position, Cursor.extract_of_rest hrest]
        exact (Instruction.spells_iff_encode.1 hw).2
      have hfits : d.position + w.length ≤ data.length := by
        rw [hrest, List.length_append] at hlength
        omega
      have htail := ih _ (budget_lt_of_next hnext)
        { d with cursor := d.cursor.skip w.length, state := s } h hfits rfl
      rw [sweep_of_ok hnext]
      refine Covers.after_instruction
        (i := { Instruction.unresolved d.config d.position o x w.length with
          resolution := resolution }) ?_ hfits hencode htail
      exact Nat.lt_add_of_pos_right hpos
    · have hpos := List.length_pos_iff.2 hrest
      have hlt : d.position < data.length := by omega
      cases hrec : e.isRecoverable with
      | false =>
        rw [hrec] at hnext
        rw [sweep_of_stuck hnext (resync_of_stuck rfl)]
        exact .failed (List.nil_append [Except.error e]).symm rfl hrec he.offset?_eq hlt (.nil _)
      | true =>
        rw [hrec] at hnext
        have hresync := resync_of_failed (d := { d with cursor := c, phase := .failed d.cursor true })
          rfl hrest
        have htail := ih _ (budget_lt_of_resync hnext hresync)
          { d with cursor := d.cursor.skip 1, phase := .positioned } rfl hlt rfl
        rw [sweep_of_resync hnext hresync]
        exact Covers.after_skipped he.offset?_eq hrec hlt htail

/-- A sweep covers the body, and takes at most one item for each byte of it. -/
theorem sweep_start_covers (data : List UInt8) (config : Config) (scope : Option (Scope σ))
    (s : σ) :
    Covers 0 ((start data scope s).configure config).sweep ∧
      ((start data scope s).configure config).sweep.items.length ≤ data.length := by
  have h := covers_sweep ((start data scope s).configure config) rfl (Nat.zero_le _)
  exact ⟨h, h.length_le⟩

end Decoder
end CilCodec
