import CilCodec.Decoder.Basic

/-!
# Runs of a decoder

A run takes the items of a body until no more come: up to the first failure (`drain`), or past every
failure that can be stepped over (`sweep`). The main statements unfold a run by its first step.
-/
namespace CilCodec

structure Run (σ : Type) (data : List UInt8) where
  items : List Item
  decoder : Decoder σ data
  events : List Event

namespace Run

variable {σ : Type} {data : List UInt8}

/-- The run with items and events in front of its own. -/
def after (r : Run σ data) (items : List Item) (events : List Event) : Run σ data :=
  ⟨items ++ r.items, r.decoder, events ++ r.events⟩

theorem after_after (r : Run σ data) (first items : List Item) (before events : List Event) :
    (r.after items events).after first before = r.after (first ++ items) (before ++ events) := by
  simp [after]

end Run

namespace Decoder

variable {σ : Type} {data : List UInt8}

theorem phase_next_of_error {d : Decoder σ data} {e : Error}
    (h : d.next.result = some (.error e)) :
    d.next.decoder.phase = .failed d.cursor e.isRecoverable ∧ d.phase = .positioned ∧
      0 < d.cursor.remaining := by
  unfold next at h ⊢
  split
  · next hp =>
    simp only [hp] at h
    by_cases hend : d.cursor.atEnd = true
    · simp [hend] at h
    · have hpos : 0 < d.cursor.remaining := by
        rw [Cursor.atEnd_eq_true_iff] at hend
        omega
      simp only [hend, Bool.false_eq_true, if_false] at h ⊢
      cases hr : Instruction.read d.config d.cursor with
      | ok i c => simp [hr] at h
      | error f c =>
        simp only [hr, Option.some.injEq, Except.error.injEq] at h
        simp [h, hp, hpos]
  · next hp =>
    split at h
    · exact absurd (by assumption) hp
    · simp at h

theorem resync_eq_true {d : Decoder σ data} (h : d.resync.result = true) :
    ∃ start, d.phase = .failed start true ∧ 0 < start.remaining ∧
      d.resync =
        ⟨true, { d with cursor := start.skip 1, phase := .positioned },
          [.resynchronised (start.position + 1)]⟩ := by
  unfold resync at h ⊢
  split at h
  · next start hp =>
    by_cases hle : 1 ≤ start.remaining
    · have hadv : Reader.advance 1 start = .ok () (start.skip 1) := by
        simp [Reader.advance, hle]
      exact ⟨start, hp, hle, by simp [hadv]⟩
    · simp [Reader.advance, hle] at h
  · simp at h

theorem budget_lt_of_next {d d' : Decoder σ data} {item : Item} {events : List Event}
    (h : d.next = ⟨some item, d', events⟩) : d'.budget < d.budget := by
  have := budget_next_lt (congrArg Step.result h)
  rwa [h] at this

/-- Stepping over the first byte of a failed instruction leaves fewer bytes than were in front of
that instruction. -/
theorem budget_lt_of_resync {d d' d'' : Decoder σ data} {e : Error} {events warned : List Event}
    (h : d.next = ⟨some (.error e), d', events⟩) (hr : d'.resync = ⟨true, d'', warned⟩) :
    d''.budget < d.budget := by
  obtain ⟨hphase, hp, hpos⟩ := phase_next_of_error (d := d) (e := e) (by rw [h])
  rw [h] at hphase
  obtain ⟨start, hfailed, -, heq⟩ := resync_eq_true (d := d') (by rw [hr])
  obtain rfl : d.cursor = start := by
    rw [hphase] at hfailed
    exact (Phase.failed.inj hfailed).1
  obtain rfl : _ = d'' := congrArg Step.decoder (heq.symm.trans hr)
  simp only [budget, hp, Cursor.remaining_skip]
  omega

/-- Takes items until none comes, behind earlier ones and their events, which are in reverse
order. -/
def drainAfter (items : List Item) (events : List Event) (d : Decoder σ data) : Run σ data :=
  match h : d.next with
  | ⟨none, d', more⟩ => ⟨items.reverse, d', events.reverse ++ more⟩
  | ⟨some item, d', more⟩ =>
    have := budget_lt_of_next h
    drainAfter (item :: items) (more.reverse ++ events) d'
termination_by d.budget

/-- Takes items until none comes. Behind a failure none does. -/
def drain (d : Decoder σ data) : Run σ data := drainAfter [] [] d

def sweepAfter (items : List Item) (events : List Event) (d : Decoder σ data) : Run σ data :=
  match h : d.next with
  | ⟨none, d', more⟩ => ⟨items.reverse, d', events.reverse ++ more⟩
  | ⟨some (.ok i), d', more⟩ =>
    have := budget_lt_of_next h
    sweepAfter (.ok i :: items) (more.reverse ++ events) d'
  | ⟨some (.error e), d', more⟩ =>
    match hr : d'.resync with
    | ⟨false, d'', warned⟩ =>
      ⟨(.error e :: items).reverse, d'', events.reverse ++ (more ++ warned)⟩
    | ⟨true, d'', warned⟩ =>
      have := budget_lt_of_resync h hr
      sweepAfter (.error e :: items) ((more ++ warned).reverse ++ events) d''
termination_by d.budget

/-- Takes items until none comes, and steps over the first byte of every failed instruction that
allows it. -/
def sweep (d : Decoder σ data) : Run σ data := sweepAfter [] [] d

private theorem drainAfter_of_none {d d' : Decoder σ data} {more : List Event}
    (h : d.next = ⟨none, d', more⟩) (items : List Item) (events : List Event) :
    drainAfter items events d = ⟨items.reverse, d', events.reverse ++ more⟩ := by
  rw [drainAfter]
  split <;> simp_all

private theorem drainAfter_of_some {d d' : Decoder σ data} {item : Item} {more : List Event}
    (h : d.next = ⟨some item, d', more⟩) (items : List Item) (events : List Event) :
    drainAfter items events d = drainAfter (item :: items) (more.reverse ++ events) d' := by
  rw [drainAfter]
  split <;> simp_all

private theorem sweepAfter_of_none {d d' : Decoder σ data} {more : List Event}
    (h : d.next = ⟨none, d', more⟩) (items : List Item) (events : List Event) :
    sweepAfter items events d = ⟨items.reverse, d', events.reverse ++ more⟩ := by
  rw [sweepAfter]
  split <;> simp_all

private theorem sweepAfter_of_ok {d d' : Decoder σ data} {i : Instruction} {more : List Event}
    (h : d.next = ⟨some (.ok i), d', more⟩) (items : List Item) (events : List Event) :
    sweepAfter items events d = sweepAfter (.ok i :: items) (more.reverse ++ events) d' := by
  rw [sweepAfter]
  split <;> simp_all

private theorem sweepAfter_of_stuck {d d' d'' : Decoder σ data} {e : Error}
    {more warned : List Event} (h : d.next = ⟨some (.error e), d', more⟩)
    (hr : d'.resync = ⟨false, d'', warned⟩) (items : List Item) (events : List Event) :
    sweepAfter items events d =
      ⟨(.error e :: items).reverse, d'', events.reverse ++ (more ++ warned)⟩ := by
  rw [sweepAfter]
  split
  · simp_all
  · simp_all
  · next f e' more' h' =>
    obtain ⟨rfl, rfl, rfl⟩ : f = e ∧ e' = d' ∧ more' = more := by simp_all
    split <;> simp_all

private theorem sweepAfter_of_resync {d d' d'' : Decoder σ data} {e : Error}
    {more warned : List Event} (h : d.next = ⟨some (.error e), d', more⟩)
    (hr : d'.resync = ⟨true, d'', warned⟩) (items : List Item) (events : List Event) :
    sweepAfter items events d =
      sweepAfter (.error e :: items) ((more ++ warned).reverse ++ events) d'' := by
  rw [sweepAfter]
  split
  · simp_all
  · simp_all
  · next f e' more' h' =>
    obtain ⟨rfl, rfl, rfl⟩ : f = e ∧ e' = d' ∧ more' = more := by simp_all
    split <;> simp_all

theorem drainAfter_eq (items : List Item) (events : List Event) (d : Decoder σ data) :
    drainAfter items events d = d.drain.after items.reverse events.reverse := by
  induction hn : d.budget using Nat.strongRecOn generalizing d items events with
  | ind n ih =>
    subst hn
    rcases h : d.next with ⟨_ | item, d', more⟩
    · simp [drain, drainAfter_of_none h, Run.after]
    · have hlt := budget_lt_of_next h
      rw [drain, drainAfter_of_some h, drainAfter_of_some h, ih _ hlt _ _ _ rfl,
        ih _ hlt _ _ d' rfl, Run.after_after]
      simp

theorem sweepAfter_eq (items : List Item) (events : List Event) (d : Decoder σ data) :
    sweepAfter items events d = d.sweep.after items.reverse events.reverse := by
  induction hn : d.budget using Nat.strongRecOn generalizing d items events with
  | ind n ih =>
    subst hn
    rcases h : d.next with ⟨_ | (e | i), d', more⟩
    · simp [sweep, sweepAfter_of_none h, Run.after]
    · rcases hr : d'.resync with ⟨_ | _, d'', warned⟩
      · simp [sweep, sweepAfter_of_stuck h hr, Run.after]
      · have hlt := budget_lt_of_resync h hr
        rw [sweep, sweepAfter_of_resync h hr, sweepAfter_of_resync h hr, ih _ hlt _ _ _ rfl,
          ih _ hlt _ _ d'' rfl, Run.after_after]
        simp
    · have hlt := budget_lt_of_next h
      rw [sweep, sweepAfter_of_ok h, sweepAfter_of_ok h, ih _ hlt _ _ _ rfl,
        ih _ hlt _ _ d' rfl, Run.after_after]
      simp

theorem drain_of_none {d d' : Decoder σ data} {more : List Event}
    (h : d.next = ⟨none, d', more⟩) : d.drain = ⟨[], d', more⟩ := by
  simp [drain, drainAfter_of_none h]

theorem drain_of_some {d d' : Decoder σ data} {item : Item} {more : List Event}
    (h : d.next = ⟨some item, d', more⟩) : d.drain = d'.drain.after [item] more := by
  rw [drain, drainAfter_of_some h, drainAfter_eq]
  simp

theorem sweep_of_none {d d' : Decoder σ data} {more : List Event}
    (h : d.next = ⟨none, d', more⟩) : d.sweep = ⟨[], d', more⟩ := by
  simp [sweep, sweepAfter_of_none h]

theorem sweep_of_ok {d d' : Decoder σ data} {i : Instruction} {more : List Event}
    (h : d.next = ⟨some (.ok i), d', more⟩) : d.sweep = d'.sweep.after [.ok i] more := by
  rw [sweep, sweepAfter_of_ok h, sweepAfter_eq]
  simp

theorem sweep_of_stuck {d d' d'' : Decoder σ data} {e : Error} {more warned : List Event}
    (h : d.next = ⟨some (.error e), d', more⟩) (hr : d'.resync = ⟨false, d'', warned⟩) :
    d.sweep = ⟨[.error e], d'', more ++ warned⟩ := by
  simp [sweep, sweepAfter_of_stuck h hr]

theorem sweep_of_resync {d d' d'' : Decoder σ data} {e : Error} {more warned : List Event}
    (h : d.next = ⟨some (.error e), d', more⟩) (hr : d'.resync = ⟨true, d'', warned⟩) :
    d.sweep = d''.sweep.after [.error e] (more ++ warned) := by
  rw [sweep, sweepAfter_of_resync h hr, sweepAfter_eq]
  simp

end Decoder
end CilCodec
