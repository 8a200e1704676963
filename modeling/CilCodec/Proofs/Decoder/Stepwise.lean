import CilCodec.Proofs.Decoder.Grammar
import CilCodec.Proofs.Decoder.Phase

/-!
# Reading without a decoder

One reader that takes instruction after instruction from one cursor, without a decoder around it. As
a loop over a body it lists what a decoder yields and what decoding the body gives. At the place of
any decoder it does once what the decoder does next, but at the end, where only the decoder knows
that nothing is missing.
-/
namespace CilCodec

variable {σ : Type} {data : List UInt8}

def Reader.outcome {α : Type} (r : Reader data α) (c : Cursor data) : Except Error α :=
  match r c with
  | .ok a _ => .ok a
  | .error e _ => .error e

namespace Instruction

/-- Reads instructions while there are bytes, up to the first that cannot be read. -/
def readAll (c : Cursor data) : List Instruction × Option Error :=
  if c.atEnd then ([], none)
  else
    match h : read .standard c with
    | .error e _ => ([], some e)
    | .ok i d =>
      have := Reader.remaining_lt_of_readInstruction h
      let others := readAll d
      (i :: others.1, others.2)
termination_by c.remaining

variable {c d : Cursor data} {i : Instruction} {e : Error}

theorem readAll_of_end (h : c.rest = []) : readAll c = ([], none) := by
  rw [readAll, if_pos (c.atEnd_iff_rest.2 h)]

theorem readAll_of_error (hrest : c.rest ≠ []) (h : read .standard c = .error e d) :
    readAll c = ([], some e) := by
  rw [readAll, if_neg fun hend => hrest (c.atEnd_iff_rest.1 hend)]
  split <;> simp_all

theorem readAll_of_ok (hrest : c.rest ≠ []) (h : read .standard c = .ok i d) :
    readAll c = (i :: (readAll d).1, (readAll d).2) := by
  rw [readAll, if_neg fun hend => hrest (c.atEnd_iff_rest.1 hend)]
  split <;> simp_all

theorem read_of_end (config : Config) (h : c.rest = []) :
    read config c = .error (.truncated c.position 1 0) c := by
  rw [read]
  exact Reader.adaptExcept_of_error _ (Reader.bind_of_error (Opcode.read_of_nil h))

end Instruction

open Instruction

/-- A reader at the start of a body can be moved to every place in it. -/
theorem Reader.advance_start {c : Cursor data} (h : c.position ≤ data.length) :
    advance c.position (.start data) = .ok () c := by
  have hholds : (Cursor.start data).holds c.position = true := (Cursor.holds_eq_true_iff _ _).2 h
  have hskip : (Cursor.start data).skip c.position = c := Cursor.ext (Nat.zero_add _)
  rw [advance, if_pos hholds, hskip]

structure Decoder.Plain (d : Decoder σ data) : Prop where
  config_eq : d.config = .standard
  scope_eq : d.scope = none

namespace Decoder.Plain

variable {d : Decoder σ data}

theorem next (h : d.Plain) : d.next.decoder.Plain :=
  ⟨d.config_next.trans h.config_eq, d.scope_next.trans h.scope_eq⟩

theorem resync (h : d.Plain) : d.resync.decoder.Plain :=
  ⟨d.config_resync.trans h.config_eq, d.scope_resync.trans h.scope_eq⟩

theorem behind {commands : List Command} (h : d.Plain)
    (hcommands : ∀ command ∈ commands, command = .next ∨ command = .resync) :
    (d.behind commands).Plain := by
  refine behind_induction (fun command hmem d' hd' => ?_) h
  rcases hcommands command hmem with rfl | rfl
  · exact hd'.next
  · exact hd'.resync

/-- In front of a byte a decoder yields what reading there gives, and goes where reading goes. -/
theorem next_eq (h : d.Plain) (hphase : d.phase = .positioned) (hrest : d.cursor.rest ≠ []) :
    d.next.result = some (Reader.outcome (read .standard) d.cursor) ∧
      d.next.decoder.cursor = Reader.final (read .standard) d.cursor := by
  cases hread : read .standard d.cursor with
  | ok i c =>
    rw [Reader.outcome, hread, Reader.final_of_ok hread]
    rw [← h.config_eq] at hread
    have hresolve := resolve_of_no_scope (d := { d with cursor := c }) h.scope_eq i
    rw [next_of_read_ok hphase hrest hread, hresolve]
    exact ⟨rfl, rfl⟩
  | error e c =>
    rw [Reader.outcome, hread, Reader.final_of_error hread]
    rw [← h.config_eq] at hread
    rw [next_of_read_error hphase hrest hread]
    exact ⟨rfl, rfl⟩

theorem drain_items (h : d.Plain) (hphase : d.phase = .positioned) :
    d.drain.items = yielded (readAll d.cursor).1 (readAll d.cursor).2 := by
  induction hn : d.budget using Nat.strongRecOn generalizing d with
  | ind n ih =>
    subst hn
    by_cases hrest : d.cursor.rest = []
    · rw [drain_of_none (next_of_end hphase hrest), readAll_of_end hrest]
      rfl
    · cases hread : read .standard d.cursor with
      | error e c =>
        rw [readAll_of_error hrest hread]
        rw [← h.config_eq] at hread
        rcases drain_of_read_error hphase hrest hread with ⟨_, hdrain⟩
        rw [hdrain]
        rfl
      | ok i c =>
        rw [readAll_of_ok hrest hread]
        rw [← h.config_eq] at hread
        have hresolve := resolve_of_no_scope (d := { d with cursor := c }) h.scope_eq i
        rcases drain_of_read_ok hphase hrest hread hresolve with ⟨hlt, _, hdrain⟩
        have hitems := ih _ hlt (d := { d with cursor := c }) ⟨h.config_eq, h.scope_eq⟩ hphase rfl
        rw [hdrain, Run.after, hitems]
        rfl

/-- A reader moved to where a decoder is positioned does what the decoder does next. -/
theorem exists_reader (h : d.Plain) (hphase : d.phase = .positioned)
    (hle : d.position ≤ data.length) :
    ∃ c, Reader.advance d.position (.start data) = .ok () c ∧
      (d.position < data.length →
        d.next.result = some (Reader.outcome (read .standard) c) ∧
          d.next.decoder.position = (Reader.final (read .standard) c).position) ∧
      (d.position = data.length → d.next.result = none ∧
        Reader.outcome (read .standard) c = .error (.truncated d.position 1 0)) := by
  have hend := position_eq_length_iff hle
  refine ⟨d.cursor, Reader.advance_start hle, fun hlt => ?_, fun hlength => ?_⟩
  · have hrest : d.cursor.rest ≠ [] := fun hnil => Nat.ne_of_lt hlt (hend.2 hnil)
    rcases h.next_eq hphase hrest with ⟨hresult, hcursor⟩
    exact ⟨hresult, congrArg Cursor.position hcursor⟩
  · have hrest := hend.1 hlength
    rw [next_of_end hphase hrest, Reader.outcome, read_of_end _ hrest]
    exact ⟨rfl, rfl⟩

end Decoder.Plain

/-- Reading instruction after instruction, taking items from a decoder and decoding the whole body
give the same. A reader that is moved to where a decoder is positioned reads there what the decoder
yields next and goes as far, but at the end it misses a byte where the decoder yields nothing. -/
theorem readAll_eq_items (data : List UInt8) :
    items data = yielded (readAll (.start data)).1 (readAll (.start data)).2 ∧
      decode data = (readAll (.start data)).2.elim (.ok (readAll (.start data)).1) .error ∧
      ∀ commands : List Command, (∀ command ∈ commands, command = .next ∨ command = .resync) →
        let d := (Decoder.start data (none : Option (Scope Unit)) ()).behind commands
        d.phase = .positioned → ∃ c, Reader.advance d.position (.start data) = .ok () c ∧
          (d.position < data.length →
            d.next.result = some (Reader.outcome (read .standard) c) ∧
              d.next.decoder.position = (Reader.final (read .standard) c).position) ∧
          (d.position = data.length → d.next.result = none ∧
            Reader.outcome (read .standard) c = .error (.truncated d.position 1 0)) := by
  have hstart : (Decoder.start data (none : Option (Scope Unit)) ()).Plain := ⟨rfl, rfl⟩
  have hitems : items data = yielded (readAll (.start data)).1 (readAll (.start data)).2 :=
    hstart.drain_items rfl
  refine ⟨hitems, ?_, ?_⟩
  · rw [decode_eq_collect, hitems, collect_yielded]
  · intro commands hcommands d hphase
    exact (hstart.behind hcommands).exists_reader hphase
      (Decoder.Consistent.behind_start data _ _ _).position_le

end CilCodec
