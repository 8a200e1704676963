import CilCodec.Proofs.Instruction.Reading

/-!
# Instructions are told apart

Bytes begin with one instruction at most, and with none where they are rejected. Both come from
reading: the reader gives one answer at a cursor, and every spelling and every rejection of the
bytes there is that answer. The main statements say that a spelling is determined by any bytes that
begin with it, and a rejection by the bytes rejected.
-/
namespace CilCodec

/-- Any bytes stand at any offset of some list. -/
theorem Cursor.exists_at (start : Nat) (bytes : List UInt8) :
    ∃ data, ∃ c : Cursor data, c.position = start ∧ c.rest = bytes := by
  have hrest : bytes = (List.replicate start 0 ++ bytes).drop start := by
    rw [List.drop_left' List.length_replicate]
  exact ⟨List.replicate start 0 ++ bytes, ⟨start, bytes, hrest⟩, rfl, rfl⟩

namespace Instruction

variable {data : List UInt8} {config : Config} {o p : Opcode} {x y : Operand}
  {w v after : List UInt8} {limit : Option Nat} {start : Nat} {bytes : List UInt8} {e f : Error}

theorem read_of_unlimited {c : Cursor data} (hlimit : config.switchLimit = none)
    (hw : Spells o x w) (h : c.rest = w ++ after) :
    read config c = .ok (unresolved config c.position o x w.length) (c.skip w.length) := by
  cases hw with
  | intro ho hx =>
    rw [List.append_assoc] at h
    apply read_of_spells ho hx h
    rw [hlimit]
    exact fun count max => not_exceeds_none count max

theorem Spells.unique {behind : List UInt8} (hw : Spells o x w) (hv : Spells p y v)
    (h : w ++ after = v ++ behind) : o = p ∧ x = y ∧ w = v ∧ after = behind := by
  have hread : read .minimal (Cursor.start (w ++ after)) =
      .ok (unresolved .minimal 0 o x w.length) ((Cursor.start (w ++ after)).skip w.length) :=
    read_of_unlimited rfl hw rfl
  rw [read_of_unlimited rfl hv h] at hread
  injection hread with hinstruction
  injection hinstruction with _ hsize hopcode hoperand
  rcases List.append_inj h hsize.symm with ⟨hbytes, hafter⟩
  exact ⟨hopcode.symm, hoperand.symm, hbytes, hafter⟩

theorem WellFormed.unique {behind : List UInt8} (hw : WellFormed w) (hv : WellFormed v)
    (h : w ++ after = v ++ behind) : w = v ∧ after = behind := by
  rcases wellFormed_iff.1 hw with ⟨o, x, hw⟩
  rcases wellFormed_iff.1 hv with ⟨p, y, hv⟩
  exact (hw.unique hv h).2.2

theorem WellFormed.length_pos (h : WellFormed w) : 0 < w.length := by
  rcases wellFormed_iff.1 h with ⟨o, x, h⟩
  exact h.length_pos

namespace Rejects

theorem unique (he : Rejects limit start bytes e) (hf : Rejects limit start bytes f) : e = f := by
  rcases Cursor.exists_at start bytes with ⟨data, c, rfl, rfl⟩
  have hlimit : (Config.mk false false limit).switchLimit = limit := rfl
  rw [← hlimit] at he hf
  rcases read_of_rejects he with ⟨c', hc⟩
  rcases read_of_rejects hf with ⟨d', hd⟩
  rw [hc] at hd
  injection hd

theorem not_wellFormed (he : Rejects none start bytes e) (h : bytes = w ++ after) :
    ¬ WellFormed w := by
  intro hw
  rcases wellFormed_iff.1 hw with ⟨o, x, hw⟩
  rcases Cursor.exists_at start bytes with ⟨data, c, rfl, rfl⟩
  have hlimit : Config.minimal.switchLimit = none := rfl
  have hread := read_of_unlimited hlimit hw h
  rw [← hlimit] at he
  rcases read_of_rejects he with ⟨d, hd⟩
  rw [hd] at hread
  cases hread

end Rejects

theorem exists_rejects (start : Nat) (h : ∀ w after, bytes = w ++ after → ¬ WellFormed w) :
    ∃ e, Rejects none start bytes e := by
  rcases spells_or_rejects none start bytes with
    ⟨o, x, head, tail, after, ho, hx, hbytes, -⟩ | he
  · rw [← List.append_assoc] at hbytes
    exact absurd (wellFormed_iff.2 ⟨o, x, .intro ho hx⟩) (h _ _ hbytes)
  · exact he

end Instruction
end CilCodec
