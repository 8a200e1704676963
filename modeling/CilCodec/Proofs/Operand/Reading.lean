import CilCodec.Operand.Reader
import CilCodec.Proofs.Operand.Spelling

/-!
# Reading operands exactly

What reading an operand does at every cursor. In front of a spelling the reader takes that spelling
and nothing else; where the bytes end too early it says how many the operand needs and how many
there are, and stands where it was or, for the entries of a jump table, behind their count.
-/
namespace CilCodec
open ScalarType

variable {data : List UInt8} {kind : OperandKind} {x : Operand} {w : List UInt8}

namespace Operand

/-- The loop over a jump table puts the entries behind those that it already has. -/
theorem readDeltas_of_rest (deltas : List Int32) (earlier : List Int32) {c : Cursor data}
    {after : List UInt8} (h : c.rest = deltas.flatMap (encode int32) ++ after) :
    readDeltas deltas.length earlier c =
      .ok (earlier.reverse ++ deltas) (c.skip (4 * deltas.length)) := by
  induction deltas generalizing earlier c with
  | nil =>
    rw [List.append_nil]
    change EStateM.Result.ok earlier.reverse c = _
    rw [List.length_nil, Nat.mul_zero, Cursor.skip_zero]
  | cons delta deltas ih =>
    rw [List.flatMap_cons, List.append_assoc] at h
    have hread := Reader.read_encode (t := .int32) h
    have hrest := Cursor.rest_skip_of_rest h
    rw [length_encode] at hrest
    rw [List.length_cons, readDeltas, Reader.bind_of_ok hread, ih _ hrest, Cursor.skip_skip]
    have hskip : width int32 + 4 * deltas.length = 4 * (deltas.length + 1) := by
      change 4 + 4 * deltas.length = _
      omega
    rw [List.reverse_cons, List.append_assoc, List.singleton_append, hskip]

/-- Reads the count of a jump table and, if the bytes behind it can hold so many entries, goes on
with them. -/
def readTableBy (readEntries : (count : Nat) → Reader data (List Int32)) :
    Reader data (List Int32) := do
  let start ← get
  let count ← Reader.read .uint32
  let entries ← get
  let size := Word.saturated (4 * count.toNat)
  if entries.holds size then
    readEntries count.toNat
  else
    throw (.truncated start.position (Word.saturated (size + 4)) (entries.remaining + 4))

def tableCount (data : List UInt8) (offset : Nat) : Nat :=
  UInt32.toNat (valueAt .uint32 data offset)

theorem tableCount_lt (data : List UInt8) (offset : Nat) : tableCount data offset < UInt32.size :=
  UInt32.toNat_lt _

theorem readTable_eq : (readTable : Reader data (List Int32)) =
    readTableBy fun count => readDeltas count [] := rfl

/-- The sizes of all tables are words, so that none is saturated. -/
theorem saturated_tableSize {count : Nat} (h : count < UInt32.size) :
    Word.saturated (4 * count) = 4 * count ∧
      Word.saturated (Word.saturated (4 * count) + 4) = 4 + 4 * count := by
  have hlt : count < 0x100000000 := h
  have hrange : Word.range = 0x10000000000000000 := rfl
  have hsize : Word.saturated (4 * count) = 4 * count := Word.saturated_of_lt (by omega)
  refine ⟨hsize, ?_⟩
  rw [hsize, Word.saturated_of_lt (by omega), Nat.add_comm]

theorem readTableBy_of_short (readEntries : Nat → Reader data (List Int32)) {c : Cursor data}
    (h : c.remaining < 4) :
    readTableBy readEntries c = .error (.truncated c.position 4 c.remaining) c := by
  rw [readTableBy, Reader.get_bind]
  exact Reader.bind_of_error (Reader.read_of_lt .uint32 h)

/-- Behind a count the reader goes on exactly if that many entries are left. -/
theorem readTableBy_of_count (readEntries : Nat → Reader data (List Int32)) {c : Cursor data}
    (h : 4 ≤ c.remaining) :
    readTableBy readEntries c =
      if 4 + 4 * tableCount data c.position ≤ c.remaining then
        readEntries (tableCount data c.position) (c.skip 4)
      else
        .error (.truncated c.position (4 + 4 * tableCount data c.position) c.remaining)
          (c.skip 4) := by
  have hread : Reader.read .uint32 c = .ok (valueAt .uint32 data c.position) (c.skip 4) :=
    Reader.read_eq_valueAt .uint32 h
  have hall : (c.skip 4).remaining + 4 = c.remaining := by
    rw [Cursor.remaining_skip]
    omega
  rcases saturated_tableSize (tableCount_lt data c.position) with ⟨hsize, hneeded⟩
  rw [readTableBy, Reader.get_bind, Reader.bind_of_ok hread, Reader.get_bind, ← tableCount,
    hneeded, hall, hsize]
  by_cases hle : 4 + 4 * tableCount data c.position ≤ c.remaining
  · rw [if_pos hle, if_pos ((Cursor.holds_eq_true_iff _ _).2 (by omega))]
  · have hholds : ¬ (c.skip 4).holds (4 * tableCount data c.position) = true := by
      rw [Cursor.holds_eq_true_iff]
      omega
    rw [if_neg hle, if_neg hholds]
    rfl

theorem readTable_of_short {c : Cursor data} (h : c.remaining < 4) :
    readTable c = .error (.truncated c.position 4 c.remaining) c := by
  rw [readTable_eq, readTableBy_of_short _ h]

theorem readTable_of_count {c : Cursor data} {count entries : List UInt8}
    (hcount : count.length = 4) (h : c.rest = count ++ entries) :
    readTable c =
      if 4 * LittleEndian.value count ≤ entries.length then
        readDeltas (LittleEndian.value count) [] (c.skip 4)
      else
        .error (.truncated c.position (4 + 4 * LittleEndian.value count) c.remaining)
          (c.skip 4) := by
  have hremaining : c.remaining = 4 + entries.length := by
    rw [Cursor.remaining_of_rest h, hcount]
  have htake : c.rest.take (width .uint32) = count := by
    rw [h]
    exact List.take_left' hcount
  have hvalue : tableCount data c.position = LittleEndian.value count := by
    rw [tableCount, valueAt, ← c.rest_eq, htake, toNat_decode_uint32 count hcount]
  rw [readTable_eq, readTableBy_of_count _ (by omega), hvalue]
  simp only [hremaining, Nat.add_le_add_iff_left]

theorem readTable_of_spelling {c : Cursor data} {deltas : List Int32} {after : List UInt8}
    (hlt : deltas.length < UInt32.size)
    (h : c.rest = encode uint32 (UInt32.ofNat deltas.length) ++
      (deltas.flatMap (encode int32) ++ after)) :
    readTable c = .ok deltas (c.skip (4 + 4 * deltas.length)) := by
  have hcount : (encode uint32 (UInt32.ofNat deltas.length)).length = 4 := length_encode _ _
  have hvalue : LittleEndian.value (encode uint32 (UInt32.ofNat deltas.length)) = deltas.length := by
    rw [value_encode]
    exact toNat_ofNat_uint32 hlt
  have hrest := Cursor.rest_skip_of_rest h
  rw [hcount] at hrest
  rw [readTable_of_count hcount h, hvalue, if_pos, readDeltas_of_rest deltas [] hrest,
    Cursor.skip_skip]
  · rfl
  · rw [List.length_append, OperandForm.length_entries]
    omega

theorem read_of_spells {c : Cursor data} {after : List UInt8} (hx : kind.Spells x w)
    (h : c.rest = w ++ after) : read kind c = .ok x (c.skip w.length) := by
  cases hx with
  | none => exact congrArg _ (Cursor.skip_zero c).symm
  | token v hkind =>
    unfold read
    rw [OperandKind.form_of_isToken hkind, length_encode]
    exact Reader.bind_of_ok (Reader.read_encode (t := .uint32) h)
  | switch deltas hlt =>
    rw [List.append_assoc] at h
    rw [List.length_append, length_encode, OperandForm.length_entries]
    exact Reader.bind_of_ok (readTable_of_spelling hlt h)
  | _ =>
    rw [length_encode]
    exact Reader.bind_of_ok (Reader.read_encode h)

/-- Where the bytes end too early the reader names what is missing. Its cursor moves only over the
count of a jump table. -/
theorem read_of_lacks {c : Cursor data} {needed : Nat} (h : kind.Lacks c.rest needed) :
    read kind c = .error (.truncated c.position needed c.remaining)
      (if kind = .inlineSwitch ∧ 4 ≤ c.remaining then c.skip 4 else c) := by
  generalize hrest : c.rest = bytes at h
  have hremaining : c.remaining = bytes.length := congrArg List.length hrest
  cases h with
  | fixed hsize hlt =>
    rw [if_neg fun hswitch => by rw [hswitch.1] at hsize; cases hsize]
    rw [← kind.size?_form] at hsize
    unfold read
    cases hf : kind.form with
    | empty =>
      rw [hf, OperandForm.size?, Option.some.injEq] at hsize
      omega
    | scalar type wrap unwrap? law =>
      rw [hf, OperandForm.size?, Option.some.injEq] at hsize
      subst hsize
      exact Reader.bind_of_error (Reader.read_of_lt type (hremaining ▸ hlt))
    | table | absent => rw [hf] at hsize; cases hsize
  | count hlt =>
    rw [if_neg (by omega)]
    exact Reader.bind_of_error (readTable_of_short (hremaining ▸ hlt))
  | table count entries hcount hlt =>
    rw [List.length_append] at hremaining
    rw [if_pos ⟨rfl, by omega⟩]
    have htable := readTable_of_count hcount hrest
    rw [if_neg (by omega)] at htable
    exact Reader.bind_of_error htable

theorem read_inlinePhi (c : Cursor data) :
    read .inlinePhi c = .error (.unsupportedOperand c.position .inlinePhi) c := rfl

theorem spells_of_read {c d : Cursor data} (h : read kind c = .ok x d) :
    ∃ w after, kind.Spells x w ∧ c.rest = w ++ after ∧ d = c.skip w.length := by
  by_cases hkind : kind = .inlinePhi
  · subst hkind
    rw [read_inlinePhi] at h
    cases h
  · rcases OperandKind.frames_or_lacks hkind c.rest with ⟨w, after, hw, hrest⟩ | ⟨needed, hlacks⟩
    · rcases OperandKind.exists_spells_of_frames hw with ⟨y, hy⟩
      rw [read_of_spells hy hrest] at h
      cases h
      exact ⟨w, after, hy, hrest, rfl⟩
    · rw [read_of_lacks hlacks] at h
      cases h

end Operand
end CilCodec
