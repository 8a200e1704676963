import CilCodec.Proofs.Operand.Reading

/-!
# Jump tables of any count

A jump table begins with a count that nobody has checked. It is read to its last entry, or refused
before its first entry is looked at, and the bytes that are left decide which. The main statement
holds at every cursor and for every count that four bytes can declare, so that no table that was read
has more entries than the body has room for.
-/
namespace CilCodec.Operand
open ScalarType

variable {data : List UInt8} {c : Cursor data}

def deltasAt (data : List UInt8) (offset count : Nat) : List Int32 :=
  (List.range count).map fun i => valueAt .int32 data (offset + 4 * i)

theorem deltasAt_succ (data : List UInt8) (offset count : Nat) :
    deltasAt data offset (count + 1) =
      deltasAt data offset count ++ [valueAt .int32 data (offset + 4 * count)] := by
  rw [deltasAt, List.range_succ, List.map_append]
  rfl

structure TableExact (c : Cursor data) : Prop where
  short : c.remaining < 4 →
    read .inlineSwitch c = .error (.truncated c.position 4 c.remaining) c
  count_lt : tableCount data c.position < UInt32.size
  /-- The sizes that are computed for a count of four bytes are the exact ones. -/
  sizes_exact : ∀ count < UInt32.size, Word.saturated (4 * count) = 4 * count ∧
    Word.saturated (Word.saturated (4 * count) + 4) = 4 + 4 * count
  refused : 4 ≤ c.remaining → c.remaining < 4 + 4 * tableCount data c.position →
    read .inlineSwitch c =
      .error (.truncated c.position (4 + 4 * tableCount data c.position) c.remaining) (c.skip 4)
  /-- The entries are read in a loop behind the check of the count. -/
  readTable_eq : (readTable : Reader data (List Int32)) =
    readTableBy fun count => readDeltas count []
  /-- A refusal is the same whatever would have been done with the entries. -/
  refused_unread : 4 ≤ c.remaining → c.remaining < 4 + 4 * tableCount data c.position →
    ∀ readEntries, readTableBy readEntries c =
      .error (.truncated c.position (4 + 4 * tableCount data c.position) c.remaining) (c.skip 4)
  accepted : 4 + 4 * tableCount data c.position ≤ c.remaining →
    read .inlineSwitch c =
      .ok (.switch (deltasAt data (c.position + 4) (tableCount data c.position)))
        (c.skip (4 + 4 * tableCount data c.position))
  /-- After any number of rounds the loop has the entries so far and stands in front of the next. -/
  rounds : 4 + 4 * tableCount data c.position ≤ c.remaining →
    ∀ i ≤ tableCount data c.position, readTable c =
      readDeltas (tableCount data c.position - i) (deltasAt data (c.position + 4) i).reverse
        (c.skip (4 + 4 * i))
  entry_read : 4 + 4 * tableCount data c.position ≤ c.remaining →
    ∀ i < tableCount data c.position, Reader.read .int32 (c.skip (4 + 4 * i)) =
      .ok (valueAt .int32 data (c.position + 4 + 4 * i)) (c.skip (4 + 4 * (i + 1)))
  /-- No table that was read has more entries than there is room for. -/
  bounded : ∀ {kind deltas d}, read kind c = .ok (.switch deltas) d →
    deltas.length ≤ (data.length - c.position - 4) / 4

theorem le_remaining_skip {m n : Nat} (h : m + n ≤ c.remaining) : n ≤ (c.skip m).remaining := by
  rw [Cursor.remaining_skip]
  omega

theorem read_entry {i count : Nat} (h : 4 * count ≤ c.remaining) (hi : i < count) :
    Reader.read .int32 (c.skip (4 * i)) =
      .ok (valueAt .int32 data (c.position + 4 * i)) (c.skip (4 * (i + 1))) := by
  have hle : 4 ≤ (c.skip (4 * i)).remaining := le_remaining_skip (by omega)
  rw [Reader.read_eq_valueAt .int32 hle, Cursor.skip_skip]
  rfl

/-- The loop invariant: with the first `i` entries in reverse order, the loop goes on in front of the
next. -/
theorem readDeltas_rounds {i count : Nat} (h : 4 * count ≤ c.remaining) (hi : i ≤ count) :
    readDeltas count [] c =
      readDeltas (count - i) (deltasAt data c.position i).reverse (c.skip (4 * i)) := by
  induction i with
  | zero =>
    rw [Nat.mul_zero, Cursor.skip_zero]
    rfl
  | succ i ih =>
    have hleft : count - i = count - (i + 1) + 1 := by omega
    rw [ih (by omega), hleft, readDeltas, Reader.bind_of_ok (read_entry h hi), deltasAt_succ,
      List.reverse_append]
    rfl

theorem readDeltas_of_le {count : Nat} (h : 4 * count ≤ c.remaining) :
    readDeltas count [] c = .ok (deltasAt data c.position count) (c.skip (4 * count)) := by
  rw [readDeltas_rounds h (Nat.le_refl count), Nat.sub_self, readDeltas]
  change EStateM.Result.ok (deltasAt data c.position count).reverse.reverse _ = _
  rw [List.reverse_reverse]

theorem length_le_of_read {kind : OperandKind} {deltas : List Int32} {d : Cursor data}
    (h : read kind c = .ok (.switch deltas) d) :
    deltas.length ≤ (data.length - c.position - 4) / 4 := by
  rcases spells_of_read h with ⟨w, after, hspells, hrest, -⟩
  have hremaining := Cursor.remaining_of_rest hrest
  rw [OperandKind.length_of_spells_switch hspells, c.remaining_eq] at hremaining
  omega

/-- Wherever a jump table is read, it is decided by its count and the bytes that are left. -/
theorem tableExact (c : Cursor data) : TableExact c where
  short h := Reader.bind_of_error (readTable_of_short h)
  count_lt := tableCount_lt data c.position
  sizes_exact _ := saturated_tableSize
  refused h hlt := by
    apply Reader.bind_of_error
    rw [readTable_eq, readTableBy_of_count _ h, if_neg (Nat.not_le.2 hlt)]
  readTable_eq := readTable_eq
  refused_unread h hlt readEntries := by
    rw [readTableBy_of_count _ h, if_neg (Nat.not_le.2 hlt)]
  accepted h := by
    apply Reader.bind_of_ok
    rw [readTable_eq, readTableBy_of_count _ (by omega), if_pos h,
      readDeltas_of_le (le_remaining_skip h), Cursor.skip_skip]
    rfl
  rounds h i hi := by
    rw [readTable_eq, readTableBy_of_count _ (by omega), if_pos h,
      readDeltas_rounds (le_remaining_skip h) hi, Cursor.skip_skip]
    rfl
  entry_read h i hi := by
    have hread := read_entry (le_remaining_skip h) hi
    rw [Cursor.skip_skip, Cursor.skip_skip] at hread
    exact hread
  bounded := length_le_of_read

-- The largest count of all, in front of two bytes.
example : read .inlineSwitch (.start [0xFF, 0xFF, 0xFF, 0xFF, 0, 0]) =
    .error (.truncated 0 0x400000000 6) (Cursor.skip (.start _) 4) := by
  rfl

end CilCodec.Operand
