import CilCodec.Proofs.Bytes.Sequence

/-!
# Reading at machine words

Reading with an offset that is a machine word, whose sums wrap around, and with bytes that become a
value only where they are as many as its type is wide. No sum does wrap around and the bytes always
are, so that this is reading at the number that the word stands for, also past the end and up to the
last word. The main statement is about values of any types in any order.
-/
namespace CilCodec

/-- The bytes behind an offset, none where it is past the end. -/
def Word.left (length offset : UInt64) : UInt64 := if offset ≤ length then length - offset else 0

def Word.resultToNat {α : Type} : EStateM.Result Error UInt64 α → EStateM.Result Error Nat α
  | .ok a offset => .ok a offset.toNat
  | .error e offset => .error e offset.toNat

namespace ScalarType

/-- The value of bytes that are as many as the type is wide. -/
def decode? (t : ScalarType) (bytes : List UInt8) : Option t.Value :=
  if bytes.length = t.width then some (t.decode bytes) else none

/-- The offset behind a value, modulo the number of words. -/
def wordBehind (t : ScalarType) (offset : UInt64) : UInt64 := offset + UInt64.ofNat t.width

/-- Reads a value at an offset that is a machine word. -/
def readWordAt (t : ScalarType) (data : List UInt8) : EStateM Error UInt64 t.Value := fun offset =>
  let available := Word.left (UInt64.ofNat data.length) offset
  if available < UInt64.ofNat t.width then
    .error (.truncated offset.toNat t.width available.toNat) offset
  else
    match t.decode? (data.extract offset.toNat (t.wordBehind offset).toNat) with
    | some v => .ok v (t.wordBehind offset)
    | none => .error (.truncated offset.toNat t.width available.toNat) offset

structure WordExact (t : ScalarType) (data : List UInt8) (offset : UInt64) : Prop where
  resultToNat_eq : Word.resultToNat (t.readWordAt data offset) = t.readAt data offset.toNat
  /-- Where enough bytes are left, the offset behind the value is the exact sum and in the list. -/
  toNat_wordBehind : UInt64.ofNat t.width ≤ Word.left (UInt64.ofNat data.length) offset →
    (t.wordBehind offset).toNat = offset.toNat + t.width ∧
      (t.wordBehind offset).toNat ≤ data.length
  /-- There the bytes always become a value. -/
  decode?_eq_some : UInt64.ofNat t.width ≤ Word.left (UInt64.ofNat data.length) offset →
    t.decode? (data.extract offset.toNat (t.wordBehind offset).toNat) =
      some (t.valueAt data offset.toNat)

end ScalarType

theorem Word.toNat_left (length offset : UInt64) :
    (left length offset).toNat = length.toNat - offset.toNat := by
  unfold left
  split
  · next h => exact UInt64.toNat_sub_of_le length offset h
  · next h =>
    rw [UInt64.le_iff_toNat_le] at h
    change 0 = _
    omega

namespace ScalarType

variable {t : ScalarType} {data : List UInt8} {offset : UInt64}

theorem toNat_width (t : ScalarType) : (UInt64.ofNat t.width).toNat = t.width := by
  cases t <;> rfl

theorem width_le_left_iff (h : data.length < UInt64.size) :
    UInt64.ofNat t.width ≤ Word.left (UInt64.ofNat data.length) offset ↔
      offset.toNat + t.width ≤ data.length := by
  have hpos := t.width_pos
  rw [UInt64.le_iff_toNat_le, toNat_width, Word.toNat_left, UInt64.toNat_ofNat_of_lt' h]
  omega

theorem toNat_wordBehind (h : data.length < UInt64.size)
    (hle : offset.toNat + t.width ≤ data.length) :
    (t.wordBehind offset).toNat = offset.toNat + t.width := by
  have hlt : offset.toNat + t.width < 2 ^ 64 := Nat.lt_of_le_of_lt hle h
  rw [wordBehind, UInt64.toNat_add, toNat_width, Nat.mod_eq_of_lt hlt]

theorem decode?_extract {start : Nat} (hle : start + t.width ≤ data.length) :
    t.decode? (data.extract start (start + t.width)) = some (t.valueAt data start) := by
  have hlength : ((data.drop start).take t.width).length = t.width := by
    rw [List.length_take, List.length_drop]
    omega
  rw [List.extract_eq_take_drop, Nat.add_sub_cancel_left, decode?, if_pos hlength, valueAt]

/-- Reading at a word is reading at its number. -/
theorem resultToNat_readWordAt (h : data.length < UInt64.size) (t : ScalarType) (offset : UInt64) :
    Word.resultToNat (t.readWordAt data offset) = t.readAt data offset.toNat := by
  by_cases hle : offset.toNat + t.width ≤ data.length
  · have hleft := (width_le_left_iff (t := t) h).2 hle
    rw [(t.readExact data offset.toNat).ok hle, readWordAt, if_neg (UInt64.not_lt.2 hleft),
      toNat_wordBehind h hle, decode?_extract hle]
    change EStateM.Result.ok _ (t.wordBehind offset).toNat = _
    rw [toNat_wordBehind h hle]
  · have hleft : ¬ UInt64.ofNat t.width ≤ Word.left (UInt64.ofNat data.length) offset :=
      fun hleft => hle ((width_le_left_iff h).1 hleft)
    rw [(t.readExact data offset.toNat).error (Nat.not_le.1 hle), readWordAt,
      if_pos (UInt64.not_le.1 hleft), Word.toNat_left, UInt64.toNat_ofNat_of_lt' h]
    rfl

theorem wordExact (h : data.length < UInt64.size) (t : ScalarType) (offset : UInt64) :
    t.WordExact data offset where
  resultToNat_eq := resultToNat_readWordAt h t offset
  toNat_wordBehind hleft := by
    have hle := (width_le_left_iff h).1 hleft
    rw [ScalarType.toNat_wordBehind h hle]
    exact ⟨rfl, hle⟩
  decode?_eq_some hleft := by
    have hle := (width_le_left_iff h).1 hleft
    rw [ScalarType.toNat_wordBehind h hle, decode?_extract hle]

end ScalarType

namespace Scalar

variable {data : List UInt8}

theorem resultToNat_readAll (h : data.length < UInt64.size) (types : List ScalarType)
    (offset : UInt64) :
    Word.resultToNat (readAll (fun t => t.readWordAt data) types offset) =
      readAll (fun t => t.readAt data) types offset.toNat := by
  induction types generalizing offset with
  | nil => rfl
  | cons t types ih =>
    have hread := ScalarType.resultToNat_readWordAt h t offset
    cases hword : t.readWordAt data offset with
    | error e s =>
      rw [hword] at hread
      rw [readAll_cons_of_error hword, readAll_cons_of_error hread.symm]
      rfl
    | ok v s =>
      rw [hword] at hread
      rw [readAll_cons_of_ok hword, readAll_cons_of_ok hread.symm, ← ih s]
      cases readAll (fun t => t.readWordAt data) types s <;> rfl

/-- Values of any types are read back from where they were written, and what was read is written as
the bytes it was read from. A value has as many bytes as its type is wide, the least significant
first. Every single read succeeds or fails by the exact sum of its offset and width, at numbers and
at machine words alike. -/
theorem written_and_read_exactly (buffer data : List UInt8) (xs : List Scalar)
    (types : List ScalarType) (h : data.length < UInt64.size) :
    readAll (fun t => t.readAt (writeAll buffer xs)) (xs.map type) buffer.length =
        .ok xs (writeAll buffer xs).length ∧
      (∀ start ys stop, readAll (fun t => t.readAt data) types start = .ok ys stop →
        ys.map type = types ∧ start ≤ stop ∧ writeAll [] ys = data.extract start stop) ∧
      (∀ x : Scalar, x.bytes.length = x.type.width ∧ ∀ i < x.type.width,
        x.bytes[i]? = some (UInt8.ofNat (x.type.toBits x.value / LittleEndian.range i))) ∧
      (∀ (t : ScalarType) (offset : Nat), t.ReadExact data offset) ∧
      (∀ (t : ScalarType) (offset : UInt64), t.WordExact data offset) ∧
      ∀ offset : UInt64, Word.resultToNat (readAll (fun t => t.readWordAt data) types offset) =
        readAll (fun t => t.readAt data) types offset.toNat := by
  refine ⟨?_, ?_, fun x => ?_, fun t offset => t.readExact data offset,
    fun t offset => t.wordExact h offset, resultToNat_readAll h types⟩
  · have hread := readAll_of_written buffer [] xs
    rw [List.append_nil, ← List.length_append, ← writeAll_eq] at hread
    exact hread
  · intro start ys stop hread
    rw [writeAll_eq, List.nil_append]
    exact written_of_readAll hread
  · exact ⟨x.type.length_encode x.value, fun i hi => x.type.getElem?_encode x.value hi⟩

/-- A signalling NaN, a negative number and a negative zero behind another byte, and a read from the
last of all words. -/
theorem written_and_read_exactly_nan :
    let xs : List Scalar := [⟨.float32, 0x7FA00001⟩, ⟨.int16, -2⟩, ⟨.float64, 0x8000000000000000⟩]
    let data := writeAll [0xAA] xs
    data.length < UInt64.size ∧
      data = [0xAA, 0x01, 0, 0xA0, 0x7F, 0xFE, 0xFF, 0, 0, 0, 0, 0, 0, 0, 0x80] ∧
      readAll (fun t => t.readAt data) [.float32, .int16, .float64] 1 = .ok xs 15 ∧
      Word.resultToNat (ScalarType.uint64.readWordAt data 0xFFFFFFFFFFFFFFFF) =
        .error (.truncated 0xFFFFFFFFFFFFFFFF 8 0) 0xFFFFFFFFFFFFFFFF := by
  intro xs data
  have hlength : data.length < UInt64.size := by decide
  have hexact := written_and_read_exactly [0xAA] data xs [.float32, .int16, .float64] hlength
  have hleft : data.length - (0xFFFFFFFFFFFFFFFF : UInt64).toNat = 0 := by decide
  refine ⟨hlength, by decide, hexact.1, ?_⟩
  rw [(hexact.2.2.2.2.1 .uint64 0xFFFFFFFFFFFFFFFF).resultToNat_eq,
    ScalarType.readAt_of_lt .uint64 (by decide), hleft]
  rfl

end Scalar
end CilCodec
