import CilCodec.Bytes.Cursor

/-!
# Reading what was written

A cursor in front of the bytes of a value reads that value and stands behind them. Any bytes in a
multiple of a width are the bytes of values, one after the other. Readers run in sequence are
opened by the outcome of the first.
-/
namespace CilCodec

def ScalarType.valueAt (t : ScalarType) (data : List UInt8) (offset : Nat) : t.Value :=
  t.decode ((data.drop offset).take t.width)

variable {data : List UInt8} {α β : Type}

theorem LittleEndian.getElem?_bytes {width n i : Nat} (hi : i < width) :
    (bytes width n)[i]? = some (UInt8.ofNat (n / range i)) := by
  induction width generalizing n i with
  | zero => exact absurd hi (Nat.not_lt_zero i)
  | succ width ih =>
    cases i with
    | zero => rw [range, Nat.div_one, bytes, List.getElem?_cons_zero]
    | succ i =>
      rw [bytes, List.getElem?_cons_succ, ih (Nat.lt_of_succ_lt_succ hi), Nat.div_div_eq_div_mul,
        range]

namespace Cursor

theorem remaining_of_rest {c : Cursor data} {w after : List UInt8} (h : c.rest = w ++ after) :
    c.remaining = w.length + after.length := by
  rw [remaining, h, List.length_append]

theorem rest_skip_of_rest {c : Cursor data} {w after : List UInt8} (h : c.rest = w ++ after) :
    (c.skip w.length).rest = after := by
  rw [rest_skip, h, List.drop_left]

theorem extract_of_rest {c : Cursor data} {w after : List UInt8} (h : c.rest = w ++ after) :
    data.extract c.position (c.position + w.length) = w := by
  rw [List.extract_eq_take_drop, ← c.rest_eq, h, Nat.add_sub_cancel_left, List.take_left]

theorem position_add_length {c : Cursor data} (h : c.position ≤ data.length) :
    c.position + c.rest.length = data.length := by
  rw [c.rest_eq, List.length_drop]
  omega

theorem skip_skip (c : Cursor data) (m n : Nat) : (c.skip m).skip n = c.skip (m + n) := by
  apply Cursor.ext
  simp only [position_skip]
  omega

theorem skip_zero (c : Cursor data) : c.skip 0 = c := by
  apply Cursor.ext
  rw [position_skip, Nat.add_zero]

theorem atEnd_iff_rest (c : Cursor data) : c.atEnd = true ↔ c.rest = [] := by
  rw [atEnd, List.isEmpty_iff]

end Cursor

namespace Reader

theorem bind_of_ok {r : Reader data α} {f : α → Reader data β} {c d : Cursor data} {a : α}
    (h : r c = .ok a d) : (r >>= f) c = f a d := by
  change EStateM.bind r f c = f a d
  rw [EStateM.bind, h]

theorem bind_of_error {r : Reader data α} {f : α → Reader data β} {c d : Cursor data} {e : Error}
    (h : r c = .error e d) : (r >>= f) c = .error e d := by
  change EStateM.bind r f c = .error e d
  rw [EStateM.bind, h]

theorem get_bind (f : Cursor data → Reader data α) (c : Cursor data) :
    ((get : Reader data (Cursor data)) >>= f) c = f c c := rfl

theorem read_eq_valueAt (t : ScalarType) {c : Cursor data} (h : t.width ≤ c.remaining) :
    read t c = .ok (t.valueAt data c.position) (c.skip t.width) := by
  rw [read_of_le t h, c.rest_eq, ScalarType.valueAt]

theorem read_encode {t : ScalarType} {c : Cursor data} {v : t.Value} {after : List UInt8}
    (h : c.rest = t.encode v ++ after) : read t c = .ok v (c.skip t.width) := by
  have hle : t.width ≤ c.remaining := by
    rw [Cursor.remaining_of_rest h, t.length_encode]
    omega
  rw [read_of_le t hle, h, List.take_left' (t.length_encode v), t.decode_encode]

theorem read_byte {c : Cursor data} {b : UInt8} {after : List UInt8} (h : c.rest = b :: after) :
    read .uint8 c = .ok b (c.skip 1) := by
  have hb : ScalarType.encode .uint8 b = [b] := congrArg (fun v => [v]) UInt8.ofNat_toNat
  apply read_encode (t := .uint8)
  rw [hb, h, List.singleton_append]

theorem adaptExcept_of_ok {r : Reader data α} {c d : Cursor data} {a : α} (f : Error → Error)
    (h : r c = .ok a d) : EStateM.adaptExcept f r c = .ok a d := by
  rw [EStateM.adaptExcept, h]

theorem adaptExcept_of_error {r : Reader data α} {c d : Cursor data} {e : Error}
    (f : Error → Error) (h : r c = .error e d) : EStateM.adaptExcept f r c = .error (f e) d := by
  rw [EStateM.adaptExcept, h]

theorem lookahead_of_ok {r : Reader data α} {c d : Cursor data} {a : α} (h : r c = .ok a d) :
    lookahead r c = .ok a c := by
  rw [lookahead, h]

theorem lookahead_of_error {r : Reader data α} {c d : Cursor data} {e : Error}
    (h : r c = .error e d) : lookahead r c = .error e c := by
  rw [lookahead, h]

end Reader

namespace ScalarType

/-- Bytes of the right number are the bytes of as many values. -/
theorem exists_flatMap_encode (t : ScalarType) (n : Nat) (bytes : List UInt8)
    (h : bytes.length = t.width * n) :
    ∃ values : List t.Value, values.length = n ∧ values.flatMap t.encode = bytes := by
  induction n generalizing bytes with
  | zero =>
    rw [Nat.mul_zero, List.length_eq_zero_iff] at h
    exact ⟨[], rfl, h.symm⟩
  | succ n ih =>
    rw [Nat.mul_succ] at h
    obtain ⟨values, hn, hvalues⟩ := ih (bytes.drop t.width) (by rw [List.length_drop]; omega)
    refine ⟨t.decode (bytes.take t.width) :: values, by rw [List.length_cons, hn], ?_⟩
    rw [List.flatMap_cons, hvalues, t.encode_decode (by rw [List.length_take]; omega),
      List.take_append_drop]

theorem value_encode (t : ScalarType) (v : t.Value) :
    LittleEndian.value (t.encode v) = t.toBits v := by
  rw [encode, LittleEndian.value_bytes, Nat.mod_eq_of_lt (t.toBits_lt v)]

theorem value_lt_of_length {bytes : List UInt8} (h : bytes.length = 4) :
    LittleEndian.value bytes < UInt32.size := by
  have hlt := LittleEndian.value_lt bytes
  rw [h] at hlt
  exact hlt

theorem toNat_decode_uint32 (bytes : List UInt8) (h : bytes.length = 4) :
    UInt32.toNat (decode .uint32 bytes) = LittleEndian.value bytes := by
  have hlt := value_lt_of_length h
  change (UInt32.ofNat (LittleEndian.value bytes)).toNat = _
  rw [UInt32.toNat_ofNat', Nat.mod_eq_of_lt hlt]

theorem toNat_ofNat_uint32 {n : Nat} (h : n < UInt32.size) : (UInt32.ofNat n).toNat = n := by
  rw [UInt32.toNat_ofNat', Nat.mod_eq_of_lt h]

end ScalarType
end CilCodec
