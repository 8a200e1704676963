import CilCodec.Bytes.Scalar
import CilCodec.Error.Basic

/-!
# Reading scalars at an offset

Bounds are checked before any byte is looked at, so that an offset past the end is an ordinary
failure. The main statements say when a read succeeds and that it returns what was written there.
-/
namespace CilCodec.ScalarType

/-- Reads a value at the offset and moves the offset past it; a failure leaves the offset alone. -/
def readAt (t : ScalarType) (data : List UInt8) : EStateM Error Nat t.Value := fun offset =>
  let available := data.length - offset
  if t.width ≤ available then
    .ok (t.decode ((data.drop offset).take t.width)) (offset + t.width)
  else
    .error (.truncated offset t.width available) offset

theorem readAt_of_le (t : ScalarType) {data : List UInt8} {offset : Nat}
    (h : offset + t.width ≤ data.length) :
    t.readAt data offset =
      .ok (t.decode ((data.drop offset).take t.width)) (offset + t.width) := by
  simp [readAt, show t.width ≤ data.length - offset by omega]

theorem readAt_of_lt (t : ScalarType) {data : List UInt8} {offset : Nat}
    (h : data.length < offset + t.width) :
    t.readAt data offset =
      .error (.truncated offset t.width (data.length - offset)) offset := by
  have hw := t.width_pos
  simp [readAt, show ¬ t.width ≤ data.length - offset by omega]

theorem readAt_encode (t : ScalarType) (before after : List UInt8) (v : t.Value) :
    t.readAt (before ++ (t.encode v ++ after)) before.length =
      .ok v (before.length + t.width) := by
  rw [t.readAt_of_le (by simp), List.drop_left, List.take_left' (t.length_encode v),
    decode_encode]

end CilCodec.ScalarType
