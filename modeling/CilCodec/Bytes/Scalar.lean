import CilCodec.Bytes.LittleEndian

/-!
# Scalars in a byte stream

The ten fixed-width types that an instruction stream stores, floating-point numbers being kept as
bit patterns. The main statements say that bits and values determine each other, so that writing a
value and reading its bytes are inverse to each other.
-/
namespace CilCodec

inductive ScalarType where
  | uint8 | int8 | uint16 | int16 | uint32 | int32 | uint64 | int64 | float32 | float64
  deriving DecidableEq

namespace ScalarType

def width : ScalarType → Nat
  | uint8 | int8 => 1
  | uint16 | int16 => 2
  | uint32 | int32 | float32 => 4
  | uint64 | int64 | float64 => 8

/-- The values of a type; a floating-point value is its bit pattern. -/
abbrev Value : ScalarType → Type
  | uint8 => UInt8
  | int8 => Int8
  | uint16 => UInt16
  | int16 => Int16
  | uint32 | float32 => UInt32
  | int32 => Int32
  | uint64 | float64 => UInt64
  | int64 => Int64

/-- The bit pattern of a value, two's complement for the signed types. -/
def toBits : (t : ScalarType) → t.Value → Nat
  | uint8, v => UInt8.toNat v
  | int8, v => (Int8.toUInt8 v).toNat
  | uint16, v => UInt16.toNat v
  | int16, v => (Int16.toUInt16 v).toNat
  | uint32, v | float32, v => UInt32.toNat v
  | int32, v => (Int32.toUInt32 v).toNat
  | uint64, v | float64, v => UInt64.toNat v
  | int64, v => (Int64.toUInt64 v).toNat

/-- The value whose pattern is the low bits of `n`. -/
def ofBits : (t : ScalarType) → Nat → t.Value
  | uint8, n => UInt8.ofNat n
  | int8, n => (UInt8.ofNat n).toInt8
  | uint16, n => UInt16.ofNat n
  | int16, n => (UInt16.ofNat n).toInt16
  | uint32, n | float32, n => UInt32.ofNat n
  | int32, n => (UInt32.ofNat n).toInt32
  | uint64, n | float64, n => UInt64.ofNat n
  | int64, n => (UInt64.ofNat n).toInt64

theorem width_pos (t : ScalarType) : 0 < t.width := by
  cases t <;> decide

@[simp] theorem ofBits_toBits (t : ScalarType) (v : t.Value) : t.ofBits (t.toBits v) = v := by
  cases t <;> simp [ofBits, toBits]

theorem toBits_ofBits (t : ScalarType) (n : Nat) :
    t.toBits (t.ofBits n) = n % LittleEndian.range t.width := by
  cases t <;> simp [ofBits, toBits, width, LittleEndian.range]

theorem toBits_lt (t : ScalarType) (v : t.Value) : t.toBits v < LittleEndian.range t.width := by
  rw [← t.ofBits_toBits v, toBits_ofBits]
  exact Nat.mod_lt _ (by cases t <;> decide)

/-- The bytes of a value, least significant first. -/
def encode (t : ScalarType) (v : t.Value) : List UInt8 :=
  LittleEndian.bytes t.width (t.toBits v)

def decode (t : ScalarType) (bytes : List UInt8) : t.Value :=
  t.ofBits (LittleEndian.value bytes)

@[simp] theorem length_encode (t : ScalarType) (v : t.Value) : (t.encode v).length = t.width :=
  LittleEndian.length_bytes _ _

@[simp] theorem decode_encode (t : ScalarType) (v : t.Value) : t.decode (t.encode v) = v := by
  rw [decode, encode, LittleEndian.value_bytes, Nat.mod_eq_of_lt (t.toBits_lt v), ofBits_toBits]

theorem encode_decode (t : ScalarType) {bytes : List UInt8} (h : bytes.length = t.width) :
    t.encode (t.decode bytes) = bytes := by
  rw [decode, encode, toBits_ofBits, LittleEndian.bytes_mod, ← h, LittleEndian.bytes_value]

end ScalarType
end CilCodec
