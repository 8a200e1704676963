/-!
# Little-endian numerals

A whole number as a given count of bytes, least significant first. The main statements say that
reading back a numeral gives the number modulo the range of its width, and that every list of bytes
is the numeral of its own value.
-/
namespace CilCodec.LittleEndian

/-- The low `width` bytes of `n`. -/
def bytes : (width n : Nat) → List UInt8
  | 0, _ => []
  | width + 1, n => UInt8.ofNat n :: bytes width (n / 256)

/-- The number of numerals of a width. -/
def range : (width : Nat) → Nat
  | 0 => 1
  | width + 1 => 256 * range width

def value : List UInt8 → Nat
  | [] => 0
  | b :: rest => b.toNat + 256 * value rest

@[simp] theorem length_bytes (width n : Nat) : (bytes width n).length = width := by
  induction width generalizing n with
  | zero => rfl
  | succ width ih => simp [bytes, ih]

theorem value_lt (l : List UInt8) : value l < range l.length := by
  induction l with
  | nil => exact Nat.one_pos
  | cons b rest ih =>
    have hb : b.toNat < 256 := b.toNat_lt
    simp only [value, List.length_cons, range]
    omega

theorem value_bytes (width n : Nat) : value (bytes width n) = n % range width := by
  induction width generalizing n with
  | zero => simp [bytes, value, range, Nat.mod_one]
  | succ width ih =>
    have hb : (UInt8.ofNat n).toNat = n % 256 := UInt8.toNat_ofNat'
    rw [bytes, value, ih, hb, range, Nat.mod_mul]

theorem bytes_value (l : List UInt8) : bytes l.length (value l) = l := by
  induction l with
  | nil => rfl
  | cons b rest ih =>
    have hb : b.toNat < 256 := b.toNat_lt
    have hdiv : (b.toNat + 256 * value rest) / 256 = value rest := by omega
    have hmod : UInt8.ofNat (b.toNat + 256 * value rest) = b := by
      apply UInt8.toNat_inj.1
      simp only [UInt8.toNat_ofNat']
      omega
    simp only [List.length_cons, bytes, value, hdiv, ih, hmod]

theorem bytes_mod (width n : Nat) : bytes width (n % range width) = bytes width n := by
  rw [← value_bytes]
  simpa using bytes_value (bytes width n)

end CilCodec.LittleEndian
