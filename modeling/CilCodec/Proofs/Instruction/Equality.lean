import CilCodec.Instruction.Equality
import CilCodec.Proofs.Instruction.Spelling

/-!
# Equality of instructions as values and their bytes

Operands behind the same opcode are equal as values if none is a NaN and they are the same or both
are zeros. Zeros of one format differ in one bit, the highest of their last byte. The main statements
say when two instructions at the same place are equal, and in what their spellings differ then.
-/
namespace CilCodec

namespace Operand

def isFloat : Operand → Bool
  | immediate (.float32 _) | immediate (.float64 _) => true
  | _ => false

def isNaN : Operand → Bool
  | immediate (.float32 bits) => FloatFormat.single.isNaN bits.toNat
  | immediate (.float64 bits) => FloatFormat.double.isNaN bits.toNat
  | _ => false

def isFloatZero : Operand → Bool
  | immediate (.float32 bits) => FloatFormat.single.isZero bits.toNat
  | immediate (.float64 bits) => FloatFormat.double.isZero bits.toNat
  | _ => false

theorem isFloat_of_isNaN {x : Operand} (h : x.isNaN = true) : x.isFloat = true := by
  unfold isNaN at h
  split at h <;> first | rfl | cases h

theorem isFloat_of_isFloatZero {x : Operand} (h : x.isFloatZero = true) : x.isFloat = true := by
  unfold isFloatZero at h
  split at h <;> first | rfl | cases h

theorem deltas_eq_of_equal {x y : Operand} (h : x.equal y = true) : x.deltas = y.deltas := by
  cases x <;> cases y <;> simp_all [Operand.equal, deltas]

end Operand

/-- The bytes of a floating-point zero: only the last can be other than zero, and that only in its
highest bit. -/
inductive IsSignedZero : List UInt8 → Prop where
  | intro (count : Nat) {sign : UInt8} : sign = 0 ∨ sign = 0x80 →
      IsSignedZero (List.replicate count 0 ++ [sign])

variable {kind : OperandKind} {o : Opcode} {x y : Operand} {w v : List UInt8}
  {n : Nat} {p q : UInt8}

theorem IsSignedZero.sign_of_ne (hw : IsSignedZero w) (hv : IsSignedZero v)
    (hlength : w.length = v.length) (hp : w[n]? = some p) (hq : v[n]? = some q) (hne : p ≠ q) :
    p ^^^ q = 0x80 ∧ n + 1 = w.length := by
  cases hw with
  | @intro count sign hsign =>
    cases hv with
    | @intro count' sign' hsign' =>
      obtain rfl : count = count' := by simpa using hlength
      rcases Nat.lt_trichotomy n count with hn | rfl | hn
      · simp_all [List.getElem?_append_left]
      · obtain rfl : sign = p := by simpa using hp
        obtain rfl : sign' = q := by simpa using hq
        constructor
        · rcases hsign with rfl | rfl <;> rcases hsign' with rfl | rfl <;> simp_all
        · simp
      · have hout : n - count ≠ 0 := by omega
        simp [List.getElem?_append_right, Nat.le_of_lt hn, hout] at hp

theorem single_isZero_iff (bits : UInt32) :
    FloatFormat.single.isZero bits.toNat = true ↔ bits = 0 ∨ bits = 0x80000000 := by
  have hlt := bits.toNat_lt
  rw [← UInt32.toNat_inj, ← UInt32.toNat_inj]
  simp [FloatFormat.isZero, FloatFormat.magnitude, FloatFormat.single]
  omega

theorem double_isZero_iff (bits : UInt64) :
    FloatFormat.double.isZero bits.toNat = true ↔ bits = 0 ∨ bits = 0x8000000000000000 := by
  have hlt := bits.toNat_lt
  rw [← UInt64.toNat_inj, ← UInt64.toNat_inj]
  simp [FloatFormat.isZero, FloatFormat.magnitude, FloatFormat.double]
  omega

namespace OperandKind

theorem kind_of_isFloat (hx : kind.Spells x w) (h : x.isFloat = true) :
    kind = .shortInlineR ∨ kind = .inlineR := by
  cases hx with
  | float32 _ => exact .inl rfl
  | float64 _ => exact .inr rfl
  | _ => cases h

theorem isSignedZero_of_spells (hx : kind.Spells x w) (h : x.isFloatZero = true) :
    IsSignedZero w := by
  cases hx with
  | float32 bits =>
    rcases (single_isZero_iff bits).1 h with rfl | rfl
    · exact .intro 3 (.inl rfl)
    · exact .intro 3 (.inr rfl)
  | float64 bits =>
    rcases (double_isZero_iff bits).1 h with rfl | rfl
    · exact .intro 7 (.inl rfl)
    · exact .intro 7 (.inr rfl)
  | _ => cases h

/-- Operands of one kind are equal as values if and only if none is a NaN and they are the same or
both are zeros. -/
theorem equal_iff_of_spells (hx : kind.Spells x w) (hy : kind.Spells y v) :
    x.equal y = true ↔ x.isNaN = false ∧ y.isNaN = false ∧
      (x = y ∨ x.isFloatZero = true ∧ y.isFloatZero = true) := by
  cases hx <;> cases hy
  -- Only tokens have several kinds, and no other operand has one of these.
  all_goals try first | contradiction | cases ‹isToken _ = true›
  case float32.float32 bits bits' =>
    simp [Operand.equal, Immediate.equal, Operand.isNaN, Operand.isFloatZero,
      FloatFormat.sameNumber_iff, UInt32.toNat_inj]
  case float64.float64 bits bits' =>
    simp [Operand.equal, Immediate.equal, Operand.isNaN, Operand.isFloatZero,
      FloatFormat.sameNumber_iff, UInt64.toNat_inj]
  all_goals simp [Operand.equal, Immediate.equal, Operand.isNaN, Operand.isFloatZero]

end OperandKind

namespace Instruction

/-- Behind one opcode zeros differ in the sign bit, which stands in the last byte, or not at all. -/
theorem sign_of_ne (hx : Spells o x w) (hy : Spells o y v) (hzero : x.isFloatZero = true)
    (hzero' : y.isFloatZero = true) :
    w.length = v.length ∧
      ∀ n p q, w[n]? = some p → v[n]? = some q → p ≠ q → p ^^^ q = 0x80 ∧ n + 1 = w.length := by
  cases hx with
  | @intro head tail hhead htail =>
    cases hy with
    | @intro head' tail' hhead' htail' =>
      obtain rfl : head = head' := by
        rw [← Opcode.bytes_of_spells hhead, ← Opcode.bytes_of_spells hhead']
      have hkind : o.kind ≠ .inlineSwitch := by
        rcases OperandKind.kind_of_isFloat htail (Operand.isFloat_of_isFloatZero hzero) with
          h | h <;> simp [h]
      have hlength : tail.length = tail'.length := by
        apply Option.some.inj
        rw [← OperandKind.length_of_spells htail hkind, ← OperandKind.length_of_spells htail' hkind]
      constructor
      · rw [List.length_append, List.length_append, hlength]
      · intro n p q hp hq hne
        rw [List.length_append]
        rcases Nat.lt_or_ge n head.length with hn | hn
        · simp_all [List.getElem?_append_left]
        · rw [List.getElem?_append_right hn] at hp hq
          rcases (OperandKind.isSignedZero_of_spells htail hzero).sign_of_ne
            (OperandKind.isSignedZero_of_spells htail' hzero') hlength hp hq hne with ⟨hbit, hlast⟩
          exact ⟨hbit, by omega⟩

theorem loadsFloat_of_isFloat (hx : Spells o x w) (h : x.isFloat = true) : o.LoadsFloat := by
  have ho := (spells_iff_encode.1 hx).1
  cases hx with
  | intro _ htail => exact Opcode.loadsFloat_of_kind ho (OperandKind.kind_of_isFloat htail h)

theorem equal_iff_of_spells (hx : Spells o x w) (hy : Spells o y v) :
    x.equal y = true ↔ x.isNaN = false ∧ y.isNaN = false ∧
      (x = y ∨ x.isFloatZero = true ∧ y.isFloatZero = true) := by
  cases hx with
  | intro _ hx =>
    cases hy with
    | intro _ hy => exact OperandKind.equal_iff_of_spells hx hy

/-- Operands that are equal as values have the same bytes, or those of two zeros. -/
theorem sign_of_equal (hx : Spells o x w) (hy : Spells o y v) (h : x.equal y = true) :
    w.length = v.length ∧
      ∀ n p q, w[n]? = some p → v[n]? = some q → p ≠ q →
        p ^^^ q = 0x80 ∧ n + 1 = w.length ∧ x.isFloatZero = true ∧ y.isFloatZero = true := by
  rcases (equal_iff_of_spells hx hy).1 h with ⟨-, -, rfl | ⟨hzero, hzero'⟩⟩
  · obtain rfl := hx.bytes_unique hy
    simp_all
  · rcases sign_of_ne hx hy hzero hzero' with ⟨hlength, hsign⟩
    constructor
    · exact hlength
    · intro n p q hp hq hne
      rcases hsign n p q hp hq hne with ⟨hbit, hlast⟩
      exact ⟨hbit, hlast, hzero, hzero'⟩

/-- At one place the operands decide whether instructions are equal. -/
theorem equal_of_operand_equal {i j : Instruction} (hoffset : i.offset = j.offset)
    (hsize : i.size = j.size) (hopcode : i.opcode = j.opcode)
    (hoperand : i.operand.equal j.operand = true) (hresolution : i.resolution = j.resolution)
    (hi : i.targets = i.operand.targets i.next) (hj : j.targets = j.operand.targets j.next) :
    i.equal j = true := by
  have htargets : i.targets = j.targets := by
    rw [hi, hj, Operand.targets, Operand.targets, Operand.deltas_eq_of_equal hoperand, next, next,
      hoffset, hsize]
  simp [equal, hoffset, hsize, hopcode, hoperand, hresolution, htargets]

end Instruction

end CilCodec
